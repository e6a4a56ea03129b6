import KnxTelegramStore.Postgres.Backfill

/-!
What holds before each statement of a backfill, as long as nobody else changes
the table (`Phase`). The variables of the code and what its transaction has
written are what the passes in one piece have come to by then
(`Phase.statement`); a start that takes no relation lock has found nothing to
do.
-/
namespace KnxTelegramStore.Postgres.Backfill

variable {legacy locked locked' : Bool} {db db' : Db} {x : Start} {update : Update}

/-! ## The passes in one piece -/

theorem Update.apply_of_false {cells : DataCells} (idle : update.condition cells = false) :
    update.apply cells = cells := by
  unfold apply
  rw [idle, if_neg Bool.false_ne_true]

theorem Db.update_of_none
    (idle : ∀ id row, db.rows id = some row → update.condition row.cells = false) : db.update update = db := by
  refine Db.ext ?_ rfl rfl
  funext id
  cases present : db.rows id with
  | none => simp [Db.update, present]
  | some row => simp [Db.update, present, Row.update, Update.apply_of_false (idle id row present)]

theorem Db.flags_backfill (legacy : Bool) (db : Db) : (db.backfill legacy).flags = ⟨true, true⟩ := by
  obtain ⟨rows, inserted, ⟨nulls, unwrapped⟩, bounded⟩ := db
  cases legacy <;> cases nulls <;> cases unwrapped <;> rfl

/-- Nothing is left to do. -/
def Done (legacy : Bool) (db : Db) : Prop :=
  db.flags = ⟨true, true⟩ ∧
    (legacy = true → ∀ id row, db.rows id = some row → moveFloats.condition row.cells = false)

theorem Done.backfill (done : Done legacy db) : db.backfill legacy = db := by
  obtain ⟨flags, floats⟩ := done
  have nulls : db.nullsPass = db := by
    unfold Db.nullsPass
    rw [flags, if_pos rfl]
  have moved : db.floatPass legacy = db := by
    unfold Db.floatPass
    cases legacy with
    | false => rfl
    | true => exact Db.update_of_none (floats rfl)
  unfold Db.backfill Db.unwrapPass
  rw [nulls, moved, flags, if_pos rfl]

/-! ## What a transaction sees -/

theorem Start.commit_execute (x : Start) (db : Db) (update : Update) :
    (x.execute db update).commit db = (x.commit db).update update := by
  refine Db.ext ?_ rfl rfl
  funext id
  show (x.execute db update).rows db id = (x.rows db id).map (Row.update update)
  cases present : db.rows id with
  | none => simp [rows, present]
  | some row =>
    have sees : x.rows db id = some { row with cells := (x.updated id).getD row.cells } := by
      rw [rows, present, Option.map_some]
    rw [sees, rows, present, execute]
    simp only [sees, Option.map_some, Option.some.injEq, Row.update, Row.mk.injEq, and_self, and_true, Update.apply]
    split <;> rfl

/-- No row the transaction sees is pending. -/
theorem Start.pending_false {condition : DataCells → Bool} (found : x.pending db condition = false) (id : ℕ) (row : Row)
    (present : (x.commit db).rows id = some row) : condition row.cells = false := by
  have below : id < db.inserted := by
    by_contra beyond
    rw [(x.commit db).bounded id (Nat.le_of_not_lt beyond)] at present
    cases present
  have none_ := List.any_eq_false.mp found id (List.mem_range.mpr below)
  replace present : x.rows db id = some row := present
  rw [present] at none_
  simpa using none_

theorem Start.count_zero {condition : DataCells → Bool} (zero : countRows db.inserted (x.rows db) condition = 0)
    (id : ℕ) (row : Row) (present : (x.commit db).rows id = some row) : condition row.cells = false := by
  have none_ : x.pending db condition = false := by
    rw [pending, List.any_eq_false]
    exact List.countP_eq_zero.mp zero
  exact Start.pending_false none_ id row present

/-- Its transaction has written nothing. -/
structure Pristine (x : Start) : Prop where
  updated : x.updated = fun _ => none
  recorded : x.recorded = {}

theorem Pristine.commit (pristine : Pristine x) (db : Db) : x.commit db = db := by
  refine Db.ext ?_ rfl ?_
  · funext id
    show x.rows db id = _
    rw [Start.rows, pristine.updated]
    cases db.rows id <;> rfl
  · show Flags.mk _ _ = _
    rw [pristine.recorded, Bool.or_false, Bool.or_false]

/-! ## Where a start is -/

/-- The variables say what is committed. -/
structure Fresh (db : Db) (x : Start) : Prop where
  alreadyUnwrapped : x.alreadyUnwrapped = db.flags.dataUnwrapped
  nullsRecovered : x.nullsRecovered = db.flags.nullsRecovered
  unprobed : x.legacyFloatPending = none

/-- What holds before the next statement of a start; `locked` once it has the
relation lock. -/
def Phase (legacy locked : Bool) (db : Db) (x : Start) : Prop :=
  match x.pc with
  | .unstarted | .advisoryLock | .readUnwrapped false | .relationLock => Pristine x
  | .readNulls false => Pristine x ∧ (x.alreadyUnwrapped = true → db.flags.dataUnwrapped = true)
  | .optimisticProbe => Pristine x ∧ legacy = true ∧ x.alreadyUnwrapped = true ∧ x.nullsRecovered = true ∧
      db.flags = ⟨true, true⟩
  | .readUnwrapped true => Pristine x ∧ locked = true
  | .readNulls true => Pristine x ∧ locked = true ∧ x.alreadyUnwrapped = db.flags.dataUnwrapped
  | .nullsProbe | .nullsUpdate => Pristine x ∧ locked = true ∧ Fresh db x ∧ x.nullsRecovered = false
  | .nullsRecord => locked = true ∧ Fresh db x ∧ x.nullsRecovered = false ∧ x.commit db = db.update recoverNulls
  | .floatProbe | .floatUpdate => locked = true ∧ Fresh db x ∧ legacy = true ∧ x.commit db = db.nullsPass
  | .count => locked = true ∧ x.alreadyUnwrapped = false ∧ db.flags.dataUnwrapped = false ∧
      x.commit db = db.nullsPass.floatPass legacy
  | .unwrapUpdate => locked = true ∧ x.alreadyUnwrapped = false ∧ db.flags.dataUnwrapped = false ∧
      x.commit db = db.nullsPass.floatPass legacy ∧
      x.expectedRows = countRows db.inserted (x.rows db) unwrapData.condition
  | .unwrapRecord => locked = true ∧ x.alreadyUnwrapped = false ∧ db.flags.dataUnwrapped = false ∧
      x.commit db = (db.nullsPass.floatPass legacy).update unwrapData
  | .committing => locked = true ∧ x.commit db = db.backfill legacy ∨ Pristine x ∧ Done legacy db
  | .ended _ => True

/-- What others do meanwhile: nothing once it has the relation lock, and
nothing is undone. -/
theorem Phase.frame (phase : Phase legacy locked db x) (still : locked = true → db' = db ∧ locked' = true)
    (unwrapped : db.flags.dataUnwrapped = true → db'.flags.dataUnwrapped = true)
    (set : db.flags = ⟨true, true⟩ → db'.flags = ⟨true, true⟩) (done : Done legacy db → Done legacy db') :
    Phase legacy locked' db' x := by
  cases held : locked with
  | true =>
    obtain ⟨rfl, rfl⟩ := still held
    subst held
    exact phase
  | false =>
    unfold Phase at phase ⊢
    rw [held] at phase
    simp only [Bool.false_eq_true, false_and, and_false, false_or] at phase
    split at phase
    all_goals first | exact phase | exact phase.elim | skip
    · exact phase.imp_right fun known read => unwrapped (known read)
    · obtain ⟨pristine, legacy, already, nulls, flags⟩ := phase
      exact ⟨pristine, legacy, already, nulls, set flags⟩
    · exact .inr (phase.imp_right done)

/-! ## A statement -/

theorem flags_passes (legacy : Bool) (db : Db) :
    (db.nullsPass.floatPass legacy).flags.dataUnwrapped = db.flags.dataUnwrapped := by
  have same : db.nullsPass.flags.dataUnwrapped = db.flags.dataUnwrapped := by
    unfold Db.nullsPass
    split <;> rfl
  rw [← same]
  cases legacy <;> rfl

/-- With the flag `data_unwrapped` set, the floats were the last pass. -/
theorem phase_unwrapPass (held : locked = true) (known : x.alreadyUnwrapped = db.flags.dataUnwrapped)
    (sees : x.commit db = db.nullsPass.floatPass legacy) : Phase legacy locked db { x with pc := x.unwrapPass } := by
  by_cases already : x.alreadyUnwrapped = true
  · have last : x.unwrapPass = .committing := if_pos already
    rw [last]
    refine .inl ⟨held, sees.trans ?_⟩
    unfold Db.backfill Db.unwrapPass
    rw [flags_passes, ← known, already, if_pos rfl]
  · have counts : x.unwrapPass = .count := if_neg already
    rw [counts]
    rw [Bool.not_eq_true] at already
    exact ⟨held, already, known.symm.trans already, sees⟩

theorem phase_floatPass (held : locked = true) (fresh : Fresh db x) (sees : x.commit db = db.nullsPass) :
    Phase legacy locked db { x with pc := x.floatPass legacy } := by
  cases legacy with
  | true =>
    have probes : x.floatPass true = .floatProbe := by
      unfold Start.floatPass
      rw [if_pos rfl, fresh.unprobed]
    rw [probes]
    exact ⟨held, ⟨fresh.alreadyUnwrapped, fresh.nullsRecovered, fresh.unprobed⟩, rfl, sees⟩
  | false => exact phase_unwrapPass held fresh.alreadyUnwrapped sees

theorem phase_nullsPass (held : locked = true) (fresh : Fresh db x) (pristine : Pristine x) :
    Phase legacy locked db { x with pc := x.nullsPass legacy } := by
  by_cases recovered : x.nullsRecovered = true
  · have skips : x.nullsPass legacy = x.floatPass legacy := if_pos recovered
    rw [skips]
    apply phase_floatPass held fresh
    rw [pristine.commit, Db.nullsPass, ← fresh.nullsRecovered, recovered, if_pos rfl]
  · have probes : x.nullsPass legacy = .nullsProbe := if_neg recovered
    rw [probes]
    rw [Bool.not_eq_true] at recovered
    exact ⟨⟨pristine.updated, pristine.recorded⟩, held,
      ⟨fresh.alreadyUnwrapped, fresh.nullsRecovered, fresh.unprobed⟩, recovered⟩

/-- After the first look at the flags, a start goes for the relation lock, or
there is nothing to do but for legacy floats. -/
theorem phase_optimistic (pristine : Pristine x) (unwrapped : x.alreadyUnwrapped = true → db.flags.dataUnwrapped = true)
    (nulls : x.nullsRecovered = true → db.flags.nullsRecovered = true) :
    Phase legacy locked db { x with pc := x.optimistic legacy } := by
  by_cases pending : ¬ x.alreadyUnwrapped ∨ ¬ x.nullsRecovered
  · have locks : x.optimistic legacy = .relationLock := if_pos pending
    rw [locks]
    exact ⟨pristine.updated, pristine.recorded⟩
  · have rest : x.optimistic legacy = if legacy then .optimisticProbe else x.nullsPass legacy := if_neg pending
    rw [not_or, not_not, not_not] at pending
    have flags : Flags.mk db.flags.nullsRecovered db.flags.dataUnwrapped = ⟨true, true⟩ := by
      rw [nulls pending.2, unwrapped pending.1]
    rw [rest]
    cases legacy with
    | true => exact ⟨⟨pristine.updated, pristine.recorded⟩, rfl, pending.1, pending.2, flags⟩
    | false =>
      have last : x.nullsPass false = .committing := by
        unfold Start.nullsPass Start.floatPass Start.unwrapPass
        rw [if_pos pending.2, if_neg Bool.false_ne_true, if_pos pending.1]
      rw [if_neg Bool.false_ne_true, last]
      exact .inr ⟨⟨pristine.updated, pristine.recorded⟩, flags, nofun⟩

/-- **One statement.** None finds fewer rows to change than were counted, and
each takes the transaction from what one pass after the other does to what the
next one does. -/
theorem Phase.statement (phase : Phase legacy locked db x) :
    ∃ x', x.statement legacy db = .ok x' ∧ Phase legacy locked db x' := by
  unfold Start.statement
  cases at_ : x.pc <;> simp only [Phase, at_] at phase
  case readUnwrapped again =>
    refine ⟨_, rfl, ?_⟩
    cases again with
    | false =>
      refine ⟨⟨phase.updated, phase.recorded⟩, fun read => ?_⟩
      replace read : (x.commit db).flags.dataUnwrapped = true := read
      rwa [phase.commit] at read
    | true =>
      obtain ⟨pristine, held⟩ := phase
      refine ⟨⟨pristine.updated, pristine.recorded⟩, held, ?_⟩
      rw [pristine.commit]
  case readNulls again =>
    cases again with
    | false =>
      obtain ⟨pristine, known⟩ := phase
      refine ⟨_, rfl, ?_⟩
      let read : Start := { x with pc := .readNulls false, nullsRecovered := (x.commit db).flags.nullsRecovered }
      refine phase_optimistic (x := read) ⟨pristine.updated, pristine.recorded⟩ known fun read => ?_
      replace read : (x.commit db).flags.nullsRecovered = true := read
      rwa [pristine.commit] at read
    | true =>
      obtain ⟨pristine, held, known⟩ := phase
      refine ⟨_, rfl, ?_⟩
      have fresh : Fresh db
          { x with
            pc := .readNulls true
            nullsRecovered := (x.commit db).flags.nullsRecovered
            legacyFloatPending := none } :=
        ⟨known, by rw [pristine.commit], rfl⟩
      exact phase_nullsPass held fresh ⟨pristine.updated, pristine.recorded⟩
  case optimisticProbe =>
    obtain ⟨pristine, legacy, already, nulls, flags⟩ := phase
    subst legacy
    refine ⟨_, rfl, ?_⟩
    dsimp only
    by_cases found : x.pending db moveFloats.condition = true
    · rw [if_pos found]
      exact ⟨pristine.updated, pristine.recorded⟩
    · rw [if_neg found]
      rw [Bool.not_eq_true] at found
      have last : Start.nullsPass true
          { x with pc := .optimisticProbe, legacyFloatPending := some (x.pending db moveFloats.condition) } =
          .committing := by
        unfold Start.nullsPass Start.floatPass Start.unwrapPass
        dsimp only
        rw [if_pos nulls, found, if_pos rfl, if_pos already]
      rw [last]
      refine .inr ⟨⟨pristine.updated, pristine.recorded⟩, flags, fun _ => ?_⟩
      have none_ := Start.pending_false found
      rwa [pristine.commit] at none_
  case nullsProbe =>
    obtain ⟨pristine, held, fresh, unset⟩ := phase
    have same : Fresh db { x with pc := .nullsRecord } :=
      ⟨fresh.alreadyUnwrapped, fresh.nullsRecovered, fresh.unprobed⟩
    refine ⟨_, rfl, ?_⟩
    by_cases found : x.pending db recoverNulls.condition = true
    · rw [if_pos found]
      exact ⟨⟨pristine.updated, pristine.recorded⟩, held,
        ⟨fresh.alreadyUnwrapped, fresh.nullsRecovered, fresh.unprobed⟩, unset⟩
    · rw [if_neg found]
      rw [Bool.not_eq_true] at found
      refine ⟨held, same, unset, ?_⟩
      have none_ := Start.pending_false found
      rw [pristine.commit] at none_
      rw [Db.update_of_none none_]
      exact pristine.commit db
  case nullsUpdate =>
    obtain ⟨pristine, held, fresh, unset⟩ := phase
    refine ⟨_, rfl, held, ⟨fresh.alreadyUnwrapped, fresh.nullsRecovered, fresh.unprobed⟩, unset, ?_⟩
    have wrote := x.commit_execute db recoverNulls
    rwa [pristine.commit] at wrote
  case nullsRecord =>
    obtain ⟨held, fresh, unset, sees⟩ := phase
    refine ⟨_, rfl, ?_⟩
    have known : Fresh db { x with pc := .nullsRecord, recorded := { x.recorded with nullsRecovered := true } } :=
      ⟨fresh.alreadyUnwrapped, fresh.nullsRecovered, fresh.unprobed⟩
    apply phase_floatPass held known
    have rows := congrArg Db.rows sees
    have unwrapped := congrArg (fun db => db.flags.dataUnwrapped) sees
    unfold Db.nullsPass
    rw [← fresh.nullsRecovered, unset, if_neg Bool.false_ne_true]
    refine Db.ext rows rfl ?_
    show Flags.mk (db.flags.nullsRecovered || true) _ = Flags.mk true db.flags.dataUnwrapped
    rw [Bool.or_true]
    exact congrArg (Flags.mk true) unwrapped
  case floatProbe =>
    obtain ⟨held, fresh, legacy, sees⟩ := phase
    subst legacy
    refine ⟨_, rfl, ?_⟩
    by_cases found : x.pending db moveFloats.condition = true
    · rw [if_pos found]
      exact ⟨held, ⟨fresh.alreadyUnwrapped, fresh.nullsRecovered, fresh.unprobed⟩, rfl, sees⟩
    · rw [if_neg found]
      rw [Bool.not_eq_true] at found
      apply phase_unwrapPass held fresh.alreadyUnwrapped
      have none_ := Start.pending_false found
      rw [sees] at none_ ⊢
      exact (Db.update_of_none none_).symm
  case floatUpdate =>
    obtain ⟨held, fresh, legacy, sees⟩ := phase
    subst legacy
    refine ⟨_, rfl, ?_⟩
    apply phase_unwrapPass (x := x.execute db moveFloats) held fresh.alreadyUnwrapped
    rw [x.commit_execute, sees]
    rfl
  case count =>
    obtain ⟨held, already, unset, sees⟩ := phase
    refine ⟨_, rfl, ?_⟩
    by_cases zero : countRows db.inserted (x.rows db) unwrapData.condition = 0
    · rw [if_neg (not_not.mpr zero)]
      refine ⟨held, already, unset, ?_⟩
      have none_ := Start.count_zero zero
      rw [sees] at none_
      rw [Db.update_of_none none_]
      exact sees
    · rw [if_pos zero]
      exact ⟨held, already, unset, sees, rfl⟩
  case unwrapUpdate =>
    obtain ⟨held, already, unset, sees, expected⟩ := phase
    rw [if_neg (not_not.mpr expected.symm)]
    refine ⟨_, rfl, held, already, unset, ?_⟩
    rw [← sees]
    exact x.commit_execute db unwrapData
  case unwrapRecord =>
    obtain ⟨held, already, unset, sees⟩ := phase
    refine ⟨_, rfl, .inl ⟨held, ?_⟩⟩
    have rows := congrArg Db.rows sees
    have inserted := congrArg Db.inserted sees
    have nulls := congrArg (fun db => db.flags.nullsRecovered) sees
    unfold Db.backfill Db.unwrapPass
    rw [flags_passes, unset, if_neg Bool.false_ne_true]
    refine Db.ext rows inserted ?_
    show Flags.mk _ (db.flags.dataUnwrapped || true) = Flags.mk _ true
    rw [Bool.or_true]
    exact congrArg (Flags.mk · true) nulls
  case ended => exact ⟨x, rfl, by simp only [Phase, at_]⟩
  all_goals exact ⟨x, rfl, by simp only [Phase, at_]; exact phase⟩

end KnxTelegramStore.Postgres.Backfill
