import KnxTelegramStore.Postgres.ReadCommitted

/-!
The transactions of `store_many` serialise. In any run of their statements each
call has stored what it would have stored alone, at the moment of its commit:
what it has read of `string_lookup` and of the last values by then is still so,
for the keys it has taken.
-/
namespace KnxTelegramStore.Postgres.ReadCommitted
open Sql LockTable Newest

variable {engine : Engine} {db : Db} {lookup : StringLookup} {telegrams : List StoredTelegram}
variable {cache lookupIds : LookupCache} {rows : List (Columns ℤ)} {row : Columns ℤ}
variable {locks locks' : List (ℕ × Key)} {nextId nextId' task other : ℕ} {x y : Session}

/-! ## The rows of `string_lookup` -/

theorem lookup_ext {one two : StringLookup} (same : one.rows = two.rows) : one = two := by
  cases one
  cases two
  cases same
  rfl

/-- An id source that goes through these pairs in their order, and gives these
rows their ids. -/
def giving (pairs : List Pair) (rows : List LookupRow) : IdSource where
  order missing := if pairs.Perm missing then pairs else missing
  order_perm missing := by
    split
    · assumption
    · exact .refl _
  next lookup :=
    ((rows.map LookupRow.id).find? fun id => id ∉ lookup.rows.map LookupRow.id).getD (IdSource.sqlite.next lookup)
  fresh lookup := by
    cases found : (rows.map LookupRow.id).find? fun id => id ∉ lookup.rows.map LookupRow.id with
    | none => exact IdSource.sqlite.fresh lookup
    | some id => simpa using List.find?_some found

theorem rows_insertOrIgnore (ids : IdSource) {pair : Pair} (fresh : pair ∉ lookup.rows.map LookupRow.pair) :
    (lookup.insertOrIgnore ids pair).rows = lookup.rows ++ [⟨ids.next lookup, pair.1, pair.2⟩] := by
  unfold StringLookup.insertOrIgnore
  rw [dif_neg fresh]

/-- The missing pairs get exactly these rows. -/
theorem insertOrIgnore_giving {order missing : List Pair} {before rest : List LookupRow} (nodup : missing.Nodup)
    (ids : ((lookup.rows ++ rest).map LookupRow.id).Nodup)
    (given : ∀ row ∈ before, row.id ∈ lookup.rows.map LookupRow.id)
    (made : rest.map LookupRow.pair = missing.filter fun pair => pair ∉ lookup.rows.map LookupRow.pair) :
    (missing.foldl (StringLookup.insertOrIgnore (giving order (before ++ rest))) lookup).rows =
      lookup.rows ++ rest := by
  induction missing generalizing lookup before rest with
  | nil =>
    obtain rfl : rest = [] := List.map_eq_nil_iff.mp made
    exact (List.append_nil _).symm
  | cons pair missing ih =>
    obtain ⟨fresh, others⟩ := List.nodup_cons.mp nodup
    rw [List.foldl_cons]
    by_cases known : pair ∈ lookup.rows.map LookupRow.pair
    · have unchanged : lookup.insertOrIgnore (giving order (before ++ rest)) pair = lookup := dif_pos known
      rw [List.filter_cons_of_neg (by simpa using known)] at made
      rw [unchanged]
      exact ih others ids given made
    · rw [List.filter_cons_of_pos (by simpa using known)] at made
      obtain ⟨row, rest, rfl, rfl, behind⟩ := List.map_eq_cons_iff.mp made
      have unused : row.id ∉ lookup.rows.map LookupRow.id := by
        intro used
        rw [List.map_append, List.map_cons] at ids
        exact List.disjoint_of_nodup_append ids used List.mem_cons_self
      have next : (giving order (before ++ row :: rest)).next lookup = row.id := by
        have skipped : (before.map LookupRow.id).find? (fun id => id ∉ lookup.rows.map LookupRow.id) = none := by
          refine List.find?_eq_none.mpr fun id mem => ?_
          obtain ⟨old, own, rfl⟩ := List.mem_map.mp mem
          simpa using given old own
        show Option.getD (((before ++ row :: rest).map LookupRow.id).find? _) _ = _
        rw [List.map_append, List.find?_append, skipped, Option.none_or, List.map_cons,
          List.find?_cons_of_pos (by simpa using unused), Option.getD_some]
      have grown : (lookup.insertOrIgnore (giving order (before ++ row :: rest)) row.pair).rows =
          lookup.rows ++ [row] := by
        rw [rows_insertOrIgnore _ known, next]
        rfl
      have shifted : before ++ row :: rest = (before ++ [row]) ++ rest := by simp
      rw [shifted] at grown ⊢
      rw [ih others, grown, List.append_assoc, List.singleton_append]
      · rw [grown, List.append_assoc, List.singleton_append]
        exact ids
      · rw [grown]
        intro old mem
        rcases List.mem_append.mp mem with earlier | last
        · rw [List.map_append]
          exact List.mem_append_left _ (given old earlier)
        · rw [List.mem_singleton.mp last]
          exact List.mem_map_of_mem (List.mem_append_right _ List.mem_cons_self)
      · rw [grown, behind]
        refine List.filter_congr fun other mem => ?_
        have apart : other ≠ row.pair := fun same => fresh (same ▸ mem)
        simp [apart]

theorem insertAll_giving {order missing : List Pair} {rows : List LookupRow} (same : order.Perm missing)
    (nodup : order.Nodup) (ids : ((lookup.rows ++ rows).map LookupRow.id).Nodup)
    (made : rows.map LookupRow.pair = order.filter fun pair => pair ∉ lookup.rows.map LookupRow.pair) :
    (lookup.insertAll (giving order rows) missing).rows = lookup.rows ++ rows := by
  have chosen : (giving order rows).order missing = order := if_pos same
  have given : ∀ row ∈ ([] : List LookupRow), row.id ∈ lookup.rows.map LookupRow.id := List.forall_mem_nil _
  rw [StringLookup.insertAll, chosen]
  exact insertOrIgnore_giving nodup ids given made

/-- What a commit inserts, it inserts as it is. -/
theorem insertRows {lookups : List LookupRow} (ids : ((lookup.rows ++ lookups).map LookupRow.id).Nodup)
    (pairs : ((lookup.rows ++ lookups).map LookupRow.pair).Nodup) :
    (lookups.foldl insertRow lookup).rows = lookup.rows ++ lookups := by
  induction lookups generalizing lookup with
  | nil => exact (List.append_nil _).symm
  | cons row lookups ih =>
    have fresh : row.id ∉ lookup.rows.map LookupRow.id ∧ row.pair ∉ lookup.rows.map LookupRow.pair := by
      rw [List.map_append] at ids pairs
      exact ⟨fun used => List.disjoint_of_nodup_append ids used List.mem_cons_self,
        fun used => List.disjoint_of_nodup_append pairs used List.mem_cons_self⟩
    have grown : (insertRow lookup row).rows = lookup.rows ++ [row] := by
      rw [insertRow, dif_pos fresh]
    have shifted : lookup.rows ++ row :: lookups = (insertRow lookup row).rows ++ lookups := by
      rw [grown, List.append_assoc, List.singleton_append]
    rw [shifted] at ids pairs ⊢
    exact ih ids pairs

/-! ## The last values -/

/-- A decision stands as long as the summary of its destination does. -/
theorem Write.of_congr {one two : List (Columns ℤ)} (same : one.find? (·.destinationId = row.destinationId) =
    two.find? (·.destinationId = row.destinationId)) : Write.of one row = Write.of two row := by
  unfold Write.of
  rw [same]

/-- The decision and its effect are the upsert. -/
theorem Write.apply_of {summaries : List (Columns ℤ)} (unique : (summaries.map Columns.destinationId).Nodup)
    (row : Columns ℤ) : Write.apply summaries (Write.of summaries row) = upsert summaries row := by
  have absorbed : some (Write.apply summaries (Write.of summaries row)) =
      some (absorb Columns.destinationId Columns.timestamp summaries row) := by
    refine assign_eq unique (fun fresh => ?_) fun current held same found => ?_
    · rw [Write.of, fresh]
      refine congrArg some (if_neg fun known => ?_)
      obtain ⟨old, mem, same⟩ := List.mem_map.mp known
      exact absurd (decide_eq_true same) (List.find?_eq_none.mp fresh old mem)
    · rw [Write.of, found]
      dsimp only
      split
      · rfl
      · rfl
  exact Option.some.inj absorbed

/-- Writes that were decided earlier, on the summaries of their own
destinations as they still are. -/
theorem apply_writes {summaries current : List (Columns ℤ)} (unique : (current.map Columns.destinationId).Nodup)
    (apart : (rows.map Columns.destinationId).Nodup)
    (unchanged : ∀ row ∈ rows, current.find? (·.destinationId = row.destinationId) =
      summaries.find? (·.destinationId = row.destinationId)) :
    (rows.map (Write.of summaries)).foldl Write.apply current = rows.foldl upsert current := by
  induction rows generalizing current with
  | nil => rfl
  | cons row rows ih =>
    obtain ⟨first, others⟩ := List.nodup_cons.mp apart
    rw [List.map_cons, List.foldl_cons, List.foldl_cons, ← Write.of_congr (unchanged row List.mem_cons_self),
      Write.apply_of unique]
    refine ih (upsert_unique current row unique) others fun other mem => ?_
    rw [upsert_eq, find_absorb current fun same => first (List.mem_map.mpr ⟨other, mem, same.symm⟩)]
    exact unchanged other (List.mem_cons_of_mem _ mem)

/-! ## What a transaction knows -/

/-- The pairs that are yet to be inserted. -/
def Phase.left : Phase → List Pair
  | .inserting left => left
  | .selected _ | .upserting .. => []

/-- Each pair of a batch has its cached id, or that of a row. -/
structure Resolved (known : List LookupRow) (telegrams : List StoredTelegram) (cache lookupIds : LookupCache) :
    Prop where
  cached : ∀ pair ∈ pairs telegrams, ∀ id, cache pair = some id → lookupIds pair = some id
  found : ∀ pair ∈ pairs telegrams, cache pair = none →
    ∃ row ∈ known, row.pair = pair ∧ lookupIds pair = some row.id
  others : ∀ pair ∉ pairs telegrams, lookupIds pair = none

theorem Resolved.mono {known known' : List LookupRow} (resolved : Resolved known telegrams cache lookupIds)
    (part : known ⊆ known') : Resolved known' telegrams cache lookupIds := by
  refine { resolved with found := fun pair mem missing => ?_ }
  obtain ⟨row, held, same, id⟩ := resolved.found pair mem missing
  exact ⟨row, part held, same, id⟩

theorem resolved_resolveIn {known : List LookupRow}
    (present : ∀ pair ∈ toResolve cache telegrams, pair ∈ known.map LookupRow.pair) :
    Resolved known telegrams cache (resolveIn cache known telegrams) := by
  refine ⟨fun pair mem id cached => ?_, fun pair mem missing => ?_, fun pair absent => if_neg absent⟩
  · rw [resolveIn, if_pos mem, cached]
    rfl
  · rw [resolveIn, if_pos mem, missing]
    have asked := present pair (List.mem_filter.mpr ⟨mem, decide_eq_true missing⟩)
    obtain ⟨row, held, same⟩ := List.mem_map.mp asked
    cases found : known.find? (·.pair = pair) with
    | none => exact absurd (decide_eq_true same) (List.find?_eq_none.mp found row held)
    | some first =>
      exact ⟨first, List.mem_of_find?_eq_some found, by simpa using List.find?_some found, rfl⟩

/-- The committed rows resolve alike. -/
theorem Resolved.resolve (resolved : Resolved lookup.rows telegrams cache lookupIds) :
    resolve cache lookup telegrams = lookupIds := by
  funext pair
  unfold Sql.resolve
  split
  · rename_i asked
    cases known : cache pair with
    | some id => exact (resolved.cached pair asked id known).symm
    | none =>
      obtain ⟨row, held, rfl, found⟩ := resolved.found pair asked known
      rw [found]
      exact StringLookup.idOf_eq_some.mpr (StringLookup.names_of_mem held)
  · rename_i absent
    exact (resolved.others pair absent).symm

/-- What its statements have come to by now. -/
def Session.Seen (engine : Engine) (db : Db) (locks : List (ℕ × Key)) (task : ℕ) (x : Session) : Prop :=
  match x.phase with
  | .inserting _ => True
  | .selected lookupIds => Resolved (db.lookup.rows ++ x.lookups) x.telegrams x.cache lookupIds
  | .upserting lookupIds rows left writes =>
    Resolved (db.lookup.rows ++ x.lookups) x.telegrams x.cache lookupIds ∧
      ∃ decided, prepare engine x.telegrams lookupIds = some (rows, decided ++ left) ∧
        writes = decided.map (Write.of db.lastGa) ∧ ∀ row ∈ decided, (task, Key.summary row.destinationId) ∈ locks

/-- **The invariant of a transaction.** It has inserted what was missing of the
pairs it has gone through, and has taken those keys. -/
structure Session.Sound (engine : Engine) (db : Db) (nextId : ℕ) (locks : List (ℕ × Key)) (task : ℕ) (x : Session) :
    Prop where
  order : x.order.Perm (toResolve x.cache x.telegrams)
  inserted : ∃ gone, x.order = gone ++ x.phase.left ∧
    x.lookups.map LookupRow.pair = gone.filter fun pair => pair ∉ db.lookup.rows.map LookupRow.pair
  ids : ((db.lookup.rows ++ x.lookups).map LookupRow.id).Nodup
  low : ∀ row ∈ x.lookups, row.id < nextId
  locked : ∀ row ∈ x.lookups, (task, Key.lookup row.pair) ∈ locks
  seen : x.Seen engine db locks task

/-- **The invariant of a run.** -/
structure State.Sound (engine : Engine) (s : State) : Prop where
  compatible : Compatible exclusive s.locks
  low : ∀ row ∈ s.db.lookup.rows, row.id < s.nextId
  sessions : ∀ task x, s.tasks task = some (.running x) → x.Sound engine s.db s.nextId s.locks task
  apart : ∀ task x other y, s.tasks task = some (.running x) → s.tasks other = some (.running y) → other ≠ task →
    ∀ row ∈ x.lookups, ∀ row' ∈ y.lookups, row.id ≠ row'.id

theorem toResolve_nodup (cache : LookupCache) (telegrams : List StoredTelegram) : (toResolve cache telegrams).Nodup :=
  (List.nodup_dedup _).filter _

theorem Session.Sound.order_nodup (sound : x.Sound engine db nextId locks task) : x.order.Nodup :=
  sound.order.nodup_iff.mpr (toResolve_nodup _ _)

/-- No pair of its own is committed, and none is there twice. -/
theorem Session.Sound.pairs (sound : x.Sound engine db nextId locks task) :
    ((db.lookup.rows ++ x.lookups).map LookupRow.pair).Nodup := by
  obtain ⟨gone, split, made⟩ := sound.inserted
  have nodup := sound.order_nodup
  rw [split] at nodup
  rw [List.map_append, made]
  refine db.lookup.pairs_unique.append (nodup.of_append_left.filter _) fun pair old new => ?_
  exact of_decide_eq_true (List.mem_filter.mp new).2 old

/-! ## Its commit -/

variable {writes : List Write}

theorem rows_commit (ids : ((db.lookup.rows ++ x.lookups).map LookupRow.id).Nodup)
    (pairs : ((db.lookup.rows ++ x.lookups).map LookupRow.pair).Nodup) :
    (commit db x.lookups rows writes).lookup.rows = db.lookup.rows ++ x.lookups :=
  insertRows ids pairs

theorem prepare_some {summaries : List (Columns ℤ)}
    (prepared : prepare engine telegrams lookupIds = some (rows, summaries)) :
    ∃ values latest, telegrams.mapM (valuesOf lookupIds) = some values ∧
      values.mapM (Columns.bind engine) = some rows ∧
      latestPerDestination engine.tzdb values = some latest ∧
      latest.mapM (Columns.bind engine) = some summaries := by
  simp only [prepare, Option.bind_eq_bind, Option.bind_eq_some_iff, Option.pure_def, Option.some.injEq,
    Prod.mk.injEq] at prepared
  obtain ⟨values, made, _, bound, latest, kept, _, bound', rfl, rfl⟩ := prepared
  exact ⟨values, latest, made, bound, kept, bound'⟩

/-- No destination has two rows in one upsert. -/
theorem prepare_unique {summaries : List (Columns ℤ)}
    (prepared : prepare engine telegrams lookupIds = some (rows, summaries)) :
    (summaries.map Columns.destinationId).Nodup := by
  obtain ⟨values, latest, _, _, kept, bound⟩ := prepare_some prepared
  have same : latest.map Columns.destinationId = summaries.map Columns.destinationId := by
    rw [← List.forall₂_eq_eq_eq, List.forall₂_map_left_iff, List.forall₂_map_right_iff]
    refine (mapM_some_iff.mp bound).imp fun val row made => ?_
    obtain ⟨_, _, _, rfl⟩ := Columns.bind_some made
    rfl
  rw [← same, Writers.keys_latest kept]
  exact Writers.keysOf_nodup _

/-- The last values that a commit leaves. -/
theorem lastGa_commit {lookups : List LookupRow} {decided : List (Columns ℤ)}
    (apart : (decided.map Columns.destinationId).Nodup) :
    (commit db lookups rows (decided.map (Write.of db.lastGa))).lastGa = decided.foldl upsert db.lastGa :=
  apply_writes db.destinations_unique apart fun _ _ => rfl

theorem db_ext {one two : Db} (lookup : one.lookup = two.lookup) (telegrams : one.telegrams = two.telegrams)
    (lastGa : one.lastGa = two.lastGa) : one = two := by
  cases one
  cases two
  cases lookup
  cases telegrams
  cases lastGa
  rfl

/-- What `store_many` does with what it has resolved. -/
theorem storeMany_prepared {ids : IdSource} {summaries : List (Columns ℤ)}
    (resolves : resolve cache (db.lookup.insertAll ids (toResolve cache telegrams)) telegrams = lookupIds)
    (prepared : prepare engine telegrams lookupIds = some (rows, summaries)) :
    (storeMany engine ids cache telegrams db).2 =
      some (({ db with lookup := db.lookup.insertAll ids (toResolve cache telegrams) }.insertTelegrams
        rows).upsertLastGa summaries, lookupIds) := by
  obtain ⟨values, latest, made, bound, kept, bound'⟩ := prepare_some prepared
  simp only [storeMany, resolves, made, bound, kept, bound', Option.map_some]

/-- **A commit is a `store_many` at that moment.** -/
theorem commit_storeMany (sound : x.Sound engine db nextId locks task)
    (phase : x.phase = .upserting lookupIds rows [] writes) :
    ∃ ids statements, storeMany engine ids x.cache x.telegrams db =
      (statements, some (commit db x.lookups rows writes, lookupIds)) := by
  obtain ⟨gone, split, made⟩ := sound.inserted
  have seen := sound.seen
  unfold Session.Seen at seen
  rw [phase] at seen split
  dsimp only at seen
  rw [Phase.left, List.append_nil] at split
  obtain ⟨resolved, decided, prepared, rfl, _⟩ := seen
  rw [List.append_nil] at prepared
  rw [← split] at made
  have inserted : (db.lookup.insertAll (giving x.order x.lookups) (toResolve x.cache x.telegrams)).rows =
      db.lookup.rows ++ x.lookups :=
    insertAll_giving sound.order sound.order_nodup sound.ids made
  have last : (commit db x.lookups rows (decided.map (Write.of db.lastGa))).lastGa = decided.foldl upsert db.lastGa :=
    lastGa_commit (prepare_unique prepared)
  rw [← inserted] at resolved
  refine ⟨giving x.order x.lookups, _, Prod.ext rfl ((storeMany_prepared resolved.resolve prepared).trans ?_)⟩
  refine congrArg some (Prod.ext (db_ext (lookup_ext ?_) rfl ?_) rfl)
  · exact inserted.trans (rows_commit sound.ids sound.pairs).symm
  · exact last.symm

/-! ## Steps -/

theorem Session.Sound.mono (sound : x.Sound engine db nextId locks task) (later : nextId ≤ nextId')
    (kept : ∀ key, (task, key) ∈ locks → (task, key) ∈ locks') : x.Sound engine db nextId' locks' task where
  order := sound.order
  inserted := sound.inserted
  ids := sound.ids
  low row mem := lt_of_lt_of_le (sound.low row mem) later
  locked row mem := kept _ (sound.locked row mem)
  seen := by
    have seen := sound.seen
    unfold Session.Seen at seen ⊢
    split
    · trivial
    · rename_i lookupIds phase
      rw [phase] at seen
      exact seen
    · rename_i lookupIds rows left writes phase
      rw [phase] at seen
      obtain ⟨resolved, decided, prepared, made, held⟩ := seen
      exact ⟨resolved, decided, prepared, made, fun row mem => kept _ (held row mem)⟩

/-- One call goes on by itself. -/
theorem State.Sound.proceed {s s' : State} {slot : Option Task} (sound : s.Sound engine) (same : s'.db = s.db)
    (tasks : s'.tasks = Function.update s.tasks task slot) (compatible : Compatible exclusive s'.locks)
    (later : s.nextId ≤ s'.nextId)
    (kept : ∀ other key, other ≠ task → (other, key) ∈ s.locks → (other, key) ∈ s'.locks)
    (own : ∀ x, slot = some (.running x) → x.Sound engine s.db s'.nextId s'.locks task)
    (fresh : ∀ x, slot = some (.running x) → ∀ row ∈ x.lookups,
      s.nextId ≤ row.id ∨ ∃ y, s.tasks task = some (.running y) ∧ row ∈ y.lookups) : s'.Sound engine := by
  have distinct : ∀ x other y, slot = some (.running x) → s.tasks other = some (.running y) → other ≠ task →
      ∀ row ∈ x.lookups, ∀ row' ∈ y.lookups, row.id ≠ row'.id := by
    intro x other y running running' apart row mem row' mem'
    rcases fresh x running row mem with new | ⟨z, before, mem⟩
    · exact fun equal => absurd ((sound.sessions other y running').low row' mem') (by omega)
    · exact sound.apart task z other y before running' apart row mem row' mem'
  refine ⟨compatible, ?_, fun other x running => ?_, fun first x second y running running' apart => ?_⟩
  · intro row mem
    rw [same] at mem
    exact lt_of_lt_of_le (sound.low row mem) later
  · rw [same]
    rw [tasks] at running
    by_cases equal : other = task
    · subst equal
      rw [Function.update_self] at running
      exact own x running
    · rw [Function.update_of_ne equal] at running
      exact (sound.sessions other x running).mono later fun key => kept other key equal
  · rw [tasks] at running running'
    by_cases equal : first = task
    · subst equal
      rw [Function.update_self] at running
      rw [Function.update_of_ne apart] at running'
      exact distinct x second y running running' apart
    · rw [Function.update_of_ne equal] at running
      by_cases equal' : second = task
      · subst equal'
        rw [Function.update_self] at running'
        intro row mem row' mem' same
        exact distinct y first x running' running equal row' mem' row mem same.symm
      · rw [Function.update_of_ne equal'] at running'
        exact sound.apart first x second y running running' apart

/-! ## The commit of another call -/

/-- A key has one holder. -/
theorem holds_apart (compatible : Compatible exclusive locks) (apart : other ≠ task) {key key' : Key}
    (mine : (task, key) ∈ locks) (theirs : (other, key') ∈ locks) : key ≠ key' := by
  rintro rfl
  exact apart (compatible.holder (decide_eq_true rfl) mine theirs)

/-- The last value of a destination that this transaction has taken. -/
theorem find_commit {destinationId : ℕ} (compatible : Compatible exclusive locks) (apart : other ≠ task)
    (theirs : y.Sound engine db nextId locks other) (phase : y.phase = .upserting lookupIds rows [] writes)
    (mine : (task, Key.summary destinationId) ∈ locks) :
    (commit db y.lookups rows writes).lastGa.find? (·.destinationId = destinationId) =
      db.lastGa.find? (·.destinationId = destinationId) := by
  have seen := theirs.seen
  unfold Session.Seen at seen
  rw [phase] at seen
  obtain ⟨_, decided, prepared, rfl, held⟩ := seen
  rw [List.append_nil] at prepared
  rw [lastGa_commit (prepare_unique prepared)]
  refine find_absorbAll db.lastGa fun row mem same => ?_
  exact holds_apart compatible apart mine (held row mem) (congrArg Key.summary same.symm)

/-- What a transaction knows stays true while another one commits. -/
theorem Session.Sound.after (sound : x.Sound engine db nextId locks task)
    (theirs : y.Sound engine db nextId locks other) (compatible : Compatible exclusive locks) (apart : other ≠ task)
    (phase : y.phase = .upserting lookupIds rows [] writes)
    (distinct : ∀ row ∈ x.lookups, ∀ row' ∈ y.lookups, row.id ≠ row'.id) :
    x.Sound engine (commit db y.lookups rows writes) nextId (release locks other) task := by
  have committed : (commit db y.lookups rows writes).lookup.rows = db.lookup.rows ++ y.lookups :=
    rows_commit theirs.ids theirs.pairs
  have grown : db.lookup.rows ++ x.lookups ⊆ (commit db y.lookups rows writes).lookup.rows ++ x.lookups := by
    rw [committed, List.append_assoc]
    exact List.append_subset.mpr ⟨List.subset_append_left _ _,
      List.subset_append_of_subset_right _ (List.subset_append_right _ _)⟩
  have kept : ∀ key, (task, key) ∈ locks → (task, key) ∈ release locks other :=
    fun key mem => mem_release.mpr ⟨mem, apart.symm⟩
  refine ⟨sound.order, ?_, ?_, sound.low, fun row mem => kept _ (sound.locked row mem), ?_⟩
  · obtain ⟨gone, split, made⟩ := sound.inserted
    refine ⟨gone, split, made.trans (List.filter_congr fun pair mem => decide_eq_decide.mpr ?_)⟩
    rw [committed, List.map_append, List.mem_append, not_or]
    refine ⟨fun absent => ⟨absent, fun new => ?_⟩, And.left⟩
    -- a pair that this transaction has gone through is committed, or its own
    have own : pair ∈ x.lookups.map LookupRow.pair := by
      rw [made]
      exact List.mem_filter.mpr ⟨mem, decide_eq_true absent⟩
    obtain ⟨row, held, rfl⟩ := List.mem_map.mp own
    obtain ⟨row', held', same⟩ := List.mem_map.mp new
    have equal : Key.lookup row.pair = Key.lookup row'.pair := congrArg Key.lookup same.symm
    exact holds_apart compatible apart (sound.locked row held) (theirs.locked row' held') equal
  · rw [committed, List.map_append]
    have mine := sound.ids
    rw [List.map_append] at mine
    refine theirs.ids.append mine.of_append_right fun id old new => ?_
    rw [List.map_append] at old
    rcases List.mem_append.mp old with known | other
    · exact List.disjoint_of_nodup_append mine known new
    · obtain ⟨row, held, rfl⟩ := List.mem_map.mp new
      obtain ⟨row', held', same⟩ := List.mem_map.mp other
      exact distinct row held row' held' same.symm
  · have seen := sound.seen
    unfold Session.Seen at seen ⊢
    split
    · trivial
    · rename_i lookupIds own
      rw [own] at seen
      exact seen.mono grown
    · rename_i lookupIds rows left writes own
      rw [own] at seen
      obtain ⟨resolved, decided, prepared, rfl, held⟩ := seen
      refine ⟨resolved.mono grown, decided, prepared, ?_, fun row mem => kept _ (held row mem)⟩
      refine List.map_congr_left fun row mem => Write.of_congr ?_
      exact (find_commit compatible apart theirs phase (held row mem)).symm

/-! ## The statements -/

variable {s s' : State}

/-- A statement of one call, on its way to the commit. -/
theorem State.Sound.statement (sound : s.Sound engine) (running : s.tasks task = some (.running x))
    (same : s'.db = s.db) (tasks : s'.tasks = Function.update s.tasks task (some (.running y)))
    (compatible : Compatible exclusive s'.locks) (later : s.nextId ≤ s'.nextId) (kept : s.locks ⊆ s'.locks)
    (own : y.Sound engine s.db s'.nextId s'.locks task)
    (fresh : ∀ row ∈ y.lookups, s.nextId ≤ row.id ∨ row ∈ x.lookups) : s'.Sound engine := by
  refine sound.proceed same tasks compatible later (fun _ _ _ mem => kept mem) (fun z slot => ?_)
    fun z slot row mem => ?_
  · cases slot
    exact own
  · cases slot
    exact (fresh row mem).imp_right fun old => ⟨x, running, old⟩

/-- To the store for whole transactions nothing has happened. -/
theorem serial_statement (running : s.tasks task = some (.running x))
    (tasks : s'.tasks = Function.update s.tasks task (some (.running y))) (same : s'.db = s.db)
    (published : s'.cache = s.cache) (stored : s'.stored = s.stored) (telegrams : y.telegrams = x.telegrams)
    (cache : y.cache = x.cache) : s'.serial = s.serial := by
  have slots : (fun t => (s'.tasks t).map Task.serial) = fun t => (s.tasks t).map Task.serial := by
    funext t
    rw [tasks]
    by_cases equal : t = task
    · rw [equal, Function.update_self, running, Option.map_some, Option.map_some, Task.serial, Task.serial, telegrams,
        cache]
    · rw [Function.update_of_ne equal]
  unfold State.serial
  rw [same, published, stored, slots]

theorem exclusive_comm (first second : Key) : exclusive first second = exclusive second first :=
  decide_eq_decide.mpr eq_comm

theorem subset_take (s : State) (task : ℕ) (key : Key) : s.locks ⊆ (s.take task key).locks :=
  fun _ mem => List.mem_cons_of_mem _ mem

theorem sound_insertLookup {pair : Pair} {left : List Pair} (sound : s.Sound engine)
    (running : s.tasks task = some (.running x)) (phase : x.phase = .inserting (pair :: left))
    (taken : insertLookup s task x pair left = some s') : s'.Sound engine ∧ s'.serial = s.serial := by
  have own := sound.sessions task x running
  obtain ⟨gone, split, made⟩ := own.inserted
  rw [phase, Phase.left] at split
  have split' : x.order = (gone ++ [pair]) ++ left := by
    rw [split, List.append_assoc, List.singleton_append]
  have nodup := own.order_nodup
  rw [split] at nodup
  have ungone : pair ∉ gone := fun mem => List.disjoint_of_nodup_append nodup mem List.mem_cons_self
  unfold insertLookup at taken
  dsimp only at taken
  split at taken
  · rename_i visible
    cases taken
    have known : pair ∈ s.db.lookup.rows.map LookupRow.pair := by
      rw [List.map_append, made] at visible
      exact (List.mem_append.mp visible).resolve_right fun mem => ungone (List.mem_of_mem_filter mem)
    refine ⟨sound.statement running rfl rfl sound.compatible (Nat.le_succ _) (List.Subset.refl _)
      ⟨own.order, ⟨gone ++ [pair], split', ?_⟩, own.ids, fun row mem => Nat.lt_succ_of_lt (own.low row mem),
        own.locked, trivial⟩
      fun row mem => .inr mem, serial_statement running rfl rfl rfl rfl rfl rfl⟩
    rw [List.filter_append, List.filter_singleton, made]
    simp [known]
  · rename_i invisible
    split at taken
    · rename_i granted
      cases taken
      rw [List.map_append, List.mem_append, not_or] at invisible
      have low : ∀ row ∈ s.db.lookup.rows ++ x.lookups, row.id < s.nextId := by
        intro row mem
        rcases List.mem_append.mp mem with old | new
        · exact sound.low row old
        · exact own.low row new
      refine ⟨sound.statement running rfl rfl (sound.compatible.grant exclusive_comm granted) (Nat.le_succ _)
        (subset_take s task _)
        ⟨own.order, ⟨gone ++ [pair], split', ?_⟩, ?_, fun row mem => ?_, fun row mem => ?_, trivial⟩
        fun row mem => ?_, serial_statement running rfl rfl rfl rfl rfl rfl⟩
      · rw [List.filter_append, List.filter_singleton, List.map_append, made]
        simp [invisible.1, LookupRow.pair]
      · rw [← List.append_assoc, List.map_append]
        refine own.ids.append (List.nodup_singleton _) (List.disjoint_singleton.mpr fun used => ?_)
        obtain ⟨row, mem, same⟩ := List.mem_map.mp used
        exact absurd (low row mem) (not_lt.mpr (le_of_eq same.symm))
      · rcases List.mem_append.mp mem with old | new
        · exact Nat.lt_succ_of_lt (own.low row old)
        · rw [List.mem_singleton.mp new]
          exact Nat.lt_succ_self _
      · rcases List.mem_append.mp mem with old | new
        · exact List.mem_cons_of_mem _ (own.locked row old)
        · rw [List.mem_singleton.mp new]
          exact List.mem_cons_self
      · rcases List.mem_append.mp mem with old | new
        · exact .inr old
        · rw [List.mem_singleton.mp new]
          exact .inl le_rfl
    · cases taken

theorem sound_selectLookups (sound : s.Sound engine) (running : s.tasks task = some (.running x))
    (phase : x.phase = .inserting [])
    (after : s.set task (some (.running { x with
      phase := .selected (resolveIn x.cache (s.db.lookup.rows ++ x.lookups) x.telegrams) })) = s') :
    s'.Sound engine ∧ s'.serial = s.serial := by
  have own := sound.sessions task x running
  obtain ⟨gone, split, made⟩ := own.inserted
  rw [phase] at split
  subst after
  refine ⟨sound.statement running rfl rfl sound.compatible le_rfl (List.Subset.refl _)
    ⟨own.order, ⟨gone, split, made⟩, own.ids, own.low, own.locked, ?_⟩ fun row mem => .inr mem,
    serial_statement running rfl rfl rfl rfl rfl rfl⟩
  -- every missing pair was gone through: it is committed, or its own
  refine resolved_resolveIn fun pair mem => ?_
  rw [← own.order.mem_iff, split, Phase.left, List.append_nil] at mem
  rw [List.map_append, List.mem_append, made, List.mem_filter, decide_eq_true_eq]
  exact (em _).imp_right fun absent => ⟨mem, absent⟩

theorem sound_insertTelegrams {prepared : List (Columns ℤ) × List (Columns ℤ)} (sound : s.Sound engine)
    (running : s.tasks task = some (.running x)) (phase : x.phase = .selected lookupIds)
    (made : prepare engine x.telegrams lookupIds = some prepared)
    (after : s.set task (some (.running { x with phase := .upserting lookupIds prepared.1 prepared.2 [] })) = s') :
    s'.Sound engine ∧ s'.serial = s.serial := by
  have own := sound.sessions task x running
  have seen := own.seen
  have inserted := own.inserted
  unfold Session.Seen at seen
  rw [phase] at seen inserted
  subst after
  exact ⟨sound.statement running rfl rfl sound.compatible le_rfl (List.Subset.refl _)
    ⟨own.order, inserted, own.ids, own.low, own.locked, seen, [], made, rfl, List.forall_mem_nil _⟩
    fun row mem => .inr mem, serial_statement running rfl rfl rfl rfl rfl rfl⟩

theorem sound_upsertRow {left : List (Columns ℤ)} (sound : s.Sound engine)
    (running : s.tasks task = some (.running x)) (phase : x.phase = .upserting lookupIds rows (row :: left) writes)
    (taken : upsertRow s task x lookupIds rows row left writes = some s') :
    s'.Sound engine ∧ s'.serial = s.serial := by
  have own := sound.sessions task x running
  have seen := own.seen
  have inserted := own.inserted
  unfold Session.Seen at seen
  rw [phase] at seen inserted
  obtain ⟨resolved, decided, prepared, rfl, held⟩ := seen
  unfold upsertRow at taken
  dsimp only at taken
  split at taken
  · rename_i granted
    cases taken
    have kept := subset_take s task (.summary row.destinationId)
    have further : Session.Seen engine s.db (s.take task (.summary row.destinationId)).locks task { x with
        phase := .upserting lookupIds rows left
          (decided.map (Write.of s.db.lastGa) ++ [Write.of s.db.lastGa row]) } := by
      refine ⟨resolved, decided ++ [row], ?_, ?_, fun other mem => ?_⟩
      · rw [prepared, List.append_assoc, List.singleton_append]
      · rw [List.map_append, List.map_singleton]
      · rcases List.mem_append.mp mem with old | last
        · exact kept (held other old)
        · rw [List.mem_singleton.mp last]
          exact List.mem_cons_self
    exact ⟨sound.statement running rfl rfl (sound.compatible.grant exclusive_comm granted) le_rfl kept
      ⟨own.order, inserted, own.ids, own.low, fun row mem => kept (own.locked row mem), further⟩
      fun row mem => .inr mem, serial_statement running rfl rfl rfl rfl rfl rfl⟩
  · cases taken

theorem sound_commit (sound : s.Sound engine) (running : s.tasks task = some (.running x))
    (phase : x.phase = .upserting lookupIds rows [] writes) :
    State.Sound engine { s.set task (some (.committed lookupIds)) with
      db := commit s.db x.lookups rows writes
      locks := release s.locks task
      stored := s.stored ++ x.telegrams } := by
  have own := sound.sessions task x running
  have still : ∀ other y, Function.update s.tasks task (some (.committed lookupIds)) other = some (.running y) →
      other ≠ task ∧ s.tasks other = some (.running y) := by
    intro other y running'
    by_cases equal : other = task
    · rw [equal, Function.update_self] at running'
      cases running'
    · rw [Function.update_of_ne equal] at running'
      exact ⟨equal, running'⟩
  refine ⟨sound.compatible.release task, fun row mem => ?_, fun other y running' => ?_,
    fun first y second z running' running'' => ?_⟩
  · have committed : (commit s.db x.lookups rows writes).lookup.rows = s.db.lookup.rows ++ x.lookups :=
      rows_commit own.ids own.pairs
    rcases List.mem_append.mp (committed ▸ mem) with old | new
    · exact sound.low row old
    · exact own.low row new
  · obtain ⟨apart, before⟩ := still other y running'
    exact (sound.sessions other y before).after own sound.compatible apart.symm phase
      (sound.apart other y task x before running apart.symm)
  · exact sound.apart first y second z (still first y running').2 (still second z running'').2

/-! ## Whole transactions -/

/-- What a statement is to the store for whole transactions, where a commit
gives new rows these ids. -/
def Event.atomic (ids : IdSource) : Event → List StoreEvent
  | .begin task telegrams _ => [.begin task telegrams]
  | .commit task => [.commit task ids]
  | .rollback task => [.rollback task]
  | .publish task => [.publish task]
  | .warm => [.warm]
  | .restart => [.restart]
  | .insertLookup _ | .selectLookups _ | .insertTelegrams _ | .upsertRow _ => []

theorem serial_tasks (s : State) (task : ℕ) (slot : Option Task) :
    (s.set task slot).serial.tasks = Function.update s.serial.tasks task (slot.map Task.serial) := by
  funext t
  show (Function.update s.tasks task slot t).map Task.serial = _
  by_cases equal : t = task
  · rw [equal, Function.update_self, Function.update_self]
  · rw [Function.update_of_ne equal, Function.update_of_ne equal]
    rfl

theorem serial_set (s : State) (task : ℕ) (slot : Option Task) : (s.set task slot).serial =
    { s.serial with tasks := Function.update s.serial.tasks task (slot.map Task.serial) } := by
  rw [← serial_tasks]
  rfl

/-- One step keeps the invariant, and shows. -/
theorem step_shows {event : Event} (sound : s.Sound engine) (taken : step engine s event = some s') :
    s'.Sound engine ∧ ∃ ids, EventMachine.run (Store.step engine) s.serial (event.atomic ids) = some s'.serial := by
  unfold step at taken
  cases event with
  | begin task telegrams order =>
    dsimp only at taken
    split at taken
    · rename_i first rest idle
      obtain ⟨same, taken⟩ := Option.ite_none_right_eq_some.mp taken
      cases taken
      have free : s.serial.tasks task = none := congrArg (Option.map Task.serial) idle
      refine ⟨sound.proceed rfl rfl sound.compatible le_rfl (fun _ _ _ mem => mem) (fun x slot => ?_)
        fun x slot row mem => ?_, .sqlite, EventMachine.run_cons.mpr ⟨_, ?_, rfl⟩⟩
      · cases slot
        exact ⟨same, ⟨[], rfl, rfl⟩, by simpa using s.db.lookup.ids_unique, List.forall_mem_nil _,
          List.forall_mem_nil _, trivial⟩
      · cases slot
        cases mem
      · unfold Store.step
        dsimp only
        rw [free]
        let x : Session := { telegrams := first :: rest, cache := s.cache, order, phase := .inserting order }
        exact congrArg some (serial_set s task (some (.running x))).symm
    · cases taken
  | insertLookup task =>
    dsimp only at taken
    split at taken
    · rename_i x running
      split at taken
      · rename_i pair left phase
        obtain ⟨after, same⟩ := sound_insertLookup sound running phase taken
        exact ⟨after, .sqlite, congrArg some same.symm⟩
      · cases taken
    · cases taken
  | selectLookups task =>
    dsimp only at taken
    split at taken
    · rename_i x running
      split at taken
      · rename_i phase
        obtain ⟨after, same⟩ := sound_selectLookups sound running phase (Option.some.inj taken)
        exact ⟨after, .sqlite, congrArg some same.symm⟩
      · cases taken
    · cases taken
  | insertTelegrams task =>
    dsimp only at taken
    split at taken
    · rename_i x running
      split at taken
      · rename_i lookupIds phase
        obtain ⟨prepared, made, set⟩ := Option.map_eq_some_iff.mp taken
        obtain ⟨after, same⟩ := sound_insertTelegrams sound running phase made set
        exact ⟨after, .sqlite, congrArg some same.symm⟩
      · cases taken
    · cases taken
  | upsertRow task =>
    dsimp only at taken
    split at taken
    · rename_i x running
      split at taken
      · rename_i lookupIds rows row left writes phase
        obtain ⟨after, same⟩ := sound_upsertRow sound running phase taken
        exact ⟨after, .sqlite, congrArg some same.symm⟩
      · cases taken
    · cases taken
  | commit task =>
    dsimp only at taken
    split at taken
    · rename_i x running
      split at taken
      · rename_i lookupIds rows writes phase
        cases taken
        refine ⟨sound_commit sound running phase, ?_⟩
        obtain ⟨ids, statements, ran⟩ := commit_storeMany (sound.sessions task x running) phase
        have opened : s.serial.tasks task = some (.open_ x.telegrams x.cache) :=
          congrArg (Option.map Task.serial) running
        refine ⟨ids, EventMachine.run_cons.mpr ⟨_, ?_, rfl⟩⟩
        unfold Store.step
        dsimp only
        rw [opened]
        dsimp only
        rw [show s.serial.db = s.db from rfl, ran]
        exact congrArg (fun t : Store => some { t with
          db := commit s.db x.lookups rows writes
          stored := s.stored ++ x.telegrams }) (serial_set s task (some (.committed lookupIds))).symm
      · cases taken
    · cases taken
  | rollback task =>
    dsimp only at taken
    split at taken
    · rename_i x running
      cases taken
      have opened : s.serial.tasks task = some (.open_ x.telegrams x.cache) := congrArg (Option.map Task.serial) running
      refine ⟨sound.proceed rfl rfl (sound.compatible.release task) le_rfl (fun other key apart mem => ?_)
        (fun x slot => ?_) fun x slot => ?_, .sqlite, EventMachine.run_cons.mpr ⟨_, ?_, rfl⟩⟩
      · exact mem_release.mpr ⟨mem, apart⟩
      · cases slot
      · cases slot
      · unfold Store.step
        dsimp only
        rw [opened]
        exact congrArg some (serial_set s task none).symm
    · cases taken
  | publish task =>
    dsimp only at taken
    split at taken
    · rename_i lookupIds committed
      cases taken
      have ended : s.serial.tasks task = some (.committed lookupIds) := congrArg (Option.map Task.serial) committed
      refine ⟨sound.proceed rfl rfl sound.compatible le_rfl (fun _ _ _ mem => mem) (fun x slot => ?_)
        fun x slot => ?_, .sqlite, EventMachine.run_cons.mpr ⟨_, ?_, rfl⟩⟩
      · cases slot
      · cases slot
      · unfold Store.step
        dsimp only
        rw [ended]
        exact congrArg some (congrArg (fun t : Store => { t with cache := s.cache.update lookupIds })
          (serial_set s task none).symm)
    · cases taken
  | warm =>
    cases taken
    exact ⟨⟨sound.compatible, sound.low, sound.sessions, sound.apart⟩, .sqlite, rfl⟩
  | restart =>
    cases taken
    exact ⟨⟨.nil, sound.low, fun _ _ running => (by cases running), fun _ _ _ _ running => (by cases running)⟩,
      .sqlite, rfl⟩

theorem start_sound (engine : Engine) : State.Sound engine {} := by
  refine ⟨.nil, List.forall_mem_nil _, fun task x running => ?_, fun task x other y running => ?_⟩
  · cases running
  · cases running

/-- A run shows as a run of the store for whole transactions. -/
theorem run_shows {events : List Event} (sound : s.Sound engine)
    (ran : EventMachine.run (step engine) s events = some s') :
    ∃ shown, List.Forall₂ (fun event steps => ∃ ids, steps = event.atomic ids) events shown ∧
      EventMachine.run (Store.step engine) s.serial shown.flatten = some s'.serial := by
  refine EventMachine.run_simulates (v := State.serial)
    (fun _ _ _ sound taken => (step_shows sound taken).1) ?_ sound ran
  intro s event next sound taken
  obtain ⟨ids, shows⟩ := (step_shows sound taken).2
  exact ⟨event.atomic ids, ⟨ids, rfl⟩, shows⟩

/-- **Concurrent calls are serialised.** However the statements of any number
of `store_many` calls interleave, with calls that wait, fail and are rolled
back: the database, the cache and the calls under way are those of a run in
which every transaction takes place at once, at the moment of its commit. -/
theorem statements_serialise {events : List Event} (ran : run engine events = some s) :
    ∃ shown, List.Forall₂ (fun event steps => ∃ ids, steps = event.atomic ids) events shown ∧
      Store.run engine shown.flatten = some s.serial := by
  obtain ⟨shown, related, atomic⟩ := run_shows (start_sound engine) ran
  exact ⟨shown, related, atomic⟩

/-- A server in UTC. -/
def postgresEngine : Engine := ⟨.postgres, fun _ _ _ => 0, sampleReals⟩

/-- Two devices write to one group address. -/
def fromDevices : List StoredTelegram :=
  [Writers.telegramTo "1/2/3", { Writers.telegramTo "1/2/3" with source := "1.1.2", timestamp := .ofMicros 1000000 }]

/-- The two sets are gone through in different orders, and the second call waits
for the destination until the first has committed. -/
def twoCalls : List Event :=
  [.begin 0 (fromDevices.take 1) (pairs (fromDevices.take 1)).reverse,
    .begin 1 (fromDevices.drop 1) (pairs (fromDevices.drop 1)), .insertLookup 1, .insertLookup 0] ++
    List.replicate 5 (.insertLookup 0) ++
    [.selectLookups 0, .insertTelegrams 0, .upsertRow 0, .commit 0] ++
    List.replicate 5 (.insertLookup 1) ++
    [.selectLookups 1, .insertTelegrams 1, .upsertRow 1, .commit 1, .publish 1, .publish 0]

/-- Both calls end, the first one first. -/
theorem twoCalls_end : ∃ s, run postgresEngine twoCalls = some s ∧
    s.stored.map (fun t => (t.source, t.timestamp.tzinfo)) =
      [("1.1.1", some (.fixed 0)), ("1.1.2", some (.fixed 0))] ∧ s.db.lastGa.length = 1 := by
  have ends : ((run postgresEngine twoCalls).map fun s =>
      (s.stored.map fun t => (t.source, t.timestamp.tzinfo), s.db.lastGa.length)) =
      some ([("1.1.1", some (.fixed 0)), ("1.1.2", some (.fixed 0))], 1) := by decide +kernel
  obtain ⟨s, ran, both⟩ := Option.map_eq_some_iff.mp ends
  obtain ⟨stored, one⟩ := Prod.mk.inj both
  exact ⟨s, ran, stored, one⟩

theorem twoCalls_serialise :
    ∃ s shown, run postgresEngine twoCalls = some s ∧ s.stored.map StoredTelegram.source = ["1.1.1", "1.1.2"] ∧
      List.Forall₂ (fun event steps => ∃ ids, steps = event.atomic ids) twoCalls shown ∧
      Store.run postgresEngine shown.flatten = some s.serial := by
  obtain ⟨s, ran, stored, _⟩ := twoCalls_end
  obtain ⟨shown, related, atomic⟩ := statements_serialise ran
  have sources := congrArg (List.map Prod.fst) stored
  rw [List.map_map] at sources
  exact ⟨s, shown, ran, sources, related, atomic⟩

theorem keeper_run {events : List StoreEvent} {store after : Store}
    (ran : EventMachine.run (Store.step engine) store events = some after) :
    EventMachine.run (Keeper.step engine) { store } (events.map KeeperEvent.store) = some { store := after } := by
  induction events generalizing store with
  | nil =>
    cases ran
    rfl
  | cons event events ih =>
    obtain ⟨next, taken, later⟩ := EventMachine.run_cons.mp ran
    refine EventMachine.run_cons.mpr ⟨{ store := next }, ?_, ih later⟩
    rw [Keeper.step, taken]
    rfl

/-- **No interleaving loses a row or a last value.** The rows are those of the
calls that have committed, in the order of the commits, under the ids of their
own strings, and the last values are the newest of them. -/
theorem interleaved_calls_kept {events : List Event} (ran : run engine events = some s) :
    List.Forall₂ (Stores engine s.db.lookup) (s.db.telegrams.map TelegramRow.toColumns) s.stored ∧
      s.cache.Truthful s.db.lookup ∧
      (Steady engine.tzdb s.stored → s.db.lastGa =
        absorbAll Columns.destinationId Columns.timestamp [] (s.db.telegrams.map TelegramRow.toColumns)) := by
  obtain ⟨shown, _, atomic⟩ := run_shows (start_sound engine) ran
  have kept := run_kept (keeper_run atomic)
  exact ⟨kept.interned.telegrams, kept.interned.cache, kept.summarised⟩

theorem twoCalls_kept :
    ∃ s, run postgresEngine twoCalls = some s ∧ s.db.lastGa.length = 1 ∧ s.db.lastGa =
      absorbAll Columns.destinationId Columns.timestamp [] (s.db.telegrams.map TelegramRow.toColumns) := by
  obtain ⟨s, ran, stored, one⟩ := twoCalls_end
  have steady : Steady postgresEngine.tzdb s.stored := by
    refine steady_of_fixed fun t mem => ⟨0, ?_⟩
    have listed := List.mem_map_of_mem (f := fun t : StoredTelegram => (t.source, t.timestamp.tzinfo)) mem
    rw [stored] at listed
    simp only [List.mem_cons, Prod.mk.injEq, List.not_mem_nil, or_false] at listed
    exact listed.elim And.right And.right
  exact ⟨s, ran, one, (interleaved_calls_kept ran).2.2 steady⟩

end KnxTelegramStore.Postgres.ReadCommitted
