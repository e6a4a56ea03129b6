import KnxTelegramStore.Postgres.BackfillPasses

/-!
That the starts which backfill at the same time get along with each other and
with the stores in operation. What a backfill commits is what the whole of it
does, in one piece, to the rows that are there when it commits
(`backfills_are_atomic`); so every row is corrected once, and one written
after the flags were set never is (`rows_settled`). No backfill waits for
another, nor for a writer or a reader (`starts_never_wait`).
-/
namespace KnxTelegramStore.Postgres.Backfill
open EventMachine LockTable

variable {legacy : Bool} {db db' : Db} {s s' : State} {x x' : Start} {t u c : ℕ}
variable {event : Event} {events : List Event} {locks : List (Session × Lock)}

/-! ## The transactions side by side -/

/-- The backfill is under way: it holds the advisory lock. -/
def Pc.underWay : Pc → Bool
  | .unstarted | .advisoryLock | .ended _ => false
  | _ => true

/-- Whether a start has the relation lock. -/
def hasRelationLock (locks : List (Session × Lock)) (t : ℕ) : Bool :=
  decide ((Session.start t, Lock.telegrams .shareRowExclusive) ∈ locks ∨
    (Session.start t, Lock.telegrams .accessExclusive) ∈ locks)

/-- What holds between all sessions. -/
structure Inv (legacy : Bool) (s : State) : Prop where
  compatible : Compatible Lock.conflicts s.locks
  clients : ∀ c lock, (.client c, lock) ∈ s.locks →
    lock = .telegrams .accessShare ∨ lock = .telegrams .rowExclusive
  writes : ∀ c, s.clients c = {} ∨ (.client c, .telegrams .rowExclusive) ∈ s.locks
  library : ∀ c, ∀ cells ∈ (s.clients c).inserts, cells.valueLegacyFloat = none
  starts : ∀ t lock, (.start t, lock) ∈ s.locks → (s.starts t).pc.underWay = true
  advisory : ∀ t, (s.starts t).pc.underWay = true → (.start t, .advisory) ∈ s.locks
  counted : ∀ t, (s.starts t).pc ≠ .ended .mismatch
  phase : ∀ t, Phase legacy (hasRelationLock s.locks t) s.db (s.starts t)

theorem Inv.init (legacy : Bool) (db : Db) : Inv legacy { db } where
  compatible := .nil
  clients _ _ := nofun
  writes _ := .inl rfl
  library _ _ := nofun
  starts _ _ := nofun
  advisory _ := nofun
  counted _ := nofun
  phase _ := ⟨rfl, rfl⟩

/-- One backfill is under way at a time. -/
theorem Inv.alone (inv : Inv legacy s) (first : (s.starts t).pc.underWay = true)
    (second : (s.starts u).pc.underWay = true) : u = t := by
  have same := inv.compatible.holder rfl (inv.advisory t first) (inv.advisory u second)
  exact Session.start.inj same

/-- The relation lock keeps those who write out. -/
theorem Inv.excludes (inv : Inv legacy s) (held : hasRelationLock s.locks t = true) (c : ℕ) : s.clients c = {} := by
  refine (inv.writes c).resolve_right fun writing => ?_
  have apart : Session.client c ≠ .start t := nofun
  rcases of_decide_eq_true held with mine | mine
  · have clash := inv.compatible _ _ mine _ _ writing apart
    cases clash
  · have clash := inv.compatible _ _ mine _ _ writing apart
    cases clash

theorem hasRelationLock_congr (same : ∀ lock, (Session.start t, lock) ∈ locks ↔ (Session.start t, lock) ∈ s.locks) :
    hasRelationLock locks t = hasRelationLock s.locks t := by
  simp only [hasRelationLock, same]

/-- A start goes on under the locks it has now; the others have theirs. -/
theorem Inv.moves (inv : Inv legacy s) (x' : Start) (compatible : Compatible Lock.conflicts locks)
    (others : ∀ session lock, session ≠ .start t → ((session, lock) ∈ locks ↔ (session, lock) ∈ s.locks))
    (own : ∀ lock, (.start t, lock) ∈ locks → x'.pc.underWay = true)
    (advisory : x'.pc.underWay = true → (.start t, .advisory) ∈ locks) (counted : x'.pc ≠ .ended .mismatch)
    (phase : Phase legacy (hasRelationLock locks t) s.db x') : Inv legacy ({ s with locks }.setStart t x') := by
  have still {u : ℕ} (other : u ≠ t) : ({ s with locks }.setStart t x').starts u = s.starts u :=
    Function.update_of_ne other ..
  have moved : ({ s with locks }.setStart t x').starts t = x' := Function.update_self ..
  have apart {u : ℕ} (other : u ≠ t) : Session.start u ≠ .start t := fun same => other (Session.start.inj same)
  have client (c : ℕ) (lock : Lock) : (Session.client c, lock) ∈ locks ↔ (Session.client c, lock) ∈ s.locks :=
    others _ _ nofun
  refine ⟨compatible, fun c lock mem => ?_, fun c => ?_, inv.library, fun u lock mem => ?_, fun u under => ?_,
    fun u => ?_, fun u => ?_⟩
  · exact inv.clients c lock ((client c lock).mp mem)
  · exact (inv.writes c).imp_right (client c _).mpr
  · by_cases same : u = t
    · subst same
      rw [moved]
      exact own lock mem
    · rw [still same]
      exact inv.starts u lock ((others _ _ (apart same)).mp mem)
  · by_cases same : u = t
    · subst same
      rw [moved] at under
      exact advisory under
    · rw [still same] at under
      exact (others _ _ (apart same)).mpr (inv.advisory u under)
  · by_cases same : u = t
    · subst same
      rw [moved]
      exact counted
    · rw [still same]
      exact inv.counted u
  · by_cases same : u = t
    · subst same
      rw [moved]
      exact phase
    · rw [still same]
      show Phase legacy (hasRelationLock locks u) s.db (s.starts u)
      rw [hasRelationLock_congr fun lock => others _ _ (apart same)]
      exact inv.phase u

/-- The transaction of a start ends without a trace. -/
theorem Inv.finish (inv : Inv legacy s) (t : ℕ) {result : Result} (counted : result ≠ .mismatch) :
    Inv legacy (s.finish t result) := by
  apply inv.moves
  · exact inv.compatible.release _
  · exact fun session lock other => mem_release.trans (and_iff_left other)
  · exact fun lock mem => absurd rfl (mem_release.mp mem).2
  · exact nofun
  · exact fun same => counted (Pc.ended.inj same)
  · trivial

/-- What is committed changes, but not under a start that has the relation
lock, and nothing is undone. -/
theorem Inv.commits (inv : Inv legacy s) (still : ∀ u, hasRelationLock s.locks u = true → db' = s.db)
    (unwrapped : s.db.flags.dataUnwrapped = true → db'.flags.dataUnwrapped = true)
    (set : s.db.flags = ⟨true, true⟩ → db'.flags = ⟨true, true⟩) (done : Done legacy s.db → Done legacy db') :
    Inv legacy { s with db := db' } where
  compatible := inv.compatible
  clients := inv.clients
  writes := inv.writes
  library := inv.library
  starts := inv.starts
  advisory := inv.advisory
  counted := inv.counted
  phase u := (inv.phase u).frame (fun held => ⟨still u held, held⟩) unwrapped set done

theorem State.take_some {session : Session} {lock : Lock} (taken : s.take session lock = some s') :
    grantable Lock.conflicts s.locks session lock = true ∧ s' = { s with locks := (session, lock) :: s.locks } := by
  unfold take at taken
  split at taken
  · rename_i granted
    exact ⟨granted, (Option.some.inj taken).symm⟩
  · cases taken

/-! ## What a start does -/

namespace Start

theorem unwrapPass_underWay (x : Start) : x.unwrapPass.underWay = true := by
  unfold unwrapPass
  split <;> rfl

theorem floatPass_underWay (legacy : Bool) (x : Start) : (x.floatPass legacy).underWay = true := by
  unfold floatPass
  split
  · split
    · rfl
    · rfl
    · exact x.unwrapPass_underWay
  · exact x.unwrapPass_underWay

theorem nullsPass_underWay (legacy : Bool) (x : Start) : (x.nullsPass legacy).underWay = true := by
  unfold nullsPass
  split
  · exact x.floatPass_underWay legacy
  · rfl

theorem optimistic_underWay (legacy : Bool) (x : Start) : (x.optimistic legacy).underWay = true := by
  unfold optimistic
  split
  · rfl
  · split
    · rfl
    · exact x.nullsPass_underWay legacy

/-- No statement ends the transaction. -/
theorem statement_underWay (under : x.pc.underWay = true) (done : x.statement legacy db = .ok x') :
    x'.pc.underWay = true := by
  unfold statement at done
  split at done
  case h_1 => cases done; rfl
  case h_2 =>
    split at done
    · cases done
      exact nullsPass_underWay legacy _
    · cases done
      exact optimistic_underWay legacy _
  case h_3 =>
    cases done
    dsimp only
    split
    · rfl
    · exact nullsPass_underWay legacy _
  case h_4 =>
    cases done
    dsimp only
    split <;> rfl
  case h_5 => cases done; rfl
  case h_6 =>
    cases done
    exact floatPass_underWay legacy x
  case h_7 =>
    cases done
    dsimp only
    split
    · rfl
    · exact unwrapPass_underWay x
  case h_8 =>
    cases done
    exact unwrapPass_underWay x
  case h_9 =>
    cases done
    dsimp only
    split <;> rfl
  case h_10 =>
    split at done
    · cases done
    · cases done
      rfl
  case h_11 => cases done; rfl
  case h_12 =>
    cases done
    exact under

end Start

/-- How the next statement of a start ends. -/
inductive Nexts (legacy : Bool) (s : State) (t : ℕ) : State → Prop
  | advisory : (s.starts t).pc = .advisoryLock → grantable Lock.conflicts s.locks (.start t) .advisory = true →
      Nexts legacy s t
        ({ s with locks := (.start t, .advisory) :: s.locks }.setStart t { s.starts t with pc := .readUnwrapped false })
  | relation (mode : LockMode) : (s.starts t).pc = .relationLock → mode = .shareRowExclusive ∨ mode = .accessExclusive →
      grantable Lock.conflicts s.locks (.start t) (.telegrams mode) = true →
      Nexts legacy s t ({ s with locks := (.start t, .telegrams mode) :: s.locks }.setStart t
        { s.starts t with pc := .readUnwrapped true })
  | refused (result : Result) : (s.starts t).pc ≠ .committing → result = .busy ∨ result = .lockNotAvailable →
      Nexts legacy s t (s.finish t result)
  | commits : (s.starts t).pc = .committing →
      Nexts legacy s t ({ s with db := (s.starts t).commit s.db }.finish t .committed)
  | executes (locks : List (Session × Lock)) (x' : Start) : (s.starts t).pc.underWay = true →
      (s.starts t).pc ≠ .committing →
      (locks = s.locks ∨ ∃ lock, grantable Lock.conflicts s.locks (.start t) lock = true ∧
        locks = (.start t, lock) :: s.locks) →
      (s.starts t).statement legacy s.db = .ok x' → Nexts legacy s t ({ s with locks }.setStart t x')

theorem Inv.nexts (inv : Inv legacy s) (taken : s.next legacy t = some s') : Nexts legacy s t s' := by
  obtain ⟨x', ran, _⟩ := (inv.phase t).statement
  unfold State.next at taken
  dsimp only at taken
  split at taken
  · cases taken
  · cases taken
  · rename_i at_
    split at taken
    · rename_i got
      obtain ⟨granted, rfl⟩ := State.take_some got
      obtain rfl := Option.some.inj taken
      exact .advisory at_ granted
    · obtain rfl := Option.some.inj taken
      refine .refused _ ?_ (.inl rfl)
      intro committing
      rw [at_] at committing
      cases committing
  · rename_i at_
    split at taken
    · rename_i got
      obtain ⟨granted, rfl⟩ := State.take_some got
      obtain rfl := Option.some.inj taken
      refine .relation _ at_ ?_ granted
      unfold Start.lockMode
      split
      · exact .inl rfl
      · exact .inr rfl
    · obtain rfl := Option.some.inj taken
      refine .refused _ ?_ (.inr rfl)
      intro committing
      rw [at_] at committing
      cases committing
  · rename_i at_
    obtain rfl := Option.some.inj taken
    exact .commits at_
  · rename_i unstarted ended advisory relation committing
    have under : (s.starts t).pc.underWay = true := by
      cases at_ : (s.starts t).pc <;> first | rfl | skip
      · exact absurd at_ unstarted
      · exact absurd at_ advisory
      · exact absurd at_ (ended _)
    obtain ⟨waited, got, finished⟩ := Option.map_eq_some_iff.mp taken
    have db : waited.db = s.db ∧ waited = { s with locks := waited.locks } ∧
        (waited.locks = s.locks ∨ ∃ lock, grantable Lock.conflicts s.locks (.start t) lock = true ∧
          waited.locks = (.start t, lock) :: s.locks) := by
      split at got
      · rename_i lock _
        obtain ⟨granted, rfl⟩ := State.take_some got
        exact ⟨rfl, rfl, .inr ⟨lock, granted, rfl⟩⟩
      · cases got
        exact ⟨rfl, rfl, .inl rfl⟩
    obtain ⟨same, eq, locks⟩ := db
    rw [same, ran] at finished
    rw [← finished, eq]
    exact .executes waited.locks x' under committing locks ran

/-- A start that commits leaves what the whole backfill makes of the table. -/
theorem Inv.committed (inv : Inv legacy s) (at_ : (s.starts t).pc = .committing) :
    (s.starts t).commit s.db = s.db.backfill legacy := by
  have phase := inv.phase t
  simp only [Phase, at_] at phase
  rcases phase with ⟨_, sees⟩ | ⟨pristine, done⟩
  · exact sees
  · rw [pristine.commit, done.backfill]

theorem underWay_of_hasRelationLock (inv : Inv legacy s) (held : hasRelationLock s.locks t = true) :
    (s.starts t).pc.underWay = true := by
  rcases of_decide_eq_true held with mine | mine <;> exact inv.starts t _ mine

theorem Inv.next (inv : Inv legacy s) (nexts : Nexts legacy s t s') : Inv legacy s' := by
  have others (lock : Lock) (session : Session) (held : Lock) (other : session ≠ .start t) :
      (session, held) ∈ (Session.start t, lock) :: s.locks ↔ (session, held) ∈ s.locks :=
    List.mem_cons.trans (or_iff_right fun same => other (Prod.mk.inj same).1)
  have keeps (lock : Lock) (held : hasRelationLock s.locks t = true) :
      hasRelationLock ((Session.start t, lock) :: s.locks) t = true :=
    decide_eq_true ((of_decide_eq_true held).imp (List.mem_cons_of_mem _) (List.mem_cons_of_mem _))
  have phase := inv.phase t
  cases nexts with
  | advisory at_ granted =>
    simp only [Phase, at_] at phase
    refine inv.moves _ (inv.compatible.grant Lock.conflicts_symm granted) (fun session lock => others _ session lock)
      (fun _ _ => rfl) (fun _ => List.mem_cons_self) ?_ ⟨phase.updated, phase.recorded⟩
    intro ended
    cases ended
  | relation mode at_ strong granted =>
    simp only [Phase, at_] at phase
    refine inv.moves _ (inv.compatible.grant Lock.conflicts_symm granted) (fun session lock => others _ session lock)
      (fun _ _ => rfl) (fun _ => List.mem_cons_of_mem _ (inv.advisory t ?_)) ?_
      ⟨⟨phase.updated, phase.recorded⟩, ?_⟩
    · rw [at_]
      rfl
    · intro ended
      cases ended
    · apply decide_eq_true
      rcases strong with rfl | rfl
      · exact .inl List.mem_cons_self
      · exact .inr List.mem_cons_self
  | refused result _ cause =>
    apply inv.finish t
    intro mismatch
    rcases cause with rfl | rfl <;> cases mismatch
  | executes locks x' under _ granted ran =>
    obtain ⟨x, done, after⟩ := phase.statement
    obtain rfl : x = x' := Except.ok.inj (done.symm.trans ran)
    have still := Start.statement_underWay under done
    have counted : x.pc ≠ .ended .mismatch := fun ended => by
      rw [ended] at still
      cases still
    rcases granted with rfl | ⟨lock, granted, rfl⟩
    · exact inv.moves x inv.compatible (fun _ _ _ => Iff.rfl) (fun _ _ => still) (fun _ => inv.advisory t under) counted
        after
    · refine inv.moves x (inv.compatible.grant Lock.conflicts_symm granted) (fun session lock => others _ session lock)
        (fun _ _ => still) (fun _ => List.mem_cons_of_mem _ (inv.advisory t under)) counted ?_
      exact after.frame (fun held => ⟨rfl, keeps lock held⟩) id id id
  | commits at_ =>
    have under : (s.starts t).pc.underWay = true := by rw [at_]; rfl
    show Inv legacy { s.finish t .committed with db := (s.starts t).commit s.db }
    rw [inv.committed at_]
    have counted : Result.committed ≠ .mismatch := by decide
    apply Inv.commits (inv.finish t counted)
    · intro u held
      -- the locks of the start are released, and nobody else has this one
      have other : u ≠ t := by
        rintro rfl
        rcases of_decide_eq_true held with mine | mine <;> exact absurd rfl (mem_release.mp mine).2
      have before : hasRelationLock s.locks u = true :=
        decide_eq_true ((of_decide_eq_true held).imp (fun mine => (mem_release.mp mine).1) fun mine =>
          (mem_release.mp mine).1)
      exact absurd (inv.alone under (underWay_of_hasRelationLock inv before)) other
    · exact fun _ => congrArg Flags.dataUnwrapped (s.db.flags_backfill legacy)
    · exact fun _ => s.db.flags_backfill legacy
    · intro done
      replace done : Done legacy s.db := done
      rwa [done.backfill]

/-! ## What the others do -/

theorem Db.write_nil (db : Db) : db.write {} = db := by
  refine Db.ext ?_ rfl rfl
  funext id
  show (if id < db.inserted then if id ∈ [] then none else db.rows id else none) = db.rows id
  split
  · rfl
  · exact (db.bounded id (by omega)).symm

theorem Done.write (done : Done legacy db) (client : Client)
    (library : ∀ cells ∈ client.inserts, cells.valueLegacyFloat = none) : Done legacy (db.write client) := by
  refine ⟨done.1, fun exists_ id row present => ?_⟩
  replace present : (if id < db.inserted then if id ∈ client.deletes then none else db.rows id
    else client.inserts[id - db.inserted]?.map fun cells => ⟨cells, cells, db.flags⟩) = some row := present
  split at present
  · split at present
    · cases present
    · exact done.2 exists_ id row present
  · obtain ⟨cells, found, rfl⟩ := Option.map_eq_some_iff.mp present
    have empty := library cells (List.mem_of_getElem? found)
    simp [moveFloats, empty]

theorem Inv.write (inv : Inv legacy s) (c : ℕ) : Inv legacy { s with db := s.db.write (s.clients c) } := by
  apply inv.commits
  · intro u held
    rw [inv.excludes held c, Db.write_nil]
  · exact id
  · exact id
  · exact fun done => done.write _ (inv.library c)

theorem Inv.asks (inv : Inv legacy s) {lock : Lock}
    (granted : grantable Lock.conflicts s.locks (.client c) lock = true)
    (mode : lock = .telegrams .accessShare ∨ lock = .telegrams .rowExclusive) :
    Inv legacy { s with locks := (.client c, lock) :: s.locks } := by
  have start (t : ℕ) (held : Lock) : (Session.start t, held) ∈ (Session.client c, lock) :: s.locks ↔
      (Session.start t, held) ∈ s.locks := List.mem_cons.trans (or_iff_right fun same => by cases (Prod.mk.inj same).1)
  refine ⟨inv.compatible.grant Lock.conflicts_symm granted, fun d held mem => ?_, fun d => ?_, inv.library,
    fun t held mem => ?_, fun t under => ?_, inv.counted, fun t => ?_⟩
  · rcases List.mem_cons.mp mem with same | older
    · obtain rfl : held = lock := (Prod.mk.inj same).2
      exact mode
    · exact inv.clients d held older
  · exact (inv.writes d).imp_right (List.mem_cons_of_mem _)
  · exact inv.starts t held ((start t held).mp mem)
  · exact (start t _).mpr (inv.advisory t under)
  · show Phase legacy (hasRelationLock ((Session.client c, lock) :: s.locks) t) s.db (s.starts t)
    rw [hasRelationLock_congr (start t)]
    exact inv.phase t

theorem Inv.setClient (inv : Inv legacy s) {client : Client} (held : (.client c, .telegrams .rowExclusive) ∈ s.locks)
    (library : ∀ cells ∈ client.inserts, cells.valueLegacyFloat = none) : Inv legacy (s.setClient c client) := by
  refine ⟨inv.compatible, inv.clients, fun d => ?_, fun d => ?_, inv.starts, inv.advisory, inv.counted, inv.phase⟩
  · by_cases same : d = c
    · subst same
      exact .inr held
    · show Function.update s.clients c client d = {} ∨ _
      rw [Function.update_of_ne same]
      exact inv.writes d
  · show ∀ cells ∈ (Function.update s.clients c client d).inserts, _
    by_cases same : d = c
    · subst same
      rw [Function.update_self]
      exact library
    · rw [Function.update_of_ne same]
      exact inv.library d

theorem Inv.leaves (inv : Inv legacy s) (c : ℕ) : Inv legacy ((s.unlock (.client c)).setClient c {}) := by
  have start (t : ℕ) (held : Lock) : (Session.start t, held) ∈ release s.locks (.client c) ↔
      (Session.start t, held) ∈ s.locks := mem_release.trans (and_iff_left nofun)
  refine ⟨inv.compatible.release _, fun d held mem => inv.clients d held (mem_release.mp mem).1, fun d => ?_,
    fun d => ?_, fun t held mem => inv.starts t held ((start t held).mp mem),
    fun t under => (start t _).mpr (inv.advisory t under), inv.counted, fun t => ?_⟩
  · show Function.update s.clients c {} d = {} ∨ _
    by_cases same : d = c
    · subst same
      exact .inl (Function.update_self ..)
    · rw [Function.update_of_ne same]
      exact (inv.writes d).imp_right fun mem => mem_release.mpr ⟨mem, fun eq => same (Session.client.inj eq)⟩
  · show ∀ cells ∈ (Function.update s.clients c {} d).inserts, _
    by_cases same : d = c
    · subst same
      rw [Function.update_self]
      exact nofun
    · rw [Function.update_of_ne same]
      exact inv.library d
  · show Phase legacy (hasRelationLock (release s.locks (.client c)) t) s.db (s.starts t)
    rw [hasRelationLock_congr (start t)]
    exact inv.phase t

/-! ## Runs -/

/-- What a step commits. -/
inductive Change where
  | write (client : Client)
  | backfill (t : ℕ)

def Change.apply (legacy : Bool) (db : Db) : Change → Db
  | .write client => db.write client
  | .backfill _ => db.backfill legacy

def Change.start? : Change → Option ℕ
  | .write _ => none
  | .backfill t => some t

def State.change (s : State) : Event → Option Change
  | .commit c => some (.write (s.clients c))
  | .next t => if (s.starts t).pc = .committing then some (.backfill t) else none
  | _ => none

/-- The commits of a run, one after the other. -/
def commits (legacy : Bool) : State → List Event → List Change
  | _, [] => []
  | s, event :: rest => (s.change event).toList ++ ((step legacy s event).map (commits legacy · rest)).getD []

/-- What a step commits, and which start has committed by it. -/
structure Commits (legacy : Bool) (s : State) (change : Option Change) (s' : State) : Prop where
  db : s'.db = change.toList.foldl (Change.apply legacy) s.db
  starts : ∀ u, (s'.starts u).pc = .ended .committed ↔ (s.starts u).pc = .ended .committed ∨ change = some (.backfill u)
  once : ∀ u, change = some (.backfill u) → (s.starts u).pc ≠ .ended .committed

theorem Commits.nothing (db : s'.db = s.db)
    (starts : ∀ u, (s'.starts u).pc = .ended .committed ↔ (s.starts u).pc = .ended .committed) :
    Commits legacy s none s' := ⟨db, fun u => (starts u).trans (or_iff_left nofun).symm, nofun⟩

/-- A start has gone on from where it had not committed to where it has not. -/
theorem Commits.moved (before : (s.starts t).pc ≠ .ended .committed) (after : (s'.starts t).pc ≠ .ended .committed)
    (db : s'.db = s.db) (others : ∀ u, u ≠ t → s'.starts u = s.starts u) : Commits legacy s none s' := by
  apply Commits.nothing db
  intro u
  by_cases same : u = t
  · subst same
    exact iff_of_false after before
  · rw [others u same]

theorem State.setStart_self (s : State) (t : ℕ) (x : Start) : (s.setStart t x).starts t = x := Function.update_self ..

theorem State.setStart_ne (s : State) (x : Start) (other : u ≠ t) : (s.setStart t x).starts u = s.starts u :=
  Function.update_of_ne other ..

theorem State.next_started (taken : s.next legacy t = some s') : (s.starts t).pc ≠ .ended .committed := by
  intro at_
  simp only [State.next, at_] at taken
  cases taken

theorem Inv.step_next (inv : Inv legacy s) (taken : s.next legacy t = some s') :
    Commits legacy s (s.change (.next t)) s' := by
  have running := State.next_started taken
  have unchanged (open_ : (s.starts t).pc ≠ .committing) : s.change (.next t) = none := if_neg open_
  cases inv.nexts taken with
  | advisory at_ =>
    rw [unchanged (by rw [at_]; nofun)]
    refine .moved running ?_ rfl fun u other => State.setStart_ne _ _ other
    rw [State.setStart_self]
    nofun
  | relation mode at_ =>
    rw [unchanged (by rw [at_]; nofun)]
    refine .moved running ?_ rfl fun u other => State.setStart_ne _ _ other
    rw [State.setStart_self]
    nofun
  | refused result open_ cause =>
    rw [unchanged open_]
    refine .moved running ?_ rfl fun u other => State.setStart_ne _ _ other
    rw [State.finish, State.setStart_self]
    rcases cause with rfl | rfl <;> nofun
  | executes locks x' under open_ _ ran =>
    rw [unchanged open_]
    refine .moved running ?_ rfl fun u other => State.setStart_ne _ _ other
    rw [State.setStart_self]
    intro ended
    have still := Start.statement_underWay under ran
    rw [ended] at still
    cases still
  | commits at_ =>
    have commits : s.change (.next t) = some (.backfill t) := if_pos at_
    rw [commits]
    refine ⟨inv.committed at_, fun u => ?_, fun u same => ?_⟩
    · by_cases same : u = t
      · subst same
        rw [State.finish, State.setStart_self]
        exact iff_of_true rfl (.inr rfl)
      · rw [State.finish, State.setStart_ne _ _ same]
        refine (or_iff_left fun other => same ?_).symm
        exact (Change.backfill.inj (Option.some.inj other)).symm
    · obtain rfl : t = u := Change.backfill.inj (Option.some.inj same)
      exact running

/-- **One step.** -/
theorem Inv.step (inv : Inv legacy s) (taken : step legacy s event = some s') :
    Inv legacy s' ∧ Commits legacy s (s.change event) s' := by
  have asks {s₁ : State} {c : ℕ} {mode : LockMode} (taken : s.take (.client c) (.telegrams mode) = some s₁)
      (weak : mode = .accessShare ∨ mode = .rowExclusive) : Inv legacy s₁ ∧ s₁.db = s.db ∧ s₁.starts = s.starts ∧
        s₁.clients = s.clients ∧ (.client c, .telegrams mode) ∈ s₁.locks := by
    obtain ⟨granted, rfl⟩ := State.take_some taken
    exact ⟨inv.asks granted (weak.imp (congrArg _) (congrArg _)), rfl, rfl, rfl, List.mem_cons_self⟩
  cases event with
  | start t =>
    have started : (if (s.starts t).pc = .unstarted then some (s.setStart t { pc := .advisoryLock }) else none) =
      some s' := taken
    split at started
    · rename_i at_
      obtain rfl := Option.some.inj started
      have quiet (lock : Lock) : (Session.start t, lock) ∉ s.locks := fun mem => by
        have under := inv.starts t lock mem
        rw [at_] at under
        cases under
      constructor
      · exact inv.moves { pc := .advisoryLock } inv.compatible (fun _ _ _ => Iff.rfl)
          (fun lock mem => absurd mem (quiet lock)) nofun nofun ⟨rfl, rfl⟩
      · refine .moved (t := t) ?_ ?_ rfl fun u other => State.setStart_ne _ _ other
        · rw [at_]
          nofun
        · rw [State.setStart_self]
          nofun
    · cases started
  | next t => exact ⟨inv.next (inv.nexts taken), inv.step_next taken⟩
  | fail t =>
    have failed : s' = s.finish t .failed ∧ (s.starts t).pc ≠ .ended .committed := by
      unfold Backfill.step at taken
      dsimp only at taken
      split at taken
      · cases taken
      · cases taken
      · rename_i running
        exact ⟨(Option.some.inj taken).symm, running _⟩
    obtain ⟨rfl, running⟩ := failed
    refine ⟨inv.finish t nofun, .moved (t := t) running ?_ rfl fun u other => State.setStart_ne _ _ other⟩
    rw [State.finish, State.setStart_self]
    nofun
  | read c =>
    obtain ⟨kept, db, starts, _⟩ := asks taken (.inl rfl)
    exact ⟨kept, .nothing db fun u => by rw [starts]⟩
  | insert c value payload valueNumeric =>
    obtain ⟨s₁, took, rfl⟩ := Option.map_eq_some_iff.mp taken
    obtain ⟨kept, db, starts, _, held⟩ := asks took (.inr rfl)
    refine ⟨kept.setClient held fun cells mem => ?_, .nothing db fun u => ?_⟩
    · rcases List.mem_append.mp mem with older | new
      · exact kept.library c cells older
      · obtain rfl := List.mem_singleton.mp new
        rfl
    · show (s₁.starts u).pc = _ ↔ _
      rw [starts]
  | delete c ids =>
    obtain ⟨s₁, took, rfl⟩ := Option.map_eq_some_iff.mp taken
    obtain ⟨kept, db, starts, _, held⟩ := asks took (.inr rfl)
    refine ⟨kept.setClient held (kept.library c), .nothing db fun u => ?_⟩
    show (s₁.starts u).pc = _ ↔ _
    rw [starts]
  | commit c =>
    obtain rfl := Option.some.inj taken
    exact ⟨(inv.write c).leaves c, rfl, fun u => (or_iff_left nofun).symm, nofun⟩
  | rollback c =>
    obtain rfl := Option.some.inj taken
    exact ⟨inv.leaves c, .nothing rfl fun u => Iff.rfl⟩

theorem run_commits (inv : Inv legacy s) (ran : EventMachine.run (step legacy) s events = some s') :
    s'.db = (commits legacy s events).foldl (Change.apply legacy) s.db ∧
      (∀ u, (s'.starts u).pc = .ended .committed ↔
        (s.starts u).pc = .ended .committed ∨ u ∈ (commits legacy s events).filterMap Change.start?) ∧
      ((commits legacy s events).filterMap Change.start?).Nodup ∧
      ∀ u ∈ (commits legacy s events).filterMap Change.start?, (s.starts u).pc ≠ .ended .committed := by
  induction events generalizing s with
  | nil =>
    cases ran
    exact ⟨rfl, fun u => (or_iff_left List.not_mem_nil).symm, .nil, nofun⟩
  | cons event rest ih =>
    obtain ⟨next, taken, later⟩ := run_cons.mp ran
    obtain ⟨kept, step⟩ := inv.step taken
    obtain ⟨db, starts, once, fresh⟩ := ih kept later
    have split : commits legacy s (event :: rest) = (s.change event).toList ++ commits legacy next rest := by
      rw [commits, taken]
      rfl
    have first (u : ℕ) : u ∈ (s.change event).toList.filterMap Change.start? ↔ s.change event = some (.backfill u) := by
      rcases s.change event with _ | (client | t)
      · simp
      · simp [Change.start?]
      · simp [Change.start?, eq_comm]
    rw [split, List.foldl_append, ← step.db, List.filterMap_append]
    refine ⟨db, fun u => ?_, ?_, fun u mem => ?_⟩
    · rw [starts, step.starts, List.mem_append, first, or_assoc]
    · refine List.nodup_append.mpr ⟨?_, once, fun u mem v mem' same => ?_⟩
      · rcases s.change event with _ | (client | t)
        · exact .nil
        · exact .nil
        · exact List.pairwise_singleton _ t
      · subst same
        exact fresh u mem' ((step.starts u).mpr (.inr ((first u).mp mem)))
    · rcases List.mem_append.mp mem with now | after
      · exact step.once u ((first u).mp now)
      · exact fun ended => fresh u after ((step.starts u).mpr (.inl ended))

/-- **A backfill is one change.** Whatever starts and other transactions run at
the same time and however they fail, the table is what their commits make of
it one after the other: those of writers as they are, and that of a start as
the backfill of the whole table in one piece. A start that has committed did
so once, and one that has not left no trace. -/
theorem backfills_are_atomic (ran : run legacy db events = some s) :
    s.db = (commits legacy { db } events).foldl (Change.apply legacy) db ∧
      ((commits legacy { db } events).filterMap Change.start?).Nodup ∧
      ∀ t, t ∈ (commits legacy { db } events).filterMap Change.start? ↔ (s.starts t).pc = .ended .committed := by
  obtain ⟨same, starts, once, _⟩ := run_commits (Inv.init legacy db) ran
  exact ⟨same, once, fun t => ((starts t).trans (or_iff_right nofun)).symm⟩

/-- Two rows of an earlier version: a wrapped wrapper, and a legacy float. -/
def legacyTable : Db where
  rows
    | 0 => some ⟨⟨some (Sqlite.wrapper (Sqlite.wrapper (.str "on"))), none, none, none⟩,
        ⟨some (Sqlite.wrapper (Sqlite.wrapper (.str "on"))), none, none, none⟩, {}⟩
    | 1 => some ⟨⟨none, none, none, some (.number 5)⟩, ⟨none, none, none, some (.number 5)⟩, {}⟩
    | _ => none
  inserted := 2
  flags := {}
  bounded
    | 0, beyond | 1, beyond => absurd beyond (by omega)
    | _ + 2, _ => rfl

/-- Two starts at once; a store writes a wrapper before the first has its lock
and one after it has committed. -/
def twoStarts : List Event :=
  [.start 0, .start 1, .next 0, .next 1, .insert 0 (some (Sqlite.wrapper (.str "up"))) none none, .next 0, .next 0,
    .commit 0, .next 0, .next 0, .next 0, .next 0, .next 0, .next 0, .next 0, .next 0, .next 0, .next 0, .next 0,
    .insert 0 (some (Sqlite.wrapper (.str "down"))) none none, .commit 0]

theorem twoStarts_atomic : ∃ s, run true legacyTable twoStarts = some s ∧
    s.db = (commits true { db := legacyTable } twoStarts).foldl (Change.apply true) legacyTable ∧
    (commits true { db := legacyTable } twoStarts).filterMap Change.start? = [0] :=
  ⟨_, rfl, (backfills_are_atomic (show run true legacyTable twoStarts = some _ from rfl)).1, rfl⟩

theorem run_inv (ran : run legacy db events = some s) : Inv legacy s :=
  run_keeps (fun _ _ _ inv taken => (inv.step taken).1) (Inv.init legacy db) ran

/-- **No backfill waits** for another, for a writer or for a reader: one that
is under way can always go on to its next statement, since the locks that these
hold are none it has to wait for. And none finds another number of rows to
unwrap than it has counted. -/
theorem starts_never_wait (ran : run legacy db events = some s) (t : ℕ) :
    ((s.starts t).pc ≠ .unstarted → (∀ result, (s.starts t).pc ≠ .ended result) →
      ∃ s', step legacy s (.next t) = some s') ∧ (s.starts t).pc ≠ .ended .mismatch := by
  have inv := run_inv ran
  refine ⟨fun started running => ?_, inv.counted t⟩
  show ∃ s', s.next legacy t = some s'
  unfold State.next
  dsimp only
  split
  case h_1 at_ => exact absurd at_ started
  case h_2 result at_ => exact absurd at_ (running result)
  case h_3 | h_4 => split <;> exact ⟨_, rfl⟩
  case h_5 => exact ⟨_, rfl⟩
  case h_6 advisory _ _ =>
    have under : (s.starts t).pc.underWay = true := by
      cases at_ : (s.starts t).pc <;> first | rfl | skip
      · exact absurd at_ started
      · exact absurd at_ advisory
      · exact absurd at_ (running _)
    cases waits : (s.starts t).waitsFor with
    | none => exact ⟨_, rfl⟩
    | some lock =>
      have weak : lock = .telegrams .accessShare ∨ lock = .telegrams .rowExclusive ∨ ∃ key, lock = .flag key := by
        unfold Start.waitsFor at waits
        split at waits <;> first | (cases waits; done) | (obtain rfl := Option.some.inj waits; simp)
      have granted : grantable Lock.conflicts s.locks (.start t) lock = true := by
        rw [grantable_iff]
        intro other held mem apart
        cases other with
        | start u => exact absurd (congrArg Session.start (inv.alone under (inv.starts u held mem))) apart
        | client c =>
          rcases inv.clients c held mem with rfl | rfl <;> rcases weak with rfl | rfl | ⟨key, rfl⟩ <;> rfl
      have took : s.take (.start t) lock = some _ := if_pos granted
      show ∃ s', Option.map _ (s.take (.start t) lock) = some s'
      rw [took]
      exact ⟨_, rfl⟩

theorem twoStarts_wait_free : ∃ s, run true legacyTable (twoStarts.take 12) = some s ∧
    (∃ s', step true s (.next 0) = some s') ∧ (s.starts 1).pc = .ended .busy :=
  ⟨_, rfl, (starts_never_wait (show run true legacyTable (twoStarts.take 12) = some _ from rfl) 0).1 nofun nofun, rfl⟩

/-! ## Row by row -/

/-- What a row has come to that was inserted when the flags were `since`:
each pass, once, if its flag was set later; `moved` once its legacy float has
been taken over. -/
def settled (flags since : Flags) (moved : Bool) (origin : DataCells) : DataCells :=
  let cells := if flags.nullsRecovered ∧ ¬ since.nullsRecovered then recoverNulls.apply origin else origin
  let cells := if moved then moveFloats.apply cells else cells
  if flags.dataUnwrapped ∧ ¬ since.dataUnwrapped then unwrapData.apply cells else cells

/-- A table as earlier versions left it. -/
def Original (db : Db) : Prop := ∀ id row, db.rows id = some row → row.cells = row.origin ∧ row.since = db.flags

/-- A row before any backfill, or after one. -/
def Row.Settles (legacy : Bool) (flags : Flags) (row : Row) : Prop :=
  row.cells = row.origin ∧ row.since = flags ∨
    flags = ⟨true, true⟩ ∧ ∃ moved, row.cells = settled ⟨true, true⟩ row.since moved row.origin ∧
      (moved = true → legacy = true) ∧ (row.since.dataUnwrapped = false → moved = legacy)

/-- Either way its cells are what the passes leave of it that it has seen. -/
theorem Row.Settles.cells {row : Row} (settles : row.Settles legacy db.flags) :
    ∃ moved, row.cells = settled db.flags row.since moved row.origin ∧ (moved = true → legacy = true) ∧
      (db.flags.dataUnwrapped = true → row.since.dataUnwrapped = false → moved = legacy) := by
  rcases settles with ⟨same, since⟩ | ⟨flags, moved, cells, only, all⟩
  · refine ⟨false, ?_, nofun, fun set unset => ?_⟩
    · rw [same, ← since]
      simp [settled]
    · rw [since, set] at unset
      cases unset
  · exact ⟨moved, by rw [flags]; exact cells, only, fun _ => all⟩

theorem rows_backfill (legacy : Bool) (db : Db) (id : ℕ) : (db.backfill legacy).rows id =
    (db.rows id).map fun row => { row with cells := settled ⟨true, true⟩ db.flags legacy row.cells } := by
  obtain ⟨rows, inserted, ⟨nulls, unwrapped⟩, bounded⟩ := db
  cases present : rows id with
  | none =>
    cases legacy <;> cases nulls <;> cases unwrapped <;>
      simp [Db.backfill, Db.nullsPass, Db.floatPass, Db.unwrapPass, Db.update, present]
  | some row =>
    cases legacy <;> cases nulls <;> cases unwrapped <;>
      simp [Db.backfill, Db.nullsPass, Db.floatPass, Db.unwrapPass, Db.update, present, Row.update, settled]

theorem moveFloats_idem (cells : DataCells) : moveFloats.apply (moveFloats.apply cells) = moveFloats.apply cells := by
  obtain ⟨value, payload, numeric, float⟩ := cells
  cases numeric <;> cases float <;> rfl

theorem moveFloats_unwrapData (cells : DataCells) :
    moveFloats.apply (unwrapData.apply cells) = unwrapData.apply (moveFloats.apply cells) := by
  obtain ⟨value, payload, numeric, float⟩ := cells
  by_cases due : (isWrapped value || isWrapped payload) = true <;> cases numeric <;> cases float <;>
    simp [Update.apply, moveFloats, unwrapData, due]

theorem moveFloats_settled (flags since : Flags) (moved : Bool) (origin : DataCells) :
    moveFloats.apply (settled flags since moved origin) = settled flags since true origin := by
  have twice (cells : DataCells) :
      moveFloats.apply (if moved then moveFloats.apply cells else cells) = moveFloats.apply cells := by
    cases moved with
    | true => exact moveFloats_idem cells
    | false => rfl
  simp only [settled]
  split
  · rw [moveFloats_unwrapData, twice]
    rfl
  · rw [twice]
    rfl

/-- A backfill keeps rows on their way. -/
theorem Row.Settles.backfill {row : Row} (settles : row.Settles legacy db.flags) :
    Row.Settles legacy ⟨true, true⟩ { row with cells := settled ⟨true, true⟩ db.flags legacy row.cells } := by
  right
  rcases settles with ⟨same, since⟩ | ⟨flags, moved, cells, only, all⟩
  · exact ⟨rfl, legacy, by rw [same, since], id, fun _ => rfl⟩
  · refine ⟨rfl, moved || legacy, ?_, fun either => ?_, fun since => ?_⟩
    · show settled ⟨true, true⟩ db.flags legacy row.cells = _
      rw [cells, flags]
      cases legacy with
      | true =>
        rw [Bool.or_true]
        exact moveFloats_settled ⟨true, true⟩ row.since moved row.origin
      | false =>
        rw [Bool.or_false]
        rfl
    · rcases Bool.or_eq_true_iff.mp either with moved | legacy
      · exact only moved
      · exact legacy
    · rw [all since, Bool.or_self]

theorem settles_apply (change : Change) (settles : ∀ id row, db.rows id = some row → row.Settles legacy db.flags)
    (id : ℕ) (row : Row) (present : (change.apply legacy db).rows id = some row) :
    row.Settles legacy (change.apply legacy db).flags := by
  cases change with
  | write client =>
    replace present : (if id < db.inserted then if id ∈ client.deletes then none else db.rows id
      else client.inserts[id - db.inserted]?.map fun cells => ⟨cells, cells, db.flags⟩) = some row := present
    split at present
    · split at present
      · cases present
      · exact settles id row present
    · obtain ⟨cells, _, rfl⟩ := Option.map_eq_some_iff.mp present
      exact .inl ⟨rfl, rfl⟩
  | backfill t =>
    replace present : (db.backfill legacy).rows id = some row := present
    rw [rows_backfill] at present
    obtain ⟨before, found, rfl⟩ := Option.map_eq_some_iff.mp present
    show Row.Settles legacy (db.backfill legacy).flags _
    rw [Db.flags_backfill]
    exact (settles id before found).backfill

theorem run_settles (original : Original db) (ran : run legacy db events = some s) (id : ℕ) (row : Row)
    (present : s.db.rows id = some row) : row.Settles legacy s.db.flags := by
  have general (changes : List Change) : ∀ id row, (changes.foldl (Change.apply legacy) db).rows id = some row →
      row.Settles legacy (changes.foldl (Change.apply legacy) db).flags := by
    induction changes using List.reverseRecOn with
    | nil => exact fun id row present => .inl (original id row present)
    | append_singleton changes change ih =>
      rw [List.foldl_append]
      exact settles_apply change ih
  rw [(run_commits (Inv.init legacy db) ran).1] at present ⊢
  exact general _ id row present

/-- **Every row is corrected once.** In every run on a table that earlier
versions left, each row is what it was inserted with after each pass whose
flag has been set since, in this order and once each: a row written after a
flag was set is never touched by its pass, wrapper or not. -/
theorem rows_settled (original : Original db) (ran : run legacy db events = some s) (id : ℕ) (row : Row)
    (present : s.db.rows id = some row) :
    ∃ moved, row.cells = settled s.db.flags row.since moved row.origin ∧
      (s.db.flags.dataUnwrapped = true → row.since.dataUnwrapped = false → moved = legacy) := by
  have settles := run_settles original ran id row present
  obtain ⟨moved, cells, _, all⟩ := settles.cells
  exact ⟨moved, cells, all⟩

theorem legacyTable_original : Original legacyTable := by
  intro id row present
  match id with
  | 0 | 1 =>
    cases present
    exact ⟨rfl, rfl⟩
  | _ + 2 => cases present

theorem twoStarts_settled : ∃ s, run true legacyTable twoStarts = some s ∧
    ((s.db.rows 0).map fun row => row.cells.value) = some (some (Sqlite.wrapper (.str "on"))) ∧
    ((s.db.rows 2).map fun row => row.cells.value) = some (some (.str "up")) ∧
    ∃ row, s.db.rows 3 = some row ∧ row.cells.value = some (Sqlite.wrapper (.str "down")) ∧
      ∃ moved, row.cells = settled s.db.flags row.since moved row.origin := by
  obtain ⟨moved, cells, _⟩ := rows_settled legacyTable_original
    (show run true legacyTable twoStarts = some _ from rfl) 3 _ rfl
  exact ⟨_, rfl, rfl, rfl, _, rfl, rfl, moved, cells⟩

/-- **A legacy float is never shown.** The floats move after the pass that
copies numbers into empty values, so a row whose number was in
`value_legacy_float` alone keeps its empty value in every run. -/
theorem legacy_float_not_shown (original : Original db) (ran : run legacy db events = some s) (id : ℕ) (row : Row)
    (present : s.db.rows id = some row) (empty : row.origin.value = none)
    (unnumbered : row.origin.valueNumeric = none) : row.cells.value = none := by
  have settles := run_settles original ran id row present
  obtain ⟨moved, cells, _⟩ := settles.cells
  have idle : recoverNulls.apply row.origin = row.origin := by
    apply Update.apply_of_false
    show (isNull row.origin.value && row.origin.valueNumeric.isSome) = false
    rw [unnumbered]
    exact Bool.and_false _
  have unmoved (cells : DataCells) : (moveFloats.apply cells).value = cells.value := by
    unfold Update.apply
    split <;> rfl
  have unwrapped (cells : DataCells) (empty : cells.value = none) : (unwrapData.apply cells).value = none := by
    unfold Update.apply
    split
    · show unwrapCell cells.value = none
      rw [empty]
      rfl
    · exact empty
  have recovered : ((if s.db.flags.nullsRecovered ∧ ¬ row.since.nullsRecovered then recoverNulls.apply row.origin
      else row.origin) : DataCells) = row.origin := by
    rw [idle, ite_self]
  rw [cells]
  simp only [settled, recovered]
  have filled : (if moved then moveFloats.apply row.origin else row.origin : DataCells).value = none := by
    split
    · rw [unmoved, empty]
    · exact empty
  split
  · exact unwrapped _ filled
  · exact filled

theorem twoStarts_float : ∃ s row, run true legacyTable twoStarts = some s ∧ s.db.rows 1 = some row ∧
    row.cells.valueNumeric = some (.number 5) ∧ row.cells.value = none :=
  ⟨_, _, rfl, rfl, rfl, legacy_float_not_shown legacyTable_original
    (show run true legacyTable twoStarts = some _ from rfl) 1 _ rfl rfl rfl⟩

end KnxTelegramStore.Postgres.Backfill
