import KnxTelegramStore.Buffered.Conservation
import KnxTelegramStore.Buffered.Control

/-!
Serialised access to the backing store. `Nested` holds in every state of a run:
the child of an eviction has its parent in the critical section, the flush lock
is held exactly by a task inside it, and whatever writes does so while writes
are allowed. So one backend method runs at a time (`Nested.exclusive`), nothing
inside the critical section ever has to wait (`Nested.free`), and a store that
has been closed calls its backend for nothing but another `close()`
(`access_serialised`).
-/
namespace KnxTelegramStore.Buffered
open EventMachine

variable {cfg : Config} {s s' : State} {t u closer : ℕ} {event : Event} {outcome : Outcome}

structure Nested (s : State) : Prop where
  serial : Serial s
  child : ∀ u, (s.pc u).evicts = true → ∃ parent cancelled, s.pc parent = .awaitingEviction u cancelled
  locked : ∀ u, (s.pc u).holdsFlush = true → s.flushLock = true
  holder : s.flushLock = true → ∃ u, (s.pc u).holdsFlush = true
  allowed : ∀ u, (s.pc u).needsWrites = true → s.writesAllowed = true

namespace Nested

theorem init (initialized : Bool) : Nested (State.init initialized) where
  serial := .init initialized
  child _ := nofun
  locked _ := nofun
  holder := nofun
  allowed _ := nofun

/-- One task is inside the critical section. -/
theorem inside_unique (nested : Nested s) (first : (s.pc t).holdsMutation = true)
    (second : (s.pc u).holdsMutation = true) :
    t = u :=
  Option.some.inj (((nested.serial.owner t).mp first).symm.trans ((nested.serial.owner u).mp second))

/-- A task that needs writes is the owner of the lock, or works for it. -/
theorem works_for (nested : Nested s) (needs : (s.pc t).needsWrites = true) :
    (s.pc t).holdsMutation = true ∨
      (s.pc t).evicts = true ∧ ∃ parent cancelled, s.pc parent = .awaitingEviction t cancelled ∧
        (s.pc parent).holdsMutation = true := by
  rcases Pc.inside_or_evicts needs with inside | evicts
  · exact .inl inside
  · obtain ⟨parent, cancelled, at_⟩ := nested.child t evicts
    exact .inr ⟨evicts, parent, cancelled, at_, by rw [at_]; rfl⟩

/-- While one task needs writes and is not waiting for the other, the other
does not. -/
theorem alone (nested : Nested s) (first : (s.pc t).needsWrites = true) (second : (s.pc u).needsWrites = true)
    (busy : ∀ child cancelled, s.pc t ≠ .awaitingEviction child cancelled)
    (busy' : ∀ child cancelled, s.pc u ≠ .awaitingEviction child cancelled) : t = u := by
  rcases nested.works_for first with inside | ⟨_, parent, cancelled, at_, inside⟩
  · rcases nested.works_for second with inside' | ⟨_, parent', cancelled', at_', inside'⟩
    · exact nested.inside_unique inside inside'
    · rw [nested.inside_unique inside inside'] at busy
      exact absurd at_' (busy u cancelled')
  · rcases nested.works_for second with inside' | ⟨_, parent', cancelled', at_', inside'⟩
    · rw [← nested.inside_unique inside inside'] at busy'
      exact absurd at_ (busy' t cancelled)
    · rw [← nested.inside_unique inside inside', at_] at at_'
      cases at_'
      rfl

theorem holdsFlush_unique (nested : Nested s) (first : (s.pc t).holdsFlush = true)
    (second : (s.pc u).holdsFlush = true) :
    t = u := by
  have busy {v : ℕ} (holds : (s.pc v).holdsFlush = true) :
    ∀ child cancelled, s.pc v ≠ .awaitingEviction child cancelled := by
    intro child cancelled at_
    rw [at_] at holds
    cases holds
  exact nested.alone (Pc.needsWrites_of_holdsFlush first) (Pc.needsWrites_of_holdsFlush second)
    (busy first) (busy second)

end Nested

/-! ## Steps -/

/-- A step that resumes no task starts none inside the critical section. -/
structure Quiet (s s' : State) : Prop where
  flushLock : s'.flushLock = s.flushLock
  allowed : s.writesAllowed = true → s'.writesAllowed = true
  others : ∀ u, u < s.spawned → s'.pc u = s.pc u
  newborn : ∀ u, s.spawned ≤ u → (s'.pc u).inside = none ∧ (s'.pc u).needsWrites = false
  grown : s.spawned ≤ s'.spawned

/-- A task that is about needs no care when it is older than the step. -/
theorem Quiet.needsWrites (quiet : Quiet s s') (needs : (s'.pc u).needsWrites = true) : s'.pc u = s.pc u := by
  by_cases older : u < s.spawned
  · exact quiet.others u older
  · rw [(quiet.newborn u (Nat.le_of_not_lt older)).2] at needs
    cases needs

theorem Nested.quiet (nested : Nested s) (serial : Serial s') (quiet : Quiet s s') : Nested s' := by
  refine ⟨serial, fun u evicts => ?_, fun u holds => ?_, fun locked => ?_, fun u needs => ?_⟩
  · have same := quiet.needsWrites (Pc.needsWrites_of_evicts evicts)
    obtain ⟨parent, cancelled, at_⟩ := nested.child u (same ▸ evicts)
    refine ⟨parent, cancelled, (quiet.others parent ?_).trans at_⟩
    exact nested.serial.alive (by simp [at_])
  · have same := quiet.needsWrites (Pc.needsWrites_of_holdsFlush holds)
    exact quiet.flushLock.trans (nested.locked u (same ▸ holds))
  · obtain ⟨u, holds⟩ := nested.holder (quiet.flushLock.symm.trans locked)
    refine ⟨u, ?_⟩
    rw [quiet.others u (nested.serial.alive fun unborn => ?_)]
    · exact holds
    · rw [unborn] at holds
      cases holds
  · exact quiet.allowed (nested.allowed u (quiet.needsWrites needs ▸ needs))

theorem quiet_cancel (serial : Serial s) (t : ℕ) : Quiet s (s.requestCancel t) := by
  obtain ⟨tasks, marked, same⟩ := s.requestCancel_frame t
  rw [marked]
  refine ⟨rfl, id, fun u _ => same u, fun u later => ?_, le_rfl⟩
  show ((tasks u).pc).inside = none ∧ ((tasks u).pc).needsWrites = false
  rw [same, serial.unborn u later]
  exact ⟨rfl, rfl⟩

/-- A new task, at an await outside the critical section. -/
theorem quiet_spawn (serial : Serial s) (s₁ : State) {pc : Pc} (tasks : s₁.tasks = s.tasks)
    (lock : s₁.flushLock = s.flushLock)
    (allowed : s.writesAllowed = true → s₁.writesAllowed = true) (grown : s.spawned ≤ s₁.spawned)
    (inside : pc.inside = none)
    (needs : pc.needsWrites = false) : Quiet s (s₁.setPc s.spawned pc) := by
  refine ⟨lock, allowed, fun u alive => ?_, fun u later => ?_, grown⟩
  · rw [State.pc_setPc_ne (by omega), State.pc, tasks]
    rfl
  · by_cases new : u = s.spawned
    · rw [new, State.pc_setPc_self]
      exact ⟨inside, needs⟩
    · have before : (s₁.setPc s.spawned pc).pc u = .unborn := by
        rw [State.pc_setPc_ne new, State.pc, tasks]
        exact serial.unborn u later
      rw [before]
      exact ⟨rfl, rfl⟩

theorem quiet_stopFlushTask (serial : Serial s) (s₁ : State) (tasks : s₁.tasks = s.tasks)
    (lock : s₁.flushLock = s.flushLock)
    (allowed : s.writesAllowed = true → s₁.writesAllowed = true) (grown : s.spawned ≤ s₁.spawned) :
    Quiet s (s₁.stopFlushTask s.spawned) := by
  unfold State.stopFlushTask
  split
  · exact quiet_spawn serial s₁ tasks lock allowed grown rfl rfl
  · rename_i task _
    obtain ⟨tasks', marked, same⟩ := s₁.requestCancel_frame task
    rw [marked]
    have before : ∀ u, (tasks' u).pc = s.pc u := by
      intro u
      rw [same u, State.pc, tasks]
      rfl
    refine ⟨lock, allowed, fun u alive => ?_, fun u later => ?_, grown⟩
    · rw [State.pc_setPc_ne (by omega)]
      exact before u
    · by_cases new : u = s.spawned
      · rw [new, State.pc_setPc_self]
        exact ⟨rfl, rfl⟩
      · rw [State.pc_setPc_ne new]
        show ((tasks' u).pc).inside = none ∧ ((tasks' u).pc).needsWrites = false
        rw [before u, serial.unborn u later]
        exact ⟨rfl, rfl⟩

theorem quiet_endBackup (serial : Serial s) (s₁ : State) (tasks : s₁.tasks = s.tasks)
    (lock : s₁.flushLock = s.flushLock)
    (allowed : s.writesAllowed = true → s₁.writesAllowed = true) (grown : s.spawned ≤ s₁.spawned) (closing : Bool) :
    Quiet s (s₁.endBackup cfg s.spawned closing) := by
  unfold State.endBackup
  split
  · exact quiet_spawn serial { s₁ with writesAllowed := true } tasks lock (fun _ => rfl) grown rfl rfl
  · exact quiet_spawn serial { s₁ with backupInProgress := false } tasks lock allowed grown rfl rfl

theorem quiet_call (serial : Serial s) (op : Op) : Quiet s (s.call cfg op) := by
  have spawns {pc : Pc} (inside : pc.inside = none) (needs : pc.needsWrites = false) : Quiet s (s.spawn pc) :=
    quiet_spawn serial { s with spawned := s.spawned + 1 } rfl rfl id (Nat.le_succ _) inside needs
  cases op with
  | query flushFirst => cases flushFirst <;> exact spawns rfl rfl
  | endBackup =>
    unfold State.call
    dsimp only
    split
    · exact spawns rfl rfl
    · exact quiet_endBackup serial { s with spawned := s.spawned + 1 } rfl rfl id (Nat.le_succ _) false
  | close =>
    unfold State.call State.startClose
    dsimp only
    split
    · exact quiet_stopFlushTask serial { s with spawned := s.spawned + 1, closing := true } rfl rfl id (Nat.le_succ _)
    · exact quiet_endBackup serial { s with spawned := s.spawned + 1, closing := true } rfl rfl id (Nat.le_succ _) true
  | _ => exact spawns rfl rfl

theorem quiet_start (serial : Serial s) : Quiet s s.start := by
  unfold State.start
  split
  · refine ⟨rfl, id, fun _ _ => rfl, fun u later => ?_, le_rfl⟩
    rw [serial.unborn u later]
    exact ⟨rfl, rfl⟩
  · exact quiet_spawn serial { s with spawned := s.spawned + 1, flushTask := some s.spawned } rfl rfl id
      (Nat.le_succ _) rfl rfl

theorem quiet_store (serial : Serial s) (telegram : StoredTelegram) : Quiet s (s.store cfg telegram) := by
  have same : ∀ u, (s.store cfg telegram).pc u = s.pc u := by
    intro u
    unfold State.store
    split <;> rfl
  refine ⟨?_, ?_, fun u _ => same u, fun u later => ?_, ?_⟩
  · unfold State.store
    split <;> rfl
  · unfold State.store
    split <;> exact id
  · rw [same, serial.unborn u later]
    exact ⟨rfl, rfl⟩
  · unfold State.store
    split <;> exact le_rfl

/-- What one step can do to the tasks. -/
theorem step_quiet_or_resumes (serial : Serial s) (taken : step cfg s event = some s') :
    Quiet s s' ∨ ∃ t outcome, event = .resume t outcome ∧ outcome.isCancelled = (s.tasks t).cancelRequested ∧
      s.resume cfg t (s.pc t) outcome = some s' := by
  cases event with
  | store telegram =>
    obtain rfl := Option.some.inj taken
    exact .inl (quiet_store serial telegram)
  | start =>
    obtain rfl := Option.some.inj taken
    exact .inl (quiet_start serial)
  | call op =>
    obtain rfl := Option.some.inj taken
    exact .inl (quiet_call serial op)
  | cancel t =>
    obtain rfl := Option.some.inj taken
    exact .inl (quiet_cancel serial t)
  | resume t outcome =>
    obtain ⟨requested, resumed⟩ := step_resume taken
    exact .inr ⟨t, outcome, rfl, requested, resumed⟩

/-- A task that another one's step leaves where it needs writes was there. -/
theorem Transfers.older {t u : ℕ} (transfers : Transfers s t s') (advances : Advances cfg s t outcome s')
    (other : u ≠ t)
    (needs : (s'.pc u).needsWrites = true) (running : ∀ cutoff dryRun, s'.pc u ≠ .evictLock cutoff dryRun) :
    u < s.spawned ∧ s'.pc u = s.pc u := by
  by_cases older : u < s.spawned
  · exact ⟨older, advances.others u other older⟩
  · rcases transfers.newborn u (Nat.le_of_not_lt older) with unborn | sleeping | ⟨cutoff, dryRun, _, child, _⟩
    · rw [unborn] at needs
      cases needs
    · rw [sleeping] at needs
      cases needs
    · exact absurd child (running cutoff dryRun)

theorem Nested.resume (nested : Nested s) (taken : s.resume cfg t (s.pc t) outcome = some s') : Nested s' := by
  have advances := nested.serial.resume taken
  have transfers := nested.serial.transfers (nested.locked t) taken
  have born : t < s.spawned := nested.serial.alive fun unborn => by
    rw [unborn] at taken
    cases outcome <;> cases taken
  have lands := transfers.lands
  refine ⟨advances.serial, fun u evicts => ?_, fun u holds => ?_, fun locked => ?_, fun u needs => ?_⟩
  · -- the parent stays where it is until its child has ended
    have parent_stays (at_ : ∃ parent cancelled, s.pc parent = .awaitingEviction u cancelled)
        (running : s.isDone u = false) : ∃ parent cancelled, s'.pc parent = .awaitingEviction u cancelled := by
      obtain ⟨parent, cancelled, at_⟩ := at_
      by_cases same : parent = t
      · subst same
        rcases lands.parent u cancelled at_ with ⟨cancelled', stays⟩ | ended
        · exact ⟨parent, cancelled', stays⟩
        · rw [running] at ended
          cases ended
      · exact ⟨parent, cancelled, (advances.others parent same (nested.serial.alive (by simp [at_]))).trans at_⟩
    have running {pc : Pc} (at_ : s.pc u = pc) (evicts : pc.evicts = true) : s.isDone u = false := by
      rw [State.isDone, at_]
      cases pc <;> first | rfl | cases evicts
    by_cases same : u = t
    · subst same
      have before := lands.evicts evicts
      exact parent_stays (nested.child u before) (running rfl before)
    · by_cases older : u < s.spawned
      · have stays := advances.others u same older
        exact parent_stays (nested.child u (stays ▸ evicts)) (running rfl (stays ▸ evicts))
      · rcases transfers.newborn u (Nat.le_of_not_lt older) with unborn | sleeping | ⟨_, _, cancelled, _, at_⟩
        · rw [unborn] at evicts
          cases evicts
        · rw [sleeping] at evicts
          cases evicts
        · exact ⟨t, cancelled, at_⟩
  · by_cases same : u = t
    · subst same
      rw [lands.lock, holds, Bool.true_or]
    · obtain ⟨_, stays⟩ := transfers.older advances same
        (Pc.needsWrites_of_holdsFlush holds) fun cutoff dryRun at_ => by
        rw [at_] at holds
        cases holds
      have before : (s.pc u).holdsFlush = true := stays ▸ holds
      have other : (s.pc t).holdsFlush = false := by
        by_contra both
        exact same (nested.holdsFlush_unique before (by simpa using both))
      rw [lands.lock, nested.locked u before, other]
      simp
  · by_cases own : (s'.pc t).holdsFlush = true
    · exact ⟨t, own⟩
    · rw [lands.lock] at locked
      simp only [own, Bool.false_or, Bool.and_eq_true, Bool.not_eq_true'] at locked
      obtain ⟨u, holds⟩ := nested.holder locked.1
      have other : u ≠ t := by
        rintro rfl
        rw [holds] at locked
        cases locked.2
      refine ⟨u, ?_⟩
      rw [advances.others u other (nested.serial.alive fun unborn => by rw [unborn] at holds; cases holds)]
      exact holds
  · have own (needs : (s'.pc t).needsWrites = true) : s'.writesAllowed = true := by
      have before : s.writesAllowed = true := (lands.needsWrites needs).elim (nested.allowed t) id
      rcases advances.allowed before with still | ⟨at_, rfl, idle⟩
      · exact still
      · rw [at_] at taken
        obtain rfl := Option.some.inj taken
        rw [if_neg (by simp [idle]), State.leave, State.pc_setPc_self] at needs
        cases needs
    by_cases same : u = t
    · exact own (same ▸ needs)
    · by_cases older : u < s.spawned
      · have needs' : (s.pc u).needsWrites = true := advances.others u same older ▸ needs
        rcases advances.allowed (nested.allowed u needs') with still | ⟨at_, _, _⟩
        · exact still
        · -- a `begin_backup()` about to hold off writes is alone
          have inside : (s.pc t).holdsMutation = true := by rw [at_]; rfl
          rcases nested.works_for needs' with inside' | ⟨_, parent, cancelled, awaits, inside'⟩
          · exact absurd (nested.inside_unique inside' inside) same
          · rw [nested.inside_unique inside' inside, at_] at awaits
            cases awaits
      · rcases transfers.newborn u (Nat.le_of_not_lt older) with unborn | sleeping | ⟨_, _, cancelled, _, at_⟩
        · rw [unborn] at needs
          cases needs
        · rw [sleeping] at needs
          cases needs
        · exact own (by rw [at_]; rfl)

theorem Nested.step (nested : Nested s) (taken : step cfg s event = some s') : Nested s' := by
  rcases step_quiet_or_resumes nested.serial taken with quiet | ⟨t, outcome, rfl, _, resumed⟩
  · exact nested.quiet (step_effect nested.serial taken).1 quiet
  · exact nested.resume resumed

theorem run_nested {events : List Event} {initialized : Bool} (ran : run cfg initialized events = some s) : Nested s :=
  run_keeps (fun _ _ _ nested taken => nested.step taken) (.init initialized) ran

/-! ## One backend method at a time -/

/-- The methods of the backing store that are serialised. -/
inductive BackendCall where
  | storeMany
  | evictOlderThan
  | clear
  | optimize
  | beginBackup
  | close
  deriving DecidableEq

/-- The backend method a task is executing. -/
def Pc.backendCall : Pc → Option BackendCall
  | .flushBatch .. | .flushRow .. | .storing .. => some .storeMany
  | .counting _ | .evicting .. | .refreshing .. => some .evictOlderThan
  | .clearing _ => some .clear
  | .optimizing => some .optimize
  | .beginningBackup => some .beginBackup
  | .closeEndingBackup | .closingBackend => some .close
  | _ => none

theorem Pc.calls_inside {pc : Pc} (calls : pc.backendCall ≠ none) : pc.holdsMutation = true ∨ pc.evicts = true := by
  cases pc <;> first | exact .inl rfl | exact .inr rfl | exact absurd rfl calls

/-- The task owns the mutation lock, or is the eviction that its owner awaits. -/
def WorksForOwner (s : State) (t : ℕ) : Prop :=
  s.mutationOwner = some t ∨
    ∃ parent cancelled, s.mutationOwner = some parent ∧ s.pc parent = .awaitingEviction t cancelled

theorem Nested.worksForOwner (nested : Nested s) (calls : (s.pc t).backendCall ≠ none) : WorksForOwner s t := by
  rcases Pc.calls_inside calls with inside | evicts
  · exact .inl ((nested.serial.owner t).mp inside)
  · obtain ⟨parent, cancelled, at_⟩ := nested.child t evicts
    exact .inr ⟨parent, cancelled, (nested.serial.owner parent).mp (by rw [at_]; rfl), at_⟩

theorem Nested.exclusive (nested : Nested s) (first : (s.pc t).backendCall ≠ none)
    (second : (s.pc u).backendCall ≠ none) :
    t = u := by
  have busy {v : ℕ} (calls : (s.pc v).backendCall ≠ none) (child : ℕ) (cancelled : Bool) :
      s.pc v ≠ .awaitingEviction child cancelled := by
    intro at_
    rw [at_] at calls
    exact calls rfl
  rcases nested.worksForOwner first with owner | ⟨parent, cancelled, owner, at_⟩
  · rcases nested.worksForOwner second with owner' | ⟨parent', cancelled', owner', at_'⟩
    · exact Option.some.inj (owner.symm.trans owner')
    · cases owner.symm.trans owner'
      exact absurd at_' (busy first u cancelled')
  · rcases nested.worksForOwner second with owner' | ⟨parent', cancelled', owner', at_'⟩
    · cases owner.symm.trans owner'
      exact absurd at_ (busy second t cancelled)
    · cases owner.symm.trans owner'
      rw [at_] at at_'
      cases at_'
      rfl

/-! ## Nested calls -/

/-- What `_mutation()` does when task `t` enters it. -/
inductive Entry where
  /-- `yield` without the lock -/
  | reentered
  | waits
  | refused
  | entered
  deriving DecidableEq

/-- `_mutation()` up to its body. -/
def State.mutation (s : State) (t : ℕ) (allowClosing : Bool) : Entry :=
  if s.mutationOwner = some t then .reentered
  else if s.mutationLock then .waits
  else if s.closing ∧ ¬ allowClosing then .refused
  else .entered

/-- What an await inside the critical section waits for is there. -/
def State.Ready (s : State) : Pc → Prop
  | .flushLock _ | .clearLock | .evictLock .. => s.flushLock = false
  | .flushGate .. | .evictGate .. => s.writesAllowed = true
  | _ => True

/-- **Nothing inside the critical section has to wait** for a lock, or for the
end of a backup. -/
theorem Nested.ready (nested : Nested s) (t : ℕ) : s.Ready (s.pc t) := by
  have free (needs : (s.pc t).needsWrites = true) (own : (s.pc t).holdsFlush = false)
      (busy : ∀ child cancelled, s.pc t ≠ .awaitingEviction child cancelled) : s.flushLock = false := by
    by_contra locked
    obtain ⟨u, holds⟩ := nested.holder (by simpa using locked)
    have busy' : ∀ child cancelled, s.pc u ≠ .awaitingEviction child cancelled := by
      intro child cancelled at_
      rw [at_] at holds
      cases holds
    rw [nested.alone needs (Pc.needsWrites_of_holdsFlush holds) busy busy', holds] at own
    cases own
  cases at_ : s.pc t <;> rw [at_] at free
  case flushLock => exact free rfl rfl nofun
  case clearLock => exact free rfl rfl nofun
  case evictLock => exact free rfl rfl nofun
  case flushGate => exact nested.allowed t (by rw [at_]; rfl)
  case evictGate => exact nested.allowed t (by rw [at_]; rfl)
  all_goals trivial

/-- The task that waits for the lock finds what `_mutation()` says. -/
theorem resume_mutation (serial : Serial s) {next : Waiting} (at_ : s.pc t = .mutation next) :
    s.resume cfg t (.mutation next) .returned = match s.mutation t next.isClose with
      | .waits | .reentered => none
      | .refused => some (s.refuse t next)
      | .entered => some (s.enter cfg t next) := by
  have stranger : s.mutationOwner ≠ some t := by
    rw [ne_eq, ← serial.owner t, at_]
    exact Bool.false_ne_true
  have waits : s.resume cfg t (.mutation next) .returned = if s.mutationLock then none
      else if s.closing ∧ ¬ next.isClose then some (s.refuse t next) else some (s.enter cfg t next) := by
    cases next <;> rfl
  rw [waits]
  unfold State.mutation
  rw [if_neg stranger]
  split
  · rfl
  · split <;> rfl

theorem Nested.reenters (nested : Nested s) (inside : (s.pc t).holdsMutation = true) (allowClosing : Bool) :
    s.mutation t allowClosing = .reentered :=
  if_pos ((nested.serial.owner t).mp inside)

/-! ## After a close -/

/-- Only a `close()` can be inside the critical section. -/
structure Closed (s : State) : Prop where
  closing : s.closing = true
  inside : ∀ t body, (s.pc t).inside = some body → body = .close

/-- `close()` is one of the tasks that calls the backend. -/
theorem Closed.calls (closed : Closed s) (nested : Nested s) (calls : (s.pc t).backendCall ≠ none) :
    (s.pc t).inside = some .close := by
  rcases Pc.calls_inside calls with inside | evicts
  · rw [Pc.holdsMutation_eq] at inside
    obtain ⟨body, own⟩ := Option.isSome_iff_exists.mp inside
    rw [own, closed.inside t body own]
  · obtain ⟨parent, cancelled, at_⟩ := nested.child t evicts
    exact absurd (closed.inside parent .evict (by rw [at_]; rfl)) (by decide)

theorem step_closing (serial : Serial s) (closing : s.closing = true) (taken : step cfg s event = some s') :
    s'.closing = true := by
  cases event with
  | store telegram =>
    obtain rfl := Option.some.inj taken
    have refused : s.store cfg telegram = s := if_pos closing
    rwa [refused]
  | start =>
    obtain rfl := Option.some.inj taken
    exact serial.start.closing closing
  | call op =>
    obtain rfl := Option.some.inj taken
    exact (serial.call op).closing closing
  | cancel t =>
    obtain rfl := Option.some.inj taken
    exact (serial.marks t).closing closing
  | resume t outcome =>
    exact (serial.resume (step_resume taken).2).closing.trans closing

theorem Waiting.body_of_isClose {next : Waiting} (close : next.isClose = true) : next.body = .close := by
  cases next <;> first | rfl | cases close

/-- The tasks inside the critical section after a resumption. -/
theorem inside_resumed (advances : Advances cfg s t outcome s') (transfers : Transfers s t s') {u : ℕ} {body : Body}
    (own : (s'.pc u).inside = some body) :
    u = t ∨ u ≠ t ∧ (s.pc u).inside = some body := by
  by_cases same : u = t
  · exact .inl same
  · refine .inr ⟨same, ?_⟩
    by_cases older : u < s.spawned
    · exact advances.others u same older ▸ own
    · rcases transfers.newborn u (Nat.le_of_not_lt older) with born | born | ⟨_, _, _, born, _⟩
      all_goals
        rw [born] at own
        cases own

theorem Closed.resume (closed : Closed s) (advances : Advances cfg s t outcome s') (transfers : Transfers s t s') :
    Closed s' := by
  refine ⟨advances.closing.trans closed.closing, fun u body own => ?_⟩
  rcases inside_resumed advances transfers own with rfl | ⟨_, before⟩
  · rcases transfers.lands.inside body own with before | ⟨next, _, rfl, _, entitled⟩
    · exact closed.inside u body before
    · exact Waiting.body_of_isClose (entitled closed.closing)
  · exact closed.inside u body before

theorem Closed.step (closed : Closed s) (nested : Nested s) (taken : step cfg s event = some s') : Closed s' := by
  rcases step_quiet_or_resumes nested.serial taken with quiet | ⟨t, outcome, rfl, _, resumed⟩
  · refine ⟨step_closing nested.serial closed.closing taken, fun u body own => ?_⟩
    by_cases older : u < s.spawned
    · exact closed.inside u body (quiet.others u older ▸ own)
    · rw [(quiet.newborn u (Nat.le_of_not_lt older)).1] at own
      cases own
  · exact closed.resume (nested.serial.resume resumed) (nested.serial.transfers (nested.locked t) resumed)

/-- Where the task of a `close()` can be that has not returned. -/
def Pc.Closing : Pc → Prop
  | .endingBackup true | .awaitingFlushTask _ | .mutation .close | .done .raised | .done .cancelled => True
  | pc => pc.inside = some .close

/-- A `close()` on its way; when it is over, the store is closed. -/
structure Closer (s : State) (closer : ℕ) : Prop where
  closing : s.closing = true
  alive : closer < s.spawned
  progress : (s.pc closer).Closing ∨ Closed s

/-- Nobody is inside once the task that was has left. -/
theorem Nested.leaves (nested : Nested s) (advances : Advances cfg s t outcome s') (transfers : Transfers s t s')
    (before : (s.pc t).holdsMutation = true) (after : (s'.pc t).inside = none) : ∀ u, (s'.pc u).inside = none := by
  intro u
  cases own : (s'.pc u).inside with
  | none => rfl
  | some body =>
    rcases inside_resumed advances transfers own with rfl | ⟨other, inside⟩
    · exact own.symm.trans after
    · have inside' : (s.pc u).holdsMutation = true := by rw [Pc.holdsMutation_eq, inside]; rfl
      exact absurd (nested.inside_unique inside' before) other

theorem Pc.closing_of_inside {pc : Pc} (inside : pc.inside = some .close) : pc.Closing := by
  cases pc <;> first | exact inside | cases inside

theorem closing_closeBackend (s : State) (t : ℕ) : ((s.closeBackend cfg t).pc t).Closing := by
  unfold State.closeBackend
  split
  · split
    · rw [State.leave, State.pc_setPc_self]
      trivial
    · rw [State.pc_setPc_self]
      rfl
  · rw [State.pc_setPc_self]
    rfl

theorem closing_stopFlushTask (s : State) (t : ℕ) : ((s.stopFlushTask t).pc t).Closing := by
  unfold State.stopFlushTask
  split
  · rw [State.pc_setPc_self]
    trivial
  · rw [State.pc_setPc_self]
    trivial

/-- The `close()` that gets the lock starts its flush, or what follows it. -/
theorem closing_enter (s : State) (t : ℕ) : ((s.enter cfg t .close).pc t).Closing := by
  unfold State.enter
  dsimp only
  split
  · unfold State.startFlush
    split
    · rw [State.pc_setPc_self]
      rfl
    · exact closing_closeBackend _ t
  · exact closing_closeBackend _ t

theorem Closer.own (close : Closer s t) (nested : Nested s) (taken : s.resume cfg t (s.pc t) outcome = some s') :
    (s'.pc t).Closing ∨ Closed s' := by
  have advances := nested.serial.resume taken
  have transfers := nested.serial.transfers (nested.locked t) taken
  rcases close.progress with closing | closed
  · by_cases inside : (s.pc t).inside = some .close
    · -- it stays inside, or leaves nobody there
      cases own : (s'.pc t).inside with
      | none =>
        have empty := nested.leaves advances transfers (by rw [Pc.holdsMutation_eq, inside]; rfl) own
        refine .inr ⟨advances.closing.trans close.closing, fun u body there => ?_⟩
        rw [empty u] at there
        cases there
      | some body =>
        have same : body = .close := by
          rcases transfers.lands.inside body own with before | ⟨next, at_, _⟩
          · exact Option.some.inj (before.symm.trans inside)
          · rw [at_] at inside
            cases inside
        exact .inl (Pc.closing_of_inside (own.trans (congrArg some same)))
    · refine .inl ?_
      cases at_ : s.pc t <;> rw [at_] at taken closing inside
      case endingBackup closing' =>
        cases closing' with
        | false => exact absurd closing inside
        | true =>
          rcases outcome with _ | _ | _ | _
          case returned =>
            obtain rfl := Option.some.inj taken
            exact closing_stopFlushTask _ t
          case cancelled.true => cases taken
          all_goals
            obtain rfl := Option.some.inj taken
            rw [State.pc_setPc_self]
            trivial
      case awaitingFlushTask task =>
        have awaited : (if s.isDone task then some ({ s with flushTask := none }.setPc t (.mutation .close))
            else none) = some s' := by
          rcases outcome with _ | _ | _ | _
          case returned => exact taken
          case cancelled.false => exact taken
          all_goals cases taken
        split at awaited
        · obtain rfl := Option.some.inj awaited
          rw [State.pc_setPc_self]
          trivial
        · cases awaited
      case mutation next =>
        cases next <;> try exact absurd closing inside
        rcases outcome with _ | _ | _ | _
        case returned =>
          have locked : (if s.mutationLock then none else if s.closing ∧ ¬ Waiting.close.isClose then
              some (s.refuse t .close) else some (s.enter cfg t .close)) = some s' := taken
          simp only [Waiting.isClose, not_true_eq_false, and_false, if_false] at locked
          split at locked
          · cases locked
          · obtain rfl := Option.some.inj locked
            exact closing_enter s t
        case cancelled.false =>
          obtain rfl := Option.some.inj taken
          rw [State.pc_setPc_self]
          trivial
        all_goals cases taken
      case done => cases outcome <;> cases taken
      all_goals exact absurd closing inside
  · exact .inr (closed.resume advances transfers)

theorem Closer.step (close : Closer s closer) (nested : Nested s) (taken : step cfg s event = some s') :
    Closer s' closer := by
  have closing := step_closing nested.serial close.closing taken
  rcases step_quiet_or_resumes nested.serial taken with quiet | ⟨t, outcome, rfl, _, resumed⟩
  · refine ⟨closing, close.alive.trans_le quiet.grown, ?_⟩
    rw [quiet.others closer close.alive]
    exact close.progress.imp_right fun closed => closed.step nested taken
  · have advances := nested.serial.resume resumed
    refine ⟨closing, close.alive.trans_le advances.grown, ?_⟩
    by_cases own : closer = t
    · subst own
      exact close.own nested resumed
    · rw [advances.others closer own close.alive]
      exact close.progress.imp_right fun closed => closed.step nested taken

theorem Closer.called (s : State) : Closer (s.call cfg .close) s.spawned := by
  have begun : (s.call cfg .close).closing = true ∧ s.spawned < (s.call cfg .close).spawned ∧
      ((s.call cfg .close).pc s.spawned).Closing := by
    unfold State.call State.startClose
    dsimp only
    split
    · refine ⟨?_, ?_, closing_stopFlushTask _ _⟩
      all_goals
        unfold State.stopFlushTask
        split
      · rfl
      · rename_i task _
        obtain ⟨tasks, marked, _⟩ := State.requestCancel_frame { s with spawned := s.spawned + 1, closing := true } task
        rw [marked]
        rfl
      · exact Nat.lt_succ_self _
      · rename_i task _
        obtain ⟨tasks, marked, _⟩ := State.requestCancel_frame { s with spawned := s.spawned + 1, closing := true } task
        rw [marked]
        exact Nat.lt_succ_self _
    · unfold State.endBackup
      split
      · refine ⟨rfl, Nat.lt_succ_self _, ?_⟩
        rw [State.pc_setPc_self]
        trivial
      · refine ⟨rfl, Nat.lt_succ_self _, ?_⟩
        rw [State.pc_setPc_self]
        trivial
  exact ⟨begun.1, begun.2.1, .inl begun.2.2⟩

/-- Access to the backing store in one state. -/
structure Serialised (s : State) : Prop where
  exclusive : ∀ t u, (s.pc t).backendCall ≠ none → (s.pc u).backendCall ≠ none → t = u
  owned : ∀ t, (s.pc t).backendCall ≠ none → WorksForOwner s t
  reenters : ∀ t allowClosing, (s.pc t).holdsMutation = true → s.mutation t allowClosing = .reentered
  ready : ∀ t, s.Ready (s.pc t)
  released : ∀ t result, s.pc t = .done result → s.mutationOwner ≠ some t
  locked : s.mutationLock = true ↔ ∃ t, s.mutationOwner = some t ∧ (s.pc t).holdsMutation = true

theorem Nested.serialised (nested : Nested s) : Serialised s where
  exclusive _ _ first second := nested.exclusive first second
  owned _ calls := nested.worksForOwner calls
  reenters _ allowClosing inside := nested.reenters inside allowClosing
  ready t := nested.ready t
  released t result ended owner := by
    have inside := (nested.serial.owner t).mpr owner
    rw [ended] at inside
    cases inside
  locked := by
    rw [nested.serial.lock, Option.isSome_iff_exists]
    exact ⟨fun ⟨t, owner⟩ => ⟨t, owner, (nested.serial.owner t).mpr owner⟩, fun ⟨t, owner, _⟩ => ⟨t, owner⟩⟩

/-- **Access to the backing store is serialised** in every state of a run, and
from when a `close()` has returned only another one calls it. -/
theorem access_serialised {initialized : Bool} {events : List Event} (ran : run cfg initialized events = some s) :
    Serialised s ∧
      ∀ before during after s₀ s₁ count, events = before ++ .call .close :: (during ++ after) →
        run cfg initialized before = some s₀ →
        EventMachine.run (step cfg) s₀ (.call .close :: during) = some s₁ →
        s₁.pc s₀.spawned = .done (.returned count) →
        ∀ t, (s.pc t).backendCall ≠ none → (s.pc t).inside = some .close := by
  refine ⟨(run_nested ran).serialised, ?_⟩
  rintro before during after s₀ s₁ count rfl reached closing returned t calls
  obtain ⟨s₀', reached', rest⟩ := run_append.mp ran
  cases reached.symm.trans reached'
  obtain ⟨s₁', closing', later⟩ := run_append.mp (List.cons_append .. ▸ rest)
  cases closing.symm.trans closing'
  have nested₀ : Nested s₀ := run_nested reached
  obtain ⟨s₂, called, during'⟩ := run_cons.mp closing
  have begun : Nested s₂ ∧ Closer s₂ s₀.spawned := by
    refine ⟨nested₀.step called, ?_⟩
    obtain rfl := Option.some.inj called
    exact .called s₀
  obtain ⟨nested₁, close⟩ : Nested s₁ ∧ Closer s₁ s₀.spawned :=
    run_keeps (I := fun now => Nested now ∧ Closer now s₀.spawned)
      (fun _ _ _ both taken => ⟨both.1.step taken, both.2.step both.1 taken⟩) begun during'
  have closed : Closed s₁ := by
    refine close.progress.resolve_left ?_
    rw [returned]
    exact nofun
  obtain ⟨nested, closed⟩ : Nested s ∧ Closed s :=
    run_keeps (I := fun now => Nested now ∧ Closed now)
      (fun _ _ _ both taken => ⟨both.1.step taken, both.2.step both.1 taken⟩) ⟨nested₁, closed⟩ later
  exact closed.calls nested calls

/-- A flush that comes after a `close()`. -/
def closedThenFlush : List Event :=
  [.call .close, .resume 0 .returned, .resume 0 .returned, .resume 0 .returned, .call .flush, .resume 1 .returned]

theorem flush_after_close_refused :
    ∃ s, run sampleConfig true closedThenFlush = some s ∧ s.pc 1 = .done .raised ∧ Serialised s ∧
      ∀ t, (s.pc t).backendCall ≠ none → (s.pc t).inside = some .close := by
  obtain ⟨s, ran, refused⟩ : ∃ s, run sampleConfig true closedThenFlush = some s ∧ s.pc 1 = .done .raised :=
    ⟨_, rfl, rfl⟩
  obtain ⟨s₁, closing, returned⟩ : ∃ s₁, EventMachine.run (step sampleConfig) (State.init true)
      [.call .close, .resume 0 .returned, .resume 0 .returned, .resume 0 .returned] = some s₁ ∧
      s₁.pc 0 = .done (.returned none) := ⟨_, rfl, rfl⟩
  obtain ⟨serialised, after⟩ := access_serialised ran
  refine ⟨s, ran, refused, serialised, ?_⟩
  exact after [] _ [.call .flush, .resume 1 .returned] (State.init true) s₁ none rfl rfl closing returned

end KnxTelegramStore.Buffered
