import KnxTelegramStore.Buffered.Ledger

/-!
Who is where in the critical section. A body runs behind the mutation lock;
inside it `_flush_lock` is taken by a flush, by `clear()`, or by the child task
an eviction runs in, and a body that writes runs only while writes are allowed.
`Transfers` says where resuming a task can take it, and `Nested` collects what
follows about all tasks at once.
-/
namespace KnxTelegramStore.Buffered

variable {cfg : Config} {s s₁ s' : State} {t u : ℕ} {pc : Pc} {outcome : Outcome} {event : Event}

/-- What the mutation lock is held for. -/
inductive Body where
  | storeMany
  | flush
  | flushLoop
  | optimize
  | beginBackup
  | evict
  | clear
  | close
  deriving DecidableEq

def FlushCaller.body : FlushCaller → Body
  | .flush _ => .flush
  | .flushLoop => .flushLoop
  | .optimize => .optimize
  | .beginBackup => .beginBackup
  | .close => .close

def Waiting.body : Waiting → Body
  | .gated (.storeMany _) => .storeMany
  | .gated .optimize => .optimize
  | .gated (.evictOlderThan ..) | .gated (.evictExpired ..) => .evict
  | .gated .clear => .clear
  | .flush _ => .flush
  | .flushLoop => .flushLoop
  | .beginBackup => .beginBackup
  | .close => .close

namespace Pc

/-- The body a task inside the critical section runs. -/
def inside : Pc → Option Body
  | .flushLock caller | .flushGate caller .. | .flushBatch caller .. | .flushRow caller .. => some caller.body
  | .storing .. => some .storeMany
  | .optimizing => some .optimize
  | .beginningBackup => some .beginBackup
  | .evictGate .. | .awaitingEviction .. => some .evict
  | .clearLock | .clearing _ => some .clear
  | .closeEndingBackup | .closingBackend => some .close
  | _ => none

/-- In the child task `_evict_older_than`. -/
def evicts : Pc → Bool
  | .evictLock .. | .counting _ | .evicting .. | .refreshing .. => true
  | _ => false

/-- Inside an `async with self._flush_lock` block. -/
def holdsFlush : Pc → Bool
  | .flushGate .. | .flushBatch .. | .flushRow .. | .counting _ | .evicting .. | .refreshing .. | .clearing _ => true
  | _ => false

/-- Where a task can only be while writes are allowed. -/
def needsWrites : Pc → Bool
  | .flushLock _ | .flushGate .. | .flushBatch .. | .flushRow .. | .storing .. | .optimizing | .beginningBackup
  | .evictGate .. | .awaitingEviction .. | .evictLock .. | .counting _ | .evicting .. | .refreshing ..
  | .clearLock | .clearing _ => true
  | _ => false

theorem holdsMutation_eq (pc : Pc) : pc.holdsMutation = pc.inside.isSome := by
  cases pc <;> rfl

theorem needsWrites_of_evicts (evicts : pc.evicts = true) : pc.needsWrites = true := by
  cases pc <;> first | rfl | cases evicts

theorem needsWrites_of_holdsFlush (holds : pc.holdsFlush = true) : pc.needsWrites = true := by
  cases pc <;> first | rfl | cases holds

/-- A task that holds the flush lock is inside the critical section, or an
eviction's child. -/
theorem inside_or_evicts (needs : pc.needsWrites = true) : pc.holdsMutation = true ∨ pc.evicts = true := by
  cases pc <;> first | exact .inl rfl | exact .inr rfl | cases needs

end Pc

/-! ## Where a step can take a task -/

/-- The task gets the mutation lock for a body. -/
def Enters (s : State) (t : ℕ) (body : Body) : Prop :=
  ∃ next, s.pc t = .mutation next ∧ next.body = body ∧ s.mutationLock = false ∧
    (s.closing = true → next.isClose = true)

/-- Where a step from `s` can take task `t`, and what it does to the flush
lock. -/
structure Lands (s : State) (t : ℕ) (pc : Pc) (flushLock : Bool) : Prop where
  inside : ∀ body, pc.inside = some body → (s.pc t).inside = some body ∨ Enters s t body
  needsWrites : pc.needsWrites = true → (s.pc t).needsWrites = true ∨ s.writesAllowed = true
  evicts : pc.evicts = true → (s.pc t).evicts = true
  parent : ∀ child cancelled, s.pc t = .awaitingEviction child cancelled →
    (∃ cancelled', pc = .awaitingEviction child cancelled') ∨ s.isDone child = true
  lock : flushLock = (pc.holdsFlush || (s.flushLock && !(s.pc t).holdsFlush))
  free : pc.holdsFlush = true → (s.pc t).holdsFlush = true ∨ s.flushLock = false

/-- What resuming task `t` did to the tasks. -/
structure Transfers (s : State) (t : ℕ) (s' : State) : Prop where
  lands : Lands s t (s'.pc t) s'.flushLock
  newborn : ∀ u, s.spawned ≤ u → s'.pc u = .unborn ∨ s'.pc u = .sleeping ∨
    ∃ cutoff dryRun cancelled, s'.pc u = .evictLock cutoff dryRun ∧ s'.pc t = .awaitingEviction u cancelled

/-- Task `t` runs a body in `s₁`, some way after it was resumed in `s`, and
does not hold the flush lock (any more). -/
structure Runs (s : State) (t : ℕ) (body : Body) (s₁ : State) : Prop where
  alive : t < s.spawned
  unborn : ∀ u, s.spawned ≤ u → s.pc u = .unborn
  own : (s.pc t).inside = some body ∨ Enters s t body
  lone : ∀ child cancelled, s.pc t ≠ .awaitingEviction child cancelled
  tasks : s₁.tasks = s.tasks
  spawned : s₁.spawned = s.spawned
  lock : s₁.flushLock = (s.flushLock && !(s.pc t).holdsFlush)

variable {body : Body} {caller : FlushCaller}

theorem Lands.settles (lands : Lands s t pc s₁.flushLock) (alive : t < s.spawned)
    (unborn : ∀ u, s.spawned ≤ u → s.pc u = .unborn) (tasks : s₁.tasks = s.tasks) : Transfers s t (s₁.setPc t pc) := by
  refine ⟨by rwa [State.pc_setPc_self], fun u later => ?_⟩
  have other : u ≠ t := by omega
  rw [State.pc_setPc_ne other, State.pc, tasks]
  exact .inl (unborn u later)

theorem Lands.restarts (lands : Lands s t pc s₁.flushLock) (alive : t < s.spawned)
    (unborn : ∀ u, s.spawned ≤ u → s.pc u = .unborn) (tasks : s₁.tasks = s.tasks) (spawned : s₁.spawned = s.spawned) :
    Transfers s t (s₁.resetTimer.setPc t pc) := by
  obtain ⟨tasks', spawned', flushTask, timer, _, kept, started⟩ := s₁.resetTimer_frame
  rw [timer]
  refine ⟨by rwa [State.pc_setPc_self], fun u later => ?_⟩
  have other : u ≠ t := by omega
  have before : s₁.pc u = .unborn := by
    rw [State.pc, tasks]
    exact unborn u later
  rw [State.pc_setPc_ne other]
  show (tasks' u).pc = _ ∨ (tasks' u).pc = _ ∨ _
  by_cases first : u = s₁.spawned
  · subst first
    rcases started with ⟨same, _⟩ | ⟨sleeps, _⟩
    · exact .inl (same.trans before)
    · exact .inr (.inl sleeps)
  · exact .inl ((kept u first).trans before)

namespace Runs

/-- The next await takes no flush lock. -/
theorem lands (runs : Runs s t body s₁) (inside : ∀ body', pc.inside = some body' → body' = body)
    (writes : pc.needsWrites = true → (s.pc t).needsWrites = true ∨ s.writesAllowed = true)
    (evicts : pc.evicts = false) (holds : pc.holdsFlush = false) : Lands s t pc s₁.flushLock where
  inside body' own := inside body' own ▸ runs.own
  needsWrites := writes
  evicts impossible := by rw [evicts] at impossible; cases impossible
  parent child cancelled at_ := absurd at_ (runs.lone child cancelled)
  lock := by rw [holds, Bool.false_or, runs.lock]
  free impossible := by rw [holds] at impossible; cases impossible

theorem settles (runs : Runs s t body s₁) (inside : ∀ body', pc.inside = some body' → body' = body)
    (writes : pc.needsWrites = true → (s.pc t).needsWrites = true ∨ s.writesAllowed = true)
    (evicts : pc.evicts = false) (holds : pc.holdsFlush = false) : Transfers s t (s₁.setPc t pc) :=
  (runs.lands inside writes evicts holds).settles runs.alive runs.unborn runs.tasks

theorem restarts (runs : Runs s t body s₁) (inside : ∀ body', pc.inside = some body' → body' = body)
    (writes : pc.needsWrites = true → (s.pc t).needsWrites = true ∨ s.writesAllowed = true)
    (evicts : pc.evicts = false) (holds : pc.holdsFlush = false) : Transfers s t (s₁.resetTimer.setPc t pc) :=
  (runs.lands inside writes evicts holds).restarts runs.alive runs.unborn runs.tasks runs.spawned

/-- A change that concerns neither the tasks nor the flush lock. -/
theorem congr (runs : Runs s t body s₁) (s₂ : State) (tasks : s₂.tasks = s₁.tasks) (spawned : s₂.spawned = s₁.spawned)
    (lock : s₂.flushLock = s₁.flushLock) : Runs s t body s₂ :=
  { runs with
    tasks := tasks.trans runs.tasks
    spawned := spawned.trans runs.spawned
    lock := lock.trans runs.lock }

theorem leaves (runs : Runs s t body s₁) (result : Result) : Transfers s t (s₁.leave t result) :=
  (runs.congr s₁.release rfl rfl rfl).settles nofun nofun rfl rfl

theorem closeBackend (runs : Runs s t .close s₁) : Transfers s t (s₁.closeBackend cfg t) := by
  unfold State.closeBackend
  split
  · split
    · exact runs.leaves _
    · have ended : Runs s t .close { s₁ with backupInProgress := false } := runs.congr _ rfl rfl rfl
      refine ended.settles ?_ nofun rfl rfl
      rintro _ ⟨⟩
      rfl
  · refine runs.settles ?_ nofun rfl rfl
    rintro _ ⟨⟩
    rfl

theorem afterFlush (runs : Runs s t caller.body s₁)
    (writes : caller = .optimize ∨ caller = .beginBackup → (s.pc t).needsWrites = true ∨ s.writesAllowed = true) :
    Transfers s t (s₁.afterFlush cfg t caller) := by
  cases caller with
  | flush reads =>
    have released := runs.congr s₁.release rfl rfl rfl
    cases reads <;> exact released.restarts nofun nofun rfl rfl
  | flushLoop =>
    have released := runs.congr s₁.release rfl rfl rfl
    unfold State.afterFlush
    dsimp only
    split <;> exact released.settles nofun nofun rfl rfl
  | optimize =>
    refine runs.restarts ?_ (fun _ => writes (.inl rfl)) rfl rfl
    rintro _ ⟨⟩
    rfl
  | beginBackup =>
    refine runs.settles ?_ (fun _ => writes (.inr rfl)) rfl rfl
    rintro _ ⟨⟩
    rfl
  | close => exact runs.closeBackend

theorem failFlush (runs : Runs s t caller.body s₁) (result : Result) :
    Transfers s t (s₁.failFlush t result caller) := by
  cases caller <;> exact runs.leaves _

theorem startFlush (runs : Runs s t caller.body s₁) (same : s₁.writesAllowed = s.writesAllowed)
    (writes : caller = .optimize ∨ caller = .beginBackup → s.writesAllowed = true) :
    Transfers s t (s₁.startFlush cfg t caller) := by
  unfold State.startFlush
  split
  · rename_i allowed
    refine runs.settles ?_ (fun _ => .inr (same ▸ allowed)) rfl rfl
    rintro _ ⟨⟩
    rfl
  · exact runs.afterFlush fun needs => .inr (writes needs)

/-- `_flush` from inside its lock. -/
theorem detachBatch (runs : Runs s t caller.body s₁) (free : s.flushLock = false)
    (writes : (s.pc t).needsWrites = true) : Transfers s t (s₁.detachBatch cfg t caller) := by
  unfold State.detachBatch
  split
  · exact runs.afterFlush fun _ => .inl writes
  · refine Lands.settles ?_ runs.alive runs.unborn runs.tasks
    refine ⟨?_, fun _ => .inl writes, nofun, fun child cancelled at_ => absurd at_ (runs.lone child cancelled), rfl,
      fun _ => .inr free⟩
    rintro _ ⟨⟩
    exact runs.own

end Runs

/-- Task `t` is in a flush that has taken the flush lock. -/
structure Flushes (s : State) (t : ℕ) (caller : FlushCaller) : Prop where
  alive : t < s.spawned
  unborn : ∀ u, s.spawned ≤ u → s.pc u = .unborn
  own : (s.pc t).inside = some caller.body
  lone : ∀ child cancelled, s.pc t ≠ .awaitingEviction child cancelled
  writes : (s.pc t).needsWrites = true
  holds : (s.pc t).holdsFlush = true
  locked : s.flushLock = true

namespace Flushes

/-- It gives the lock back. -/
theorem unlocks (flushes : Flushes s t caller) (s₁ : State) (tasks : s₁.tasks = s.tasks)
    (spawned : s₁.spawned = s.spawned) :
    Runs s t caller.body s₁.unlockFlush where
  alive := flushes.alive
  unborn := flushes.unborn
  own := .inl flushes.own
  lone := flushes.lone
  tasks := tasks
  spawned := spawned
  lock := by rw [flushes.holds, flushes.locked]; rfl

/-- It goes on to its next write. -/
theorem keeps (flushes : Flushes s t caller) (s₁ : State) (tasks : s₁.tasks = s.tasks)
    (lock : s₁.flushLock = s.flushLock)
    (inside : pc.inside = some caller.body) (evicts : pc.evicts = false) (holds : pc.holdsFlush = true) :
    Transfers s t (s₁.setPc t pc) := by
  refine Lands.settles ?_ flushes.alive flushes.unborn tasks
  refine ⟨fun body own => .inl ?_, fun _ => .inl flushes.writes, fun impossible => ?_,
    fun child cancelled at_ => absurd at_ (flushes.lone child cancelled), ?_, fun _ => .inl flushes.holds⟩
  · rw [← own, inside]
    exact flushes.own
  · rw [evicts] at impossible
    cases impossible
  · rw [lock, flushes.locked, holds]
    rfl

theorem nextRow (flushes : Flushes s t caller) (s₁ : State) (tasks : s₁.tasks = s.tasks)
    (spawned : s₁.spawned = s.spawned)
    (lock : s₁.flushLock = s.flushLock) (rest : List Accepted) : Transfers s t (s₁.nextRow cfg t caller rest) := by
  cases rest with
  | nil => exact (flushes.unlocks s₁ tasks spawned).afterFlush fun _ => .inl flushes.writes
  | cons item rest => exact flushes.keeps s₁ tasks lock rfl rfl rfl

theorem keepBatch (flushes : Flushes s t caller) (batch : List Accepted) :
    Transfers s t (s.keepBatch cfg t caller batch) := by
  have unlocked : Runs s t caller.body (s.requeue cfg batch).unlockFlush := flushes.unlocks _ rfl rfl
  unfold State.keepBatch
  dsimp only
  split
  · exact unlocked.failFlush _
  · exact unlocked.afterFlush fun _ => .inl flushes.writes

theorem cancelWrite (flushes : Flushes s t caller) (written batch : List Accepted) (tookEffect : Bool) :
    Transfers s t (s.cancelWrite cfg t caller written batch tookEffect) := by
  unfold State.cancelWrite
  cases tookEffect with
  | true => exact (flushes.unlocks ((s.persist (written.map Row.ofAccepted)).requeue cfg batch) rfl rfl).failFlush _
  | false => exact (flushes.unlocks (s.requeue cfg batch) rfl rfl).failFlush _

end Flushes

/-! ## Getting the lock -/

/-- The child task starts at the flush lock. -/
theorem starts_eviction (lands : Lands s t (.awaitingEviction s.spawned false) s₁.flushLock) (alive : t < s.spawned)
    (unborn : ∀ u, s.spawned ≤ u → s.pc u = .unborn) (tasks : s₁.tasks = s.tasks) (spawned : s₁.spawned = s.spawned)
    (cutoff : DateTime) (dryRun : Bool) : Transfers s t (s₁.startEviction t cutoff dryRun) := by
  unfold State.startEviction
  rw [spawned]
  refine ⟨by rwa [State.pc_setPc_self], fun u later => ?_⟩
  have other : u ≠ t := by omega
  rw [State.pc_setPc_ne other]
  by_cases child : u = s.spawned
  · subst child
    refine .inr (.inr ⟨cutoff, dryRun, false, ?_, State.pc_setPc_self⟩)
    simp [State.spawn, State.setPc, State.pc, spawned]
  · have before : s.pc u = .unborn := unborn u later
    refine .inl ?_
    simpa [State.spawn, State.setPc, State.pc, spawned, tasks, child] using before

theorem Runs.enterGated {gated : Gated} (runs : Runs s t (Waiting.gated gated).body s₁)
    (same : s₁.writesAllowed = s.writesAllowed) (allowed : s.writesAllowed = true) :
    Transfers s t (s₁.enterGated cfg t gated) := by
  cases gated with
  | storeMany telegrams =>
    refine runs.settles ?_ (fun _ => .inr allowed) rfl rfl
    rintro _ ⟨⟩
    rfl
  | optimize =>
    have flush : Runs s t FlushCaller.optimize.body s₁ := runs
    exact flush.startFlush same fun _ => allowed
  | evictOlderThan cutoff dryRun =>
    refine starts_eviction (runs.lands ?_ (fun _ => .inr allowed) rfl rfl) runs.alive runs.unborn
      runs.tasks runs.spawned _ _
    rintro _ ⟨⟩
    rfl
  | evictExpired cutoff dryRun =>
    cases cutoff with
    | none => exact runs.leaves _
    | some cutoff =>
      refine runs.settles ?_ (fun _ => .inr allowed) rfl rfl
      rintro _ ⟨⟩
      rfl
  | clear =>
    refine runs.settles ?_ (fun _ => .inr allowed) rfl rfl
    rintro _ ⟨⟩
    rfl

theorem Serial.transfers_mutation (serial : Serial s) {next : Waiting} (at_ : s.pc t = .mutation next)
    (taken : s.resume cfg t (.mutation next) outcome = some s') : Transfers s t s' := by
  have alive := serial.alive (t := t) (by simp [at_])
  have stays {pc : Pc} (inside : pc.inside = none) (quiet : pc.needsWrites = false) : Transfers s t (s.setPc t pc) := by
    refine Lands.settles ⟨?_, ?_, ?_, ?_, ?_, ?_⟩ alive serial.unborn rfl
    · rw [inside]
      exact nofun
    · rw [quiet]
      exact nofun
    · intro evicts
      rw [Pc.needsWrites_of_evicts evicts] at quiet
      cases quiet
    · rw [at_]
      exact nofun
    · have holds : pc.holdsFlush = false := by
        by_contra holds
        rw [Pc.needsWrites_of_holdsFlush (by simpa using holds)] at quiet
        cases quiet
      rw [holds, at_]
      simp [Pc.holdsFlush]
    · intro holds
      rw [Pc.needsWrites_of_holdsFlush holds] at quiet
      cases quiet
  rcases outcome with _ | _ | _ | _
  case cancelled.false => cases next <;> obtain rfl := Option.some.inj taken <;> exact stays rfl rfl
  case returned =>
    have locked : (if s.mutationLock then none
      else if s.closing ∧ ¬ next.isClose then some (s.refuse t next)
      else some (s.enter cfg t next)) = some s' := by cases next <;> exact taken
    split at locked
    · cases locked
    · rename_i free
      split at locked
      · obtain rfl := Option.some.inj locked
        cases next <;> exact stays rfl rfl
      · rename_i entitled
        obtain rfl := Option.some.inj locked
        have runs : Runs s t next.body (s.acquire t) := by
          refine ⟨alive, serial.unborn, .inr ⟨next, at_, rfl, by simpa using free, fun closing => ?_⟩, ?_, rfl, rfl, ?_⟩
          · by_contra refused
            exact entitled ⟨closing, refused⟩
          · rw [at_]
            exact nofun
          · rw [at_]
            simp [State.acquire, Pc.holdsFlush]
        cases next with
        | gated body =>
          unfold State.enter
          dsimp only
          split
          · rename_i allowed
            exact runs.enterGated rfl allowed
          · exact stays rfl rfl
        | flush reads =>
          have flush : Runs s t (FlushCaller.flush reads).body (s.acquire t) := runs
          exact flush.startFlush rfl (by simp)
        | flushLoop =>
          have flush : Runs s t FlushCaller.flushLoop.body (s.acquire t) := runs
          exact flush.startFlush rfl (by simp)
        | beginBackup =>
          unfold State.enter
          dsimp only
          split
          · rename_i allowed
            have flush : Runs s t FlushCaller.beginBackup.body (s.acquire t) := runs
            exact flush.startFlush rfl fun _ => allowed
          · exact stays rfl rfl
        | close =>
          unfold State.enter
          dsimp only
          split
          · have flush : Runs s t FlushCaller.close.body (s.acquire t) := runs
            exact flush.startFlush rfl (by simp)
          · have dropped : Runs s t .close ((s.acquire t).dropBuffer .neverInitialized) := runs.congr _ rfl rfl rfl
            exact dropped.closeBackend
  all_goals cases next <;> cases taken

/-! ## Every other await -/

theorem Serial.runs (serial : Serial s) (own : (s.pc t).inside = some body)
    (lone : ∀ child cancelled, s.pc t ≠ .awaitingEviction child cancelled) (holds : (s.pc t).holdsFlush = false) :
    Runs s t body s where
  alive := serial.alive fun unborn => by rw [unborn] at own; cases own
  unborn := serial.unborn
  own := .inl own
  lone := lone
  tasks := rfl
  spawned := rfl
  lock := by rw [holds, Bool.not_false, Bool.and_true]

theorem Serial.flushes (serial : Serial s) (own : (s.pc t).inside = some caller.body)
    (lone : ∀ child cancelled, s.pc t ≠ .awaitingEviction child cancelled) (holds : (s.pc t).holdsFlush = true)
    (locked : s.flushLock = true) : Flushes s t caller where
  alive := serial.alive fun unborn => by rw [unborn] at own; cases own
  unborn := serial.unborn
  own := own
  lone := lone
  writes := Pc.needsWrites_of_holdsFlush holds
  holds := holds
  locked := locked

theorem Flushes.write {rest : List Accepted} (rows : Bool) {phase : Phase} (flushes : Flushes s t caller)
    (taken : s.resume cfg t (.write caller rest rows phase) outcome = some s') : Transfers s t s' := by
  cases resume_write rows taken with
  | executed => cases rows <;> exact flushes.keeps s rfl rfl rfl rfl rfl
  | stored => exact flushes.nextRow (s.persist _) rfl rfl rfl _
  | split => exact flushes.nextRow s rfl rfl rfl rest
  | rejected => exact flushes.nextRow (s.giveUp (rest.take 1) .dataError) rfl rfl rfl _
  | kept => exact flushes.keepBatch rest
  | cancelled tookEffect => exact flushes.cancelWrite _ rest tookEffect

theorem Flushes.gate {batch : List Accepted} {rows : Bool} (flushes : Flushes s t caller)
    (taken : s.resume cfg t (.flushGate caller batch rows) outcome = some s') : Transfers s t s' := by
  rcases outcome with _ | _ | _ | _
  case returned =>
    obtain rfl := Option.some.inj taken
    split
    · exact flushes.keeps s rfl rfl rfl rfl rfl
    · split <;> exact flushes.keeps s rfl rfl rfl rfl rfl
  case cancelled.false =>
    obtain rfl := Option.some.inj taken
    exact flushes.cancelWrite [] batch false
  all_goals cases taken

/-- A task that is not inside the critical section, before or after. -/
theorem Serial.lands_outside (serial : Serial s) (born : s.pc t ≠ .unborn)
    (lone : ∀ child cancelled, s.pc t ≠ .awaitingEviction child cancelled)
    (tasks : s₁.tasks = s.tasks) (inside : pc.inside = none)
    (evicts : pc.needsWrites = true → (s.pc t).evicts = true)
    (lock : s₁.flushLock = (pc.holdsFlush || (s.flushLock && !(s.pc t).holdsFlush)))
    (free : pc.holdsFlush = true → (s.pc t).holdsFlush = true ∨ s.flushLock = false) :
    Transfers s t (s₁.setPc t pc) := by
  refine Lands.settles ?_ (serial.alive born) serial.unborn tasks
  refine ⟨fun body own => ?_, fun needs => .inl (Pc.needsWrites_of_evicts (evicts needs)),
    fun evicting => evicts (Pc.needsWrites_of_evicts evicting), fun child cancelled at_ => absurd at_
      (lone child cancelled), lock,
    free⟩
  rw [inside] at own
  cases own

/-- A task that has nothing to do with the critical section. -/
theorem Serial.idles (serial : Serial s) (born : s.pc t ≠ .unborn)
    (lone : ∀ child cancelled, s.pc t ≠ .awaitingEviction child cancelled)
    (tasks : s₁.tasks = s.tasks) (lock : s₁.flushLock = s.flushLock) (before : (s.pc t).holdsFlush = false)
    (inside : pc.inside = none) (quiet : pc.needsWrites = false) : Transfers s t (s₁.setPc t pc) := by
  have holds : pc.holdsFlush = false := by
    by_contra holds
    rw [Pc.needsWrites_of_holdsFlush (by simpa using holds)] at quiet
    cases quiet
  refine serial.lands_outside born lone tasks inside ?_ ?_ ?_
  · rw [quiet]
    exact nofun
  · rw [lock, holds, before, Bool.false_or, Bool.not_false, Bool.and_true]
  · rw [holds]
    exact nofun

theorem Serial.transfers_eviction (serial : Serial s) {child : ℕ} {cancelled : Bool}
    (at_ : s.pc t = .awaitingEviction child cancelled)
    (taken : s.resume cfg t (.awaitingEviction child cancelled) outcome = some s') : Transfers s t s' := by
  have alive := serial.alive (t := t) (by simp [at_])
  have own : ∀ {child' cancelled'}, s.pc t = .awaitingEviction child' cancelled' → child' = child := by
    intro child' cancelled' same
    cases at_.symm.trans same
    rfl
  have leaves (ended : s.isDone child = true) (result : Result) : Transfers s t (s.leave t result) := by
    refine Lands.settles ⟨nofun, nofun, nofun, fun child' _ same => .inr (own same ▸ ended), ?_, nofun⟩ alive
      serial.unborn rfl
    rw [at_]
    simp [Pc.holdsFlush, State.release]
  rcases outcome with _ | _ | _ | _
  case returned =>
    obtain ⟨result, done, rfl⟩ := resume_awaitingEviction taken
    exact leaves (State.isDone_of_done done) _
  case cancelled.false =>
    obtain rfl := Option.some.inj taken
    split
    · rename_i ended
      exact leaves ended _
    · refine Lands.settles ⟨?_, ?_, nofun, fun child' _ same => .inl ⟨true, by rw [own same]⟩, ?_, nofun⟩ alive
        serial.unborn rfl
      · rw [at_]
        exact fun _ same => .inl same
      · rw [at_]
        exact fun _ => .inl rfl
      · rw [at_]
        simp [Pc.holdsFlush]
  all_goals cases taken

/-- The awaits of the child task. -/
theorem Serial.transfers_child (serial : Serial s) (evicts : (s.pc t).evicts = true)
    (locked : (s.pc t).holdsFlush = true → s.flushLock = true)
    (taken : s.resume cfg t (s.pc t) outcome = some s') : Transfers s t s' := by
  have born : s.pc t ≠ .unborn := fun unborn => by rw [unborn] at evicts; cases evicts
  have lone : ∀ child cancelled, s.pc t ≠ .awaitingEviction child cancelled := by
    intro child cancelled at_
    rw [at_] at evicts
    cases evicts
  -- what is left of the eviction's result is in the pc alone
  have ends (s₁ : State) (tasks : s₁.tasks = s.tasks) (holds : (s.pc t).holdsFlush = true) (result : Result) :
      Transfers s t (s₁.unlockFlush.setPc t (.done result)) := by
    refine serial.lands_outside born lone tasks rfl nofun ?_ nofun
    rw [holds]
    simp [Pc.holdsFlush, State.unlockFlush]
  have goes (s₁ : State) (pc : Pc) (tasks : s₁.tasks = s.tasks) (lock : s₁.flushLock = s.flushLock)
      (inside : pc.inside = none) (before : (s.pc t).holdsFlush = true) (holds : pc.holdsFlush = true) :
      Transfers s t (s₁.setPc t pc) := by
    refine serial.lands_outside born lone tasks inside (fun _ => evicts) ?_ fun _ => .inl before
    rw [lock, locked before, holds]
    rfl
  have finishes (s₁ : State) (tasks : s₁.tasks = s.tasks) (holds : (s.pc t).holdsFlush = true)
    (cutoff : DateTime) (n : ℕ) :
      Transfers s t (s₁.finishEviction cfg t cutoff n) := by
    unfold State.finishEviction
    dsimp only
    split
    · exact ends s₁ tasks holds _
    · exact ends (s₁.dropOlder cfg cutoff) tasks holds _
  cases at_ : s.pc t <;> rw [at_] at taken evicts born lone <;> try (cases evicts; done)
  case evictLock cutoff dryRun =>
    rcases outcome with _ | _ | _ | _
    case returned =>
      have locks : (if s.flushLock then none else some ({ s with flushLock := true }.setPc t
          (if dryRun then .counting cutoff else .evicting cutoff .executing))) = some s' := taken
      split at locks
      · cases locks
      · rename_i free
        obtain rfl := Option.some.inj locks
        have idle : s.flushLock = false := by simpa using free
        refine serial.lands_outside (by rw [at_]; exact born) (by rw [at_]; exact lone) rfl (by cases dryRun <;> rfl)
          (fun _ => by rw [at_]; rfl) (by cases dryRun <;> rfl) fun _ => .inr idle
    case cancelled.false =>
      obtain rfl := Option.some.inj taken
      exact serial.idles (by rw [at_]; exact born) (by rw [at_]; exact lone) rfl rfl (by rw [at_]; rfl) rfl rfl
    all_goals cases taken
  case counting cutoff =>
    have holds : (s.pc t).holdsFlush = true := by rw [at_]; rfl
    rcases outcome with _ | _ | _ | _
    case cancelled.true => cases taken
    all_goals
      obtain rfl := Option.some.inj taken
      exact ends s rfl holds _
  case evicting cutoff phase =>
    have holds : (s.pc t).holdsFlush = true := by rw [at_]; rfl
    rcases outcome with _ | _ | _ | _
    case returned =>
      cases phase with
      | executing =>
        obtain rfl := Option.some.inj taken
        exact goes s _ rfl rfl rfl holds rfl
      | committing =>
        obtain rfl := Option.some.inj taken
        split
        · exact goes (s.deleteExpired cfg cutoff) _ rfl rfl rfl holds rfl
        · exact finishes (s.deleteExpired cfg cutoff) rfl holds _ _
    case raised =>
      have ended : some (s.unlockFlush.setPc t (.done .raised)) = some s' := by cases phase <;> exact taken
      obtain rfl := Option.some.inj ended
      exact ends s rfl holds _
    case cancelled.false =>
      have ended : some (s.unlockFlush.setPc t (.done .cancelled)) = some s' := by cases phase <;> exact taken
      obtain rfl := Option.some.inj ended
      exact ends s rfl holds _
    case cancelled.true =>
      cases phase with
      | executing => cases taken
      | committing =>
        obtain rfl := Option.some.inj taken
        exact ends (s.deleteExpired cfg cutoff) rfl holds _
  case refreshing cutoff deleted =>
    have holds : (s.pc t).holdsFlush = true := by rw [at_]; rfl
    rcases outcome with _ | _ | _ | _
    case cancelled.true => cases taken
    case returned =>
      obtain rfl := Option.some.inj taken
      exact finishes s rfl holds _ _
    all_goals
      obtain rfl := Option.some.inj taken
      exact ends s rfl holds _

theorem Serial.transfers_clearing (serial : Serial s) {phase : Phase} (at_ : s.pc t = .clearing phase)
    (locked : s.flushLock = true) (taken : s.resume cfg t (.clearing phase) outcome = some s') : Transfers s t s' := by
  have alive := serial.alive (t := t) (by simp [at_])
  have lone : ∀ child cancelled, s.pc t ≠ .awaitingEviction child cancelled := by simp [at_]
  have leaves (s₁ : State) (tasks : s₁.tasks = s.tasks) (spawned : s₁.spawned = s.spawned) (result : Result) :
      Transfers s t (s₁.unlockFlush.leave t result) := by
    have runs : Runs s t .clear s₁.unlockFlush :=
      ⟨alive, serial.unborn, .inl (by rw [at_]; rfl), lone, tasks, spawned, by rw [at_, locked]; rfl⟩
    exact runs.leaves result
  rcases outcome with _ | _ | _ | _
  case returned =>
    cases phase with
    | executing =>
      obtain rfl := Option.some.inj taken
      refine Lands.settles ⟨?_, ?_, nofun, fun child cancelled same => absurd same (lone child cancelled), ?_, ?_⟩ alive
        serial.unborn rfl
      · rw [at_]
        exact fun _ same => .inl same
      · rw [at_]
        exact fun _ => .inl rfl
      · rw [locked]
        rfl
      · rw [at_]
        exact fun _ => .inl rfl
    | committing =>
      obtain rfl := Option.some.inj taken
      exact leaves s.deleteAll rfl rfl _
  case raised =>
    have ended : some (s.unlockFlush.leave t .raised) = some s' := by cases phase <;> exact taken
    obtain rfl := Option.some.inj ended
    exact leaves s rfl rfl _
  case cancelled.false =>
    have ended : some (s.unlockFlush.leave t .cancelled) = some s' := by cases phase <;> exact taken
    obtain rfl := Option.some.inj ended
    exact leaves s rfl rfl _
  case cancelled.true =>
    cases phase with
    | executing => cases taken
    | committing =>
      obtain rfl := Option.some.inj taken
      exact leaves s.deleteAll rfl rfl _

/-- The bodies that hold no flush lock at their await. -/
theorem Serial.transfers_body (serial : Serial s) (inside : (s.pc t).holdsMutation = true)
    (lone : ∀ child cancelled, s.pc t ≠ .awaitingEviction child cancelled) (holds : (s.pc t).holdsFlush = false)
    (taken : s.resume cfg t (s.pc t) outcome = some s') : Transfers s t s' := by
  have runs {body : Body} (own : (s.pc t).inside = some body) : Runs s t body s := serial.runs own lone holds
  cases at_ : s.pc t <;> rw [at_] at taken inside lone holds runs <;>
    try first | (cases inside; done) | (cases holds; done)
  case flushLock caller =>
    have flush : Runs s t caller.body s := runs rfl
    rcases outcome with _ | _ | _ | _
    case returned =>
      have locks : (if s.flushLock then none else some (s.detachBatch cfg t caller)) = some s' := taken
      split at locks
      · cases locks
      · rename_i free
        obtain rfl := Option.some.inj locks
        exact flush.detachBatch (by simpa using free) (by rw [at_]; rfl)
    case cancelled.false =>
      obtain rfl := Option.some.inj taken
      exact flush.failFlush _
    all_goals cases taken
  case storing telegrams phase =>
    have store : Runs s t .storeMany s := runs rfl
    have persisted : Runs s t .storeMany (s.persist (telegrams.map Row.direct)) := store.congr _ rfl rfl rfl
    rcases outcome with _ | _ | _ | _
    case returned =>
      cases phase with
      | executing =>
        obtain rfl := Option.some.inj taken
        refine store.settles ?_ (fun _ => .inl (by rw [at_]; rfl)) rfl rfl
        rintro _ ⟨⟩
        rfl
      | committing =>
        obtain rfl := Option.some.inj taken
        exact persisted.leaves _
    case raised =>
      have ended : some (s.leave t .raised) = some s' := by cases phase <;> exact taken
      obtain rfl := Option.some.inj ended
      exact store.leaves _
    case cancelled.false =>
      have ended : some (s.leave t .cancelled) = some s' := by cases phase <;> exact taken
      obtain rfl := Option.some.inj ended
      exact store.leaves _
    case cancelled.true =>
      cases phase with
      | executing => cases taken
      | committing =>
        obtain rfl := Option.some.inj taken
        exact persisted.leaves _
  case optimizing =>
    have optimize : Runs s t .optimize s := runs rfl
    rcases outcome with _ | _ | _ | _
    case cancelled.true => cases taken
    all_goals
      obtain rfl := Option.some.inj taken
      exact optimize.leaves _
  case beginningBackup =>
    have backup : Runs s t .beginBackup s := runs rfl
    rcases outcome with _ | _ | _ | _
    case cancelled.true => cases taken
    case returned =>
      obtain rfl := Option.some.inj taken
      split
      · exact backup.leaves _
      · have held_off : Runs s t .beginBackup
            { s with writesAllowed := false, backupInProgress := cfg.backend == Backend.sqlite } :=
              backup.congr _ rfl rfl rfl
        exact held_off.leaves _
    all_goals
      obtain rfl := Option.some.inj taken
      exact backup.leaves _
  case evictGate cutoff dryRun =>
    have evict : Runs s t .evict s := runs rfl
    rcases outcome with _ | _ | _ | _
    case returned =>
      obtain rfl := Option.some.inj taken
      split
      · refine starts_eviction (evict.lands ?_ (fun _ => .inl (by rw [at_]; rfl)) rfl rfl) evict.alive
          evict.unborn rfl rfl _ _
        rintro _ ⟨⟩
        rfl
      · refine evict.settles ?_ (fun _ => .inl (by rw [at_]; rfl)) rfl rfl
        rintro _ ⟨⟩
        rfl
    case cancelled.false =>
      obtain rfl := Option.some.inj taken
      exact evict.leaves _
    all_goals cases taken
  case awaitingEviction child cancelled => exact absurd rfl (lone child cancelled)
  case clearLock =>
    have clear : Runs s t .clear s := runs rfl
    rcases outcome with _ | _ | _ | _
    case returned =>
      have locks : (if s.flushLock then none else
          some ({ s.dropBuffer .clear with flushLock := true }.setPc t (.clearing .executing))) = some s' := taken
      split at locks
      · cases locks
      · rename_i free
        obtain rfl := Option.some.inj locks
        refine Lands.settles ⟨?_, ?_, nofun, ?_, rfl, ?_⟩ clear.alive serial.unborn rfl
        · rw [at_]
          exact fun _ same => .inl same
        · rw [at_]
          exact fun _ => .inl rfl
        · rw [at_]
          exact nofun
        · exact fun _ => .inr (by simpa using free)
    case cancelled.false =>
      obtain rfl := Option.some.inj taken
      exact clear.leaves _
    all_goals cases taken
  case closeEndingBackup =>
    have close : Runs s t .close s := runs rfl
    have opened : Runs s t .close { s with writesAllowed := true } := close.congr _ rfl rfl rfl
    rcases outcome with _ | _ | _ | _
    case cancelled.true => cases taken
    case returned =>
      obtain rfl := Option.some.inj taken
      refine opened.settles ?_ nofun rfl rfl
      rintro _ ⟨⟩
      rfl
    all_goals
      obtain rfl := Option.some.inj taken
      exact opened.leaves _
  case closingBackend =>
    have close : Runs s t .close s := runs rfl
    rcases outcome with _ | _ | _ | _
    case cancelled.true => cases taken
    all_goals
      obtain rfl := Option.some.inj taken
      exact close.leaves _

/-- The awaits outside the critical section. -/
theorem Serial.transfers_outside (serial : Serial s) (outside : (s.pc t).holdsMutation = false)
    (evicts : (s.pc t).evicts = false) (taken : s.resume cfg t (s.pc t) outcome = some s') : Transfers s t s' := by
  have idles (s₁ : State) {pc : Pc} (born : s.pc t ≠ .unborn) (tasks : s₁.tasks = s.tasks)
      (lock : s₁.flushLock = s.flushLock) (inside : pc.inside = none) (quiet : pc.needsWrites = false) :
      Transfers s t (s₁.setPc t pc) := by
    refine serial.idles born ?_ tasks lock ?_ inside quiet
    · intro child cancelled same
      rw [same] at outside
      cases outside
    · by_contra holds
      rcases Pc.inside_or_evicts (Pc.needsWrites_of_holdsFlush (by simpa using holds)) with own | own
      · rw [own] at outside
        cases outside
      · rw [own] at evicts
        cases evicts
  cases at_ : s.pc t <;> rw [at_] at taken outside evicts idles <;>
    try first | (cases outside; done) | (cases evicts; done)
  case unborn => cases outcome <;> cases taken
  case done => cases outcome <;> cases taken
  case mutation next => exact serial.transfers_mutation at_ taken
  case gate =>
    rcases outcome with _ | _ | _ | _
    case returned => obtain rfl := Option.some.inj taken; exact idles s (by simp) rfl rfl rfl rfl
    case cancelled.false => obtain rfl := Option.some.inj taken; exact idles s (by simp) rfl rfl rfl rfl
    all_goals cases taken
  case sleeping =>
    rcases outcome with _ | _ | _ | _
    case returned => obtain rfl := Option.some.inj taken; exact idles s (by simp) rfl rfl rfl rfl
    case cancelled.false => obtain rfl := Option.some.inj taken; exact idles s (by simp) rfl rfl rfl rfl
    all_goals cases taken
  case reading =>
    rcases outcome with _ | _ | _ | _
    case cancelled.true => cases taken
    all_goals
      obtain rfl := Option.some.inj taken
      exact idles s (by simp) rfl rfl rfl rfl
  case endingBackup closing =>
    have ends (result : Result) : Transfers s t ({ s with writesAllowed := true }.setPc t (.done result)) :=
      idles { s with writesAllowed := true } (by simp) rfl rfl rfl rfl
    rcases outcome with _ | _ | _ | _
    case cancelled.true => cases closing <;> cases taken
    case returned =>
      cases closing with
      | false =>
        obtain rfl := Option.some.inj taken
        exact ends _
      | true =>
        obtain rfl := Option.some.inj taken
        unfold State.stopFlushTask
        split
        · exact idles { s with writesAllowed := true } (by simp) rfl rfl rfl rfl
        · rename_i task _
          obtain ⟨tasks, marked, same⟩ := State.requestCancel_frame { s with writesAllowed := true } task
          rw [marked]
          refine ⟨?_, fun u later => ?_⟩
          · have stopped : Transfers s t ({ s with writesAllowed := true }.setPc t (.awaitingFlushTask task)) :=
              idles _ (by simp) rfl rfl rfl rfl
            have lands := stopped.lands
            rw [State.pc_setPc_self] at lands ⊢
            exact lands
          · have alive := serial.alive (t := t) (by simp [at_])
            have other : u ≠ t := by omega
            rw [State.pc_setPc_ne other]
            exact .inl ((same u).trans (serial.unborn u later))
    case raised =>
      have ended : some ({ s with writesAllowed := true }.setPc t (.done .raised)) = some s' := by
        cases closing <;> exact taken
      obtain rfl := Option.some.inj ended
      exact ends _
    case cancelled.false =>
      have ended : some ({ s with writesAllowed := true }.setPc t (.done .cancelled)) = some s' := by
        cases closing <;> exact taken
      obtain rfl := Option.some.inj ended
      exact ends _
  case awaitingFlushTask task =>
    have awaited : (if s.isDone task then some ({ s with flushTask := none }.setPc t (.mutation .close))
        else none) = some s' := by
      rcases outcome with _ | _ | _ | _
      case returned => exact taken
      case cancelled.false => exact taken
      all_goals cases taken
    split at awaited
    · obtain rfl := Option.some.inj awaited
      exact idles { s with flushTask := none } (by simp) rfl rfl rfl rfl
    · cases awaited

/-- **Resuming a task** takes it where `Lands` says, and starts at most a timer
and the child of an eviction. -/
theorem Serial.transfers (serial : Serial s) (locked : (s.pc t).holdsFlush = true → s.flushLock = true)
    (taken : s.resume cfg t (s.pc t) outcome = some s') : Transfers s t s' := by
  by_cases evicts : (s.pc t).evicts = true
  · exact serial.transfers_child evicts locked taken
  · by_cases inside : (s.pc t).holdsMutation = true
    · by_cases holds : (s.pc t).holdsFlush = true
      · have flushes {caller : FlushCaller} (own : (s.pc t).inside = some caller.body)
            (lone : ∀ child cancelled, s.pc t ≠ .awaitingEviction child cancelled) : Flushes s t caller :=
          serial.flushes own lone holds (locked holds)
        cases at_ : s.pc t <;> rw [at_] at taken evicts inside holds flushes <;> try (cases holds; done)
        case flushGate => exact (flushes rfl (by simp)).gate taken
        case flushBatch => exact (flushes rfl (by simp)).write false taken
        case flushRow => exact (flushes rfl (by simp)).write true taken
        case clearing => exact serial.transfers_clearing at_ (locked (by rw [at_]; rfl)) taken
        all_goals exact absurd rfl evicts
      · cases at_ : s.pc t with
        | awaitingEviction child cancelled =>
          rw [at_] at taken
          exact serial.transfers_eviction at_ taken
        | _ =>
          refine serial.transfers_body inside ?_ (by simpa using holds) taken
          rw [at_]
          exact nofun
    · exact serial.transfers_outside (by simpa using inside) (by simpa using evicts) taken

end KnxTelegramStore.Buffered
