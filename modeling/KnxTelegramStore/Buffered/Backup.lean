import KnxTelegramStore.Buffered.Exclusion

/-!
What a backup isolates. `begin_backup()` clears `_writes_allowed` while it holds
the mutation lock, and whatever writes has asked for it there, so from then on
nothing reaches the backing store (`HeldOff`) until an `end_backup()` sets it
again. One that was already running does so too, whenever it is done; apart
from that a backup is isolated (`backup_isolates`).
-/
namespace KnxTelegramStore.Buffered
open EventMachine

variable {cfg : Config} {s s₁ s' : State} {t u : ℕ} {pc : Pc} {event : Event} {outcome : Outcome}
variable {caller : FlushCaller} {batch rest : List Accepted} {closing : Bool}

/-! ## Who sets the flags -/

/-- In an `end_backup()`, perhaps on behalf of `close()`. -/
def Pc.endsBackup : Pc → Bool
  | .endingBackup _ | .closeEndingBackup => true
  | _ => false

/-- A segment that leaves the flags of a backup alone, or finds one in
`SqliteStore.close` and starts to end it. -/
structure Unchanged (s : State) (t : ℕ) (s' : State) : Prop where
  writesAllowed : s'.writesAllowed = s.writesAllowed
  backup : (s'.pc t).endsBackup = false ∧ s'.backupInProgress = s.backupInProgress ∨
    s'.pc t = .closeEndingBackup ∧ s'.backupInProgress = false

theorem unchanged_setPc (allowed : s₁.writesAllowed = s.writesAllowed)
    (backup : s₁.backupInProgress = s.backupInProgress)
    (ends : pc.endsBackup = false) : Unchanged s t (s₁.setPc t pc) := by
  refine ⟨allowed, .inl ⟨?_, backup⟩⟩
  rwa [State.pc_setPc_self]

theorem Unchanged.congr (unchanged : Unchanged s₁ t s') (allowed : s₁.writesAllowed = s.writesAllowed)
    (backup : s₁.backupInProgress = s.backupInProgress) : Unchanged s t s' :=
  ⟨unchanged.writesAllowed.trans allowed, unchanged.backup.imp_left fun same => ⟨same.1, same.2.trans backup⟩⟩

theorem unchanged_leave (s : State) (t : ℕ) (result : Result) : Unchanged s t (s.leave t result) :=
  unchanged_setPc rfl rfl rfl

theorem unchanged_restarts (ends : pc.endsBackup = false) : Unchanged s t (s.resetTimer.setPc t pc) := by
  obtain ⟨tasks, spawned, flushTask, timer, _⟩ := s.resetTimer_frame
  refine unchanged_setPc ?_ ?_ ends
  · rw [timer]
  · rw [timer]

theorem unchanged_closeBackend (s : State) (t : ℕ) : Unchanged s t (s.closeBackend cfg t) := by
  unfold State.closeBackend
  split
  · split
    · exact unchanged_leave s t _
    · exact ⟨rfl, .inr ⟨State.pc_setPc_self, rfl⟩⟩
  · exact unchanged_setPc rfl rfl rfl

theorem unchanged_afterFlush (s : State) (t : ℕ) (caller : FlushCaller) :
    Unchanged s t (s.afterFlush cfg t caller) := by
  cases caller with
  | flush reads =>
    have released : Unchanged s.release t
      (s.release.resetTimer.setPc t (if reads then .reading else .done (.returned none))) :=
      unchanged_restarts (by cases reads <;> rfl)
    exact released.congr rfl rfl
  | flushLoop =>
    unfold State.afterFlush
    dsimp only
    split <;> exact unchanged_setPc rfl rfl rfl
  | optimize =>
    show Unchanged s t (s.resetTimer.setPc t .optimizing)
    exact unchanged_restarts rfl
  | beginBackup => exact unchanged_setPc rfl rfl rfl
  | close => exact unchanged_closeBackend s t

theorem unchanged_failFlush (s : State) (t : ℕ) (result : Result) (caller : FlushCaller) :
    Unchanged s t (s.failFlush t result caller) := by
  cases caller <;> exact unchanged_leave s t _

theorem unchanged_startFlush (s : State) (t : ℕ) (caller : FlushCaller) :
    Unchanged s t (s.startFlush cfg t caller) := by
  unfold State.startFlush
  split
  · exact unchanged_setPc rfl rfl rfl
  · exact unchanged_afterFlush s t caller

theorem unchanged_detachBatch (s : State) (t : ℕ) (caller : FlushCaller) :
    Unchanged s t (s.detachBatch cfg t caller) := by
  unfold State.detachBatch
  split
  · exact unchanged_afterFlush s t caller
  · exact unchanged_setPc rfl rfl rfl

theorem unchanged_nextRow (s : State) (t : ℕ) (caller : FlushCaller) (rest : List Accepted) :
    Unchanged s t (s.nextRow cfg t caller rest) := by
  cases rest with
  | nil => exact (unchanged_afterFlush s.unlockFlush t caller).congr rfl rfl
  | cons item rest => exact unchanged_setPc rfl rfl rfl

theorem unchanged_keepBatch (s : State) (t : ℕ) (caller : FlushCaller) (batch : List Accepted) :
    Unchanged s t (s.keepBatch cfg t caller batch) := by
  unfold State.keepBatch
  dsimp only
  split
  · exact (unchanged_failFlush (s.requeue cfg batch).unlockFlush t .raised caller).congr rfl rfl
  · exact (unchanged_afterFlush (s.requeue cfg batch).unlockFlush t caller).congr rfl rfl

theorem unchanged_cancelWrite (s : State) (t : ℕ) (caller : FlushCaller) (written batch : List Accepted)
    (tookEffect : Bool) : Unchanged s t (s.cancelWrite cfg t caller written batch tookEffect) := by
  unfold State.cancelWrite
  cases tookEffect <;> exact (unchanged_failFlush _ t .cancelled caller).congr rfl rfl

theorem unchanged_startEviction (s : State) (t : ℕ) (cutoff : DateTime) (dryRun : Bool) :
    Unchanged s t (s.startEviction t cutoff dryRun) :=
  unchanged_setPc rfl rfl rfl

theorem unchanged_finishEviction (s : State) (t : ℕ) (cutoff : DateTime) (deleted : ℕ) :
    Unchanged s t (s.finishEviction cfg t cutoff deleted) := by
  unfold State.finishEviction
  dsimp only
  split
  · exact unchanged_setPc rfl rfl rfl
  · exact unchanged_setPc rfl rfl rfl

theorem unchanged_enter (s : State) (t : ℕ) (next : Waiting) : Unchanged s t (s.enter cfg t next) := by
  cases next with
  | gated body =>
    unfold State.enter
    dsimp only
    split
    · cases body with
      | storeMany telegrams => exact unchanged_setPc rfl rfl rfl
      | optimize => exact (unchanged_startFlush (s.acquire t) t .optimize).congr rfl rfl
      | evictOlderThan cutoff dryRun => exact (unchanged_startEviction (s.acquire t) t cutoff dryRun).congr rfl rfl
      | evictExpired cutoff dryRun =>
        cases cutoff with
        | none => exact (unchanged_leave (s.acquire t) t _).congr rfl rfl
        | some cutoff => exact unchanged_setPc rfl rfl rfl
      | clear => exact unchanged_setPc rfl rfl rfl
    · exact unchanged_setPc rfl rfl rfl
  | flush reads => exact (unchanged_startFlush (s.acquire t) t (.flush reads)).congr rfl rfl
  | flushLoop => exact (unchanged_startFlush (s.acquire t) t .flushLoop).congr rfl rfl
  | beginBackup =>
    unfold State.enter
    dsimp only
    split
    · exact (unchanged_startFlush (s.acquire t) t .beginBackup).congr rfl rfl
    · exact unchanged_setPc rfl rfl rfl
  | close =>
    unfold State.enter
    dsimp only
    split
    · exact (unchanged_startFlush (s.acquire t) t .close).congr rfl rfl
    · exact (unchanged_closeBackend ((s.acquire t).dropBuffer .neverInitialized) t).congr rfl rfl

/-- What resuming a task does to the flags of a backup. -/
inductive Flagged (cfg : Config) (s : State) (t : ℕ) (outcome : Outcome) (s' : State) : Prop where
  | unchanged : Unchanged s t s' → Flagged cfg s t outcome s'
  | begun : s.pc t = .beginningBackup → outcome = .returned → s.backupInProgress = false →
      s'.writesAllowed = false → s'.pc t = .done (.returned none) → Flagged cfg s t outcome s'
  | ended : (∃ closing, s.pc t = .endingBackup closing) ∨ s.pc t = .closeEndingBackup → s'.writesAllowed = true →
      s'.backupInProgress = s.backupInProgress → (s'.pc t).endsBackup = false → Flagged cfg s t outcome s'

theorem unchanged_write (rows : Bool) {phase : Phase}
    (taken : s.resume cfg t (.write caller rest rows phase) outcome = some s') : Unchanged s t s' := by
  cases resume_write rows taken with
  | executed => cases rows <;> exact unchanged_setPc rfl rfl rfl
  | stored => exact (unchanged_nextRow (s.persist _) t caller _).congr rfl rfl
  | split => exact unchanged_nextRow s t caller rest
  | rejected => exact (unchanged_nextRow (s.giveUp (rest.take 1) .dataError) t caller _).congr rfl rfl
  | kept => exact unchanged_keepBatch s t caller rest
  | cancelled tookEffect => exact unchanged_cancelWrite s t caller _ rest tookEffect

/-- The child task of an eviction. -/
theorem flagged_child (evicts : (s.pc t).evicts = true) (taken : s.resume cfg t (s.pc t) outcome = some s') :
    Unchanged s t s' := by
  cases at_ : s.pc t <;> rw [at_] at taken evicts <;> try (cases evicts; done)
  case evictLock cutoff dryRun =>
    rcases outcome with _ | _ | _ | _
    case returned =>
      have locks : (if s.flushLock then none else some ({ s with flushLock := true }.setPc t
          (if dryRun then .counting cutoff else .evicting cutoff .executing))) = some s' := taken
      split at locks
      · cases locks
      · obtain rfl := Option.some.inj locks
        exact unchanged_setPc rfl rfl (by cases dryRun <;> rfl)
    case cancelled.false =>
      obtain rfl := Option.some.inj taken
      exact unchanged_setPc rfl rfl rfl
    all_goals cases taken
  case counting cutoff =>
    rcases outcome with _ | _ | _ | _
    case cancelled.true => cases taken
    all_goals
      obtain rfl := Option.some.inj taken
      exact unchanged_setPc rfl rfl rfl
  case evicting cutoff phase =>
    rcases outcome with _ | _ | _ | _
    case returned =>
      cases phase with
      | executing =>
        obtain rfl := Option.some.inj taken
        exact unchanged_setPc rfl rfl rfl
      | committing =>
        obtain rfl := Option.some.inj taken
        split
        · exact unchanged_setPc rfl rfl rfl
        · exact (unchanged_finishEviction (s.deleteExpired cfg cutoff) t cutoff _).congr rfl rfl
    case cancelled.true =>
      cases phase with
      | executing => cases taken
      | committing =>
        obtain rfl := Option.some.inj taken
        exact unchanged_setPc rfl rfl rfl
    all_goals
      cases phase <;>
        (obtain rfl := Option.some.inj taken
         exact unchanged_setPc rfl rfl rfl)
  case refreshing cutoff deleted =>
    rcases outcome with _ | _ | _ | _
    case cancelled.true => cases taken
    case returned =>
      obtain rfl := Option.some.inj taken
      exact unchanged_finishEviction s t cutoff deleted
    all_goals
      obtain rfl := Option.some.inj taken
      exact unchanged_setPc rfl rfl rfl

/-- **Who sets the flags of a backup**: a `begin_backup()` that returns, and an
`end_backup()` that is over. -/
theorem resume_flagged (taken : s.resume cfg t (s.pc t) outcome = some s') : Flagged cfg s t outcome s' := by
  by_cases evicts : (s.pc t).evicts = true
  · exact .unchanged (flagged_child evicts taken)
  cases at_ : s.pc t <;> rw [at_] at taken evicts <;> try exact absurd rfl evicts
  case unborn => cases outcome <;> cases taken
  case done => cases outcome <;> cases taken
  case flushBatch => exact .unchanged (unchanged_write false taken)
  case flushRow => exact .unchanged (unchanged_write true taken)
  case gate =>
    rcases outcome with _ | _ | _ | _
    case returned => obtain rfl := Option.some.inj taken; exact .unchanged (unchanged_setPc rfl rfl rfl)
    case cancelled.false => obtain rfl := Option.some.inj taken; exact .unchanged (unchanged_setPc rfl rfl rfl)
    all_goals cases taken
  case sleeping =>
    rcases outcome with _ | _ | _ | _
    case returned => obtain rfl := Option.some.inj taken; exact .unchanged (unchanged_setPc rfl rfl rfl)
    case cancelled.false => obtain rfl := Option.some.inj taken; exact .unchanged (unchanged_setPc rfl rfl rfl)
    all_goals cases taken
  case reading =>
    rcases outcome with _ | _ | _ | _
    case cancelled.true => cases taken
    all_goals
      obtain rfl := Option.some.inj taken
      exact .unchanged (unchanged_setPc rfl rfl rfl)
  case mutation next =>
    rcases outcome with _ | _ | _ | _
    case returned =>
      have locked : (if s.mutationLock then none
        else if s.closing ∧ ¬ next.isClose then some (s.refuse t next)
        else some (s.enter cfg t next)) = some s' := by cases next <;> exact taken
      split at locked
      · cases locked
      · split at locked
        · obtain rfl := Option.some.inj locked
          cases next <;> exact .unchanged (unchanged_setPc rfl rfl rfl)
        · obtain rfl := Option.some.inj locked
          exact .unchanged (unchanged_enter s t next)
    case cancelled.false =>
      cases next <;> (obtain rfl := Option.some.inj taken; exact .unchanged (unchanged_setPc rfl rfl rfl))
    all_goals cases next <;> cases taken
  case flushLock caller =>
    rcases outcome with _ | _ | _ | _
    case returned =>
      have locks : (if s.flushLock then none else some (s.detachBatch cfg t caller)) = some s' := taken
      split at locks
      · cases locks
      · obtain rfl := Option.some.inj locks
        exact .unchanged (unchanged_detachBatch s t caller)
    case cancelled.false =>
      obtain rfl := Option.some.inj taken
      exact .unchanged (unchanged_failFlush s t .cancelled caller)
    all_goals cases taken
  case flushGate caller batch rows =>
    rcases outcome with _ | _ | _ | _
    case returned =>
      obtain rfl := Option.some.inj taken
      refine .unchanged (unchanged_setPc rfl rfl ?_)
      split
      · rfl
      · split <;> rfl
    case cancelled.false =>
      obtain rfl := Option.some.inj taken
      exact .unchanged (unchanged_cancelWrite s t caller [] batch false)
    all_goals cases taken
  case storing telegrams phase =>
    rcases outcome with _ | _ | _ | tookEffect
    case returned =>
      cases phase <;> (obtain rfl := Option.some.inj taken; exact .unchanged (unchanged_setPc rfl rfl rfl))
    case cancelled.true =>
      cases phase with
      | executing => cases taken
      | committing =>
        obtain rfl := Option.some.inj taken
        exact .unchanged (unchanged_setPc rfl rfl rfl)
    all_goals
      cases phase <;> (obtain rfl := Option.some.inj taken; exact .unchanged (unchanged_setPc rfl rfl rfl))
  case optimizing =>
    rcases outcome with _ | _ | _ | _
    case cancelled.true => cases taken
    all_goals
      obtain rfl := Option.some.inj taken
      exact .unchanged (unchanged_leave s t _)
  case beginningBackup =>
    rcases outcome with _ | _ | _ | _
    case cancelled.true => cases taken
    case returned =>
      obtain rfl := Option.some.inj taken
      split
      · exact .unchanged (unchanged_leave s t _)
      · rename_i idle
        exact .begun at_ rfl (by simpa using idle) rfl State.pc_setPc_self
    all_goals
      obtain rfl := Option.some.inj taken
      exact .unchanged (unchanged_leave s t _)
  case endingBackup closing =>
    have ended {pc : Pc} (ends : pc.endsBackup = false) :
        Flagged cfg s t outcome ({ s with writesAllowed := true }.setPc t pc) := by
      refine .ended (.inl ⟨closing, at_⟩) rfl rfl ?_
      rwa [State.pc_setPc_self]
    rcases outcome with _ | _ | _ | _
    case cancelled.true => cases closing <;> cases taken
    case returned =>
      cases closing with
      | false =>
        obtain rfl := Option.some.inj taken
        exact ended rfl
      | true =>
        obtain rfl := Option.some.inj taken
        unfold State.stopFlushTask
        split
        · exact ended rfl
        · rename_i task _
          obtain ⟨tasks, marked, _⟩ := State.requestCancel_frame { s with writesAllowed := true } task
          rw [marked]
          refine .ended (.inl ⟨_, at_⟩) rfl rfl ?_
          rw [State.pc_setPc_self]
          rfl
    all_goals cases closing <;> (obtain rfl := Option.some.inj taken; exact ended rfl)
  case evictGate cutoff dryRun =>
    rcases outcome with _ | _ | _ | _
    case returned =>
      obtain rfl := Option.some.inj taken
      split
      · exact .unchanged (unchanged_startEviction s t cutoff dryRun)
      · exact .unchanged (unchanged_setPc rfl rfl rfl)
    case cancelled.false =>
      obtain rfl := Option.some.inj taken
      exact .unchanged (unchanged_leave s t _)
    all_goals cases taken
  case awaitingEviction child cancelled =>
    rcases outcome with _ | _ | _ | _
    case returned =>
      obtain ⟨result, _, rfl⟩ := resume_awaitingEviction taken
      exact .unchanged (unchanged_leave s t _)
    case cancelled.false =>
      obtain rfl := Option.some.inj taken
      split
      · exact .unchanged (unchanged_leave s t _)
      · exact .unchanged (unchanged_setPc rfl rfl rfl)
    all_goals cases taken
  case clearLock =>
    rcases outcome with _ | _ | _ | _
    case returned =>
      have locks : (if s.flushLock then none else
          some ({ s.dropBuffer .clear with flushLock := true }.setPc t (.clearing .executing))) = some s' := taken
      split at locks
      · cases locks
      · obtain rfl := Option.some.inj locks
        exact .unchanged (unchanged_setPc rfl rfl rfl)
    case cancelled.false =>
      obtain rfl := Option.some.inj taken
      exact .unchanged (unchanged_leave s t _)
    all_goals cases taken
  case clearing phase =>
    rcases outcome with _ | _ | _ | _
    case cancelled.true =>
      cases phase with
      | executing => cases taken
      | committing =>
        obtain rfl := Option.some.inj taken
        exact .unchanged (unchanged_setPc rfl rfl rfl)
    all_goals
      cases phase <;> (obtain rfl := Option.some.inj taken; exact .unchanged (unchanged_setPc rfl rfl rfl))
  case awaitingFlushTask task =>
    have awaited : (if s.isDone task then some ({ s with flushTask := none }.setPc t (.mutation .close))
        else none) = some s' := by
      rcases outcome with _ | _ | _ | _
      case returned => exact taken
      case cancelled.false => exact taken
      all_goals cases taken
    split at awaited
    · obtain rfl := Option.some.inj awaited
      exact .unchanged (unchanged_setPc rfl rfl rfl)
    · cases awaited
  case closeEndingBackup =>
    have ended {pc : Pc} (s₁ : State) (allowed : s₁.writesAllowed = true)
        (backup : s₁.backupInProgress = s.backupInProgress) (ends : pc.endsBackup = false) :
          Flagged cfg s t outcome (s₁.setPc t pc) := by
      refine .ended (.inr at_) allowed backup ?_
      rwa [State.pc_setPc_self]
    rcases outcome with _ | _ | _ | _
    case cancelled.true => cases taken
    case returned =>
      obtain rfl := Option.some.inj taken
      exact ended { s with writesAllowed := true } rfl rfl rfl
    all_goals
      obtain rfl := Option.some.inj taken
      exact ended ({ s with writesAllowed := true } : State).release rfl rfl rfl
  case closingBackend =>
    rcases outcome with _ | _ | _ | _
    case cancelled.true => cases taken
    all_goals
      obtain rfl := Option.some.inj taken
      exact .unchanged (unchanged_leave s t _)

/-- A step that resumes nobody, and is no call of `end_backup()` or `close()`,
leaves the flags alone. -/
theorem quiet_unchanged (taken : step cfg s event = some s') (notEnd : event ≠ .call .endBackup)
    (notClose : event ≠ .call .close) (notResume : ∀ t outcome, event ≠ .resume t outcome) :
    s'.writesAllowed = s.writesAllowed ∧ s'.backupInProgress = s.backupInProgress ∧
      ∀ u, (s'.pc u).endsBackup = true → s'.pc u = s.pc u := by
  have spawns (s₁ : State) {pc : Pc} (tasks : s₁.tasks = s.tasks) (ends : pc.endsBackup = false) (u : ℕ)
      (ending : ((s₁.setPc s.spawned pc).pc u).endsBackup = true) : (s₁.setPc s.spawned pc).pc u = s.pc u := by
    by_cases new : u = s.spawned
    · rw [new, State.pc_setPc_self, ends] at ending
      cases ending
    · rw [State.pc_setPc_ne new, State.pc, tasks]
      rfl
  cases event with
  | store telegram =>
    obtain rfl := Option.some.inj taken
    unfold State.store
    split <;> exact ⟨rfl, rfl, fun _ _ => rfl⟩
  | start =>
    obtain rfl := Option.some.inj taken
    unfold State.start
    split
    · exact ⟨rfl, rfl, fun _ _ => rfl⟩
    · exact ⟨rfl, rfl, spawns { s with spawned := s.spawned + 1, flushTask := some s.spawned } rfl rfl⟩
  | cancel t =>
    obtain rfl := Option.some.inj taken
    obtain ⟨tasks, marked, same⟩ := s.requestCancel_frame t
    rw [marked]
    exact ⟨rfl, rfl, fun u _ => same u⟩
  | call op =>
    obtain rfl := Option.some.inj taken
    have spawned {pc : Pc} (ends : pc.endsBackup = false) :
        (s.spawn pc).writesAllowed = s.writesAllowed ∧ (s.spawn pc).backupInProgress = s.backupInProgress ∧
          ∀ u, ((s.spawn pc).pc u).endsBackup = true → (s.spawn pc).pc u = s.pc u :=
      ⟨rfl, rfl, spawns { s with spawned := s.spawned + 1 } rfl ends⟩
    cases op with
    | endBackup => exact absurd rfl notEnd
    | close => exact absurd rfl notClose
    | query flushFirst => cases flushFirst <;> exact spawned rfl
    | _ => exact spawned rfl
  | resume t outcome => exact absurd rfl (notResume t outcome)

/-- The tasks that end a backup after a resumption. -/
theorem Nested.still_ending (nested : Nested s) (taken : s.resume cfg t (s.pc t) outcome = some s')
    (ending : (s'.pc u).endsBackup = true) : u = t ∨ u ≠ t ∧ s'.pc u = s.pc u := by
  by_cases own : u = t
  · exact .inl own
  · refine .inr ⟨own, ?_⟩
    by_cases older : u < s.spawned
    · exact (nested.serial.resume taken).others u own older
    · rcases (nested.serial.transfers (nested.locked t) taken).newborn u (Nat.le_of_not_lt older) with
        born | born | ⟨_, _, _, born, _⟩
      all_goals
        rw [born] at ending
        cases ending

/-! ## While a backup holds off writes -/

/-- An `end_backup()` or a `close()` begins, the former perhaps on behalf of
`SqliteStore.close`. -/
def EndsBackup (cfg : Config) (s : State) (event : Event) : Prop :=
  event = .call .endBackup ∨ event = .call .close ∨
    ∃ s' t, step cfg s event = some s' ∧ s'.pc t = .closeEndingBackup ∧ s.pc t ≠ .closeEndingBackup

/-- Writes are held off, and nobody is about to allow them again. -/
structure HeldOff (s : State) : Prop where
  nested : Nested s
  writesAllowed : s.writesAllowed = false
  ending : ∀ t, (s.pc t).endsBackup = false

/-- Nobody is where writes are needed. -/
theorem HeldOff.idle (held : HeldOff s) (t : ℕ) : (s.pc t).needsWrites = false := by
  by_contra needs
  have allowed := held.nested.allowed t (by simpa using needs)
  rw [held.writesAllowed] at allowed
  cases allowed

theorem HeldOff.step (held : HeldOff s) (going : ¬ EndsBackup cfg s event) (taken : step cfg s event = some s') :
    HeldOff s' := by
  have nested := held.nested.step taken
  by_cases quiet : ∀ t outcome, event ≠ .resume t outcome
  · obtain ⟨allowed, _, same⟩ := quiet_unchanged taken (fun ends => going (.inl ends))
      (fun closes => going (.inr (.inl closes))) quiet
    refine ⟨nested, allowed.trans held.writesAllowed, fun u => ?_⟩
    by_contra ending
    have before := same u (by simpa using ending)
    rw [before, held.ending u] at ending
    exact ending rfl
  · push Not at quiet
    obtain ⟨t, outcome, rfl⟩ := quiet
    have resumed := (step_resume taken).2
    have others (own : (s'.pc t).endsBackup = false) : ∀ u, (s'.pc u).endsBackup = false := by
      intro u
      by_contra ending
      have ending' : (s'.pc u).endsBackup = true := by simpa using ending
      rcases held.nested.still_ending resumed ending' with rfl | ⟨_, before⟩
      · exact ending own
      · rw [before, held.ending u] at ending'
        cases ending'
    rcases resume_flagged resumed with unchanged | ⟨at_, _⟩ | ⟨either, _⟩
    · refine ⟨nested, unchanged.writesAllowed.trans held.writesAllowed, ?_⟩
      rcases unchanged.backup with ⟨own, _⟩ | ⟨begun, _⟩
      · exact others own
      · have before : s.pc t ≠ .closeEndingBackup := by
          intro at_
          have ending := held.ending t
          rw [at_] at ending
          cases ending
        exact absurd (.inr (.inr ⟨s', t, taken, begun, before⟩)) going
    · have idle := held.idle t
      rw [at_] at idle
      cases idle
    · have ending := held.ending t
      rcases either with ⟨closing, at_⟩ | at_
      all_goals
        rw [at_] at ending
        cases ending

/-- A `_flush()` of its own, by a call or by the periodic task. -/
def Waiting.flushes : Waiting → Bool
  | .flush _ | .flushLoop => true
  | _ => false

/-- Where a flush leaves its task. -/
def Pc.flushOver : Pc → Bool
  | .done _ | .reading | .sleeping => true
  | _ => false

/-- What a backup in progress means for the tasks. -/
structure Isolated (cfg : Config) (s : State) : Prop where
  /-- no method of the backing store is running but its `close` -/
  calls : ∀ t, (s.pc t).backendCall ≠ none → s.pc t = .closingBackend
  /-- nobody waits for the end of the backup with the lock in hand -/
  lock : ∀ t, (s.pc t).holdsMutation = true → s.pc t = .closingBackend
  /-- a flush that gets the lock is over at once, and touches nothing -/
  flushes : ∀ t next, s.pc t = .mutation next → next.flushes = true → s.mutationLock = false →
    ∃ s', s.resume cfg t (.mutation next) .returned = some s' ∧ s'.buffer = s.buffer ∧ s'.table = s.table ∧
      (s'.pc t).flushOver = true ∧ (s.closing = false → s'.pc t ≠ .done .raised)

theorem flush_held_off (s : State) (t : ℕ) {next : Waiting} (flush : next.flushes = true)
    (held : s.writesAllowed = false) :
    (s.enter cfg t next).buffer = s.buffer ∧ (s.enter cfg t next).table = s.table ∧
      ((s.enter cfg t next).pc t).flushOver = true ∧ (s.enter cfg t next).pc t ≠ .done .raised := by
  have released (s₁ : State) : ∃ tasks spawned flushTask, s₁.resetTimer = { s₁ with tasks, spawned, flushTask } := by
    obtain ⟨tasks, spawned, flushTask, timer, _⟩ := s₁.resetTimer_frame
    exact ⟨tasks, spawned, flushTask, timer⟩
  cases next <;> try (cases flush; done)
  case flush reads =>
    have skipped : s.enter cfg t (.flush reads) = (s.acquire t).release.resetTimer.setPc t
        (if reads then .reading else .done (.returned none)) := by
      simp [State.enter, State.startFlush, State.acquire, held, State.afterFlush]
    rw [skipped]
    obtain ⟨tasks, spawned, flushTask, timer⟩ := released (s.acquire t).release
    rw [timer, State.pc_setPc_self]
    cases reads <;> exact ⟨rfl, rfl, rfl, by rintro ⟨⟩⟩
  case flushLoop =>
    have skipped : s.enter cfg t .flushLoop = (s.acquire t).release.setPc t
        (if s.closing then .done (.returned none) else .sleeping) := by
      simp [State.enter, State.startFlush, State.acquire, held, State.afterFlush]
    rw [skipped, State.pc_setPc_self]
    cases s.closing <;> exact ⟨rfl, rfl, rfl, by rintro ⟨⟩⟩

theorem HeldOff.isolated (held : HeldOff s) : Isolated cfg s where
  calls t calls := by
    have idle := held.idle t
    have ending := held.ending t
    cases at_ : s.pc t <;> rw [at_] at idle ending calls <;>
      first | rfl | (cases idle; done) | (cases ending; done) | exact absurd rfl calls
  lock t inside := by
    have idle := held.idle t
    have ending := held.ending t
    cases at_ : s.pc t <;> rw [at_] at idle ending inside <;>
      first | rfl | (cases idle; done) | (cases ending; done) | cases inside
  flushes t next at_ flush free := by
    have waits : s.resume cfg t (.mutation next) .returned = if s.mutationLock then none
        else if s.closing ∧ ¬ next.isClose then some (s.refuse t next) else some (s.enter cfg t next) := by
      cases next <;> rfl
    rw [waits, free]
    simp only [Bool.false_eq_true, if_false]
    split
    · rename_i refused
      refine ⟨_, rfl, ?_⟩
      have over_ : ((s.refuse t next).pc t).flushOver = true := by
        cases next <;> exact congrArg Pc.flushOver State.pc_setPc_self
      refine ⟨by cases next <;> rfl, by cases next <;> rfl, over_, fun going => ?_⟩
      rw [going] at refused
      exact absurd refused.1 Bool.false_ne_true
    · obtain ⟨buffer, table, over_, notRaised⟩ : (s.enter cfg t next).buffer = s.buffer ∧ _ ∧ _ ∧ _ :=
        flush_held_off s t flush held.writesAllowed
      exact ⟨_, rfl, buffer, table, over_, fun _ => notRaised⟩

/-! ## A `begin_backup()` that fails -/

/-- No `end_backup()` is still running when a `begin_backup()` returns. -/
def Apart (s : State) (event : Event) : Prop :=
  ∀ t, event = .resume t .returned → s.pc t = .beginningBackup → ∀ u, (s.pc u).endsBackup = false

/-- The backing store has a backup in progress only while the mixin does, and
none any more that somebody is ending. -/
structure Matched (s : State) : Prop where
  nested : Nested s
  open_ : s.writesAllowed = true → s.backupInProgress = false
  ending : ∀ t, (s.pc t).endsBackup = true → s.backupInProgress = false

theorem Matched.init (initialized : Bool) : Matched (State.init initialized) :=
  ⟨.init initialized, fun _ => rfl, fun _ _ => rfl⟩

/-- `end_backup()` called while writes are held off. -/
theorem matched_endBackup (s : State) (t : ℕ) (nested : Nested (s.endBackup cfg t closing)) :
    Matched (s.endBackup cfg t closing) := by
  revert nested
  unfold State.endBackup
  intro nested
  split at nested
  · rename_i idle
    rw [if_pos idle]
    have none_ : s.backupInProgress = false := by simpa using idle.2
    exact ⟨nested, fun _ => none_, fun _ _ => none_⟩
  · rename_i busy
    rw [if_neg busy]
    exact ⟨nested, fun _ => rfl, fun _ _ => rfl⟩

/-- What neither flag nor task notices. -/
theorem Matched.frame (matched : Matched s) (nested : Nested s') (allowed : s'.writesAllowed = s.writesAllowed)
    (backup : s'.backupInProgress = s.backupInProgress)
    (same : ∀ u, (s'.pc u).endsBackup = true → s'.pc u = s.pc u) : Matched s' where
  nested := nested
  open_ writes := backup.trans (matched.open_ (allowed.symm.trans writes))
  ending u ends := backup.trans (matched.ending u (same u ends ▸ ends))

theorem Matched.called (matched : Matched s) {op : Op} (nested : Nested (s.call cfg op)) : Matched (s.call cfg op) := by
  have spawned (s₁ : State) (tasks : s₁.tasks = s.tasks) {pc : Pc} (ends : pc.endsBackup = false) (u : ℕ)
      (ending : ((s₁.setPc s.spawned pc).pc u).endsBackup = true) : (s₁.setPc s.spawned pc).pc u = s.pc u := by
    by_cases new : u = s.spawned
    · rw [new, State.pc_setPc_self, ends] at ending
      cases ending
    · rw [State.pc_setPc_ne new, State.pc, tasks]
      rfl
  by_cases ends : op = .endBackup
  · subst ends
    revert nested
    unfold State.call
    dsimp only
    intro nested
    split at nested
    · rename_i allowed
      rw [if_pos allowed]
      exact matched.frame nested rfl rfl (spawned { s with spawned := s.spawned + 1 } rfl rfl)
    · rename_i held
      rw [if_neg held]
      exact matched_endBackup _ _ nested
  by_cases closes : op = .close
  · subst closes
    revert nested
    unfold State.call State.startClose
    dsimp only
    intro nested
    split at nested
    · rename_i allowed
      rw [if_pos allowed]
      revert nested
      unfold State.stopFlushTask
      split
      · intro nested
        exact matched.frame nested rfl rfl (spawned { s with spawned := s.spawned + 1, closing := true } rfl rfl)
      · rename_i task _
        obtain ⟨tasks, marked, same⟩ :=
          State.requestCancel_frame { s with spawned := s.spawned + 1, closing := true } task
        rw [marked]
        intro nested
        refine matched.frame nested rfl rfl fun u ending => ?_
        by_cases new : u = s.spawned
        · rw [new, State.pc_setPc_self] at ending
          cases ending
        · rw [State.pc_setPc_ne new]
          exact same u
    · rename_i held
      rw [if_neg held]
      exact matched_endBackup _ _ nested
  · have called : step cfg s (.call op) = some (s.call cfg op) := rfl
    obtain ⟨allowed, backup, same⟩ := quiet_unchanged called
      (fun same => ends (Event.call.inj same)) (fun same => closes (Event.call.inj same)) (by rintro _ _ ⟨⟩)
    exact matched.frame nested allowed backup same

theorem Matched.step (matched : Matched s) (apart : Apart s event) (taken : step cfg s event = some s') :
    Matched s' := by
  have nested := matched.nested.step taken
  cases event with
  | call op =>
    obtain rfl := Option.some.inj taken
    exact matched.called nested
  | resume t outcome =>
    have resumed := (step_resume taken).2
    have still {u : ℕ} (ending : (s'.pc u).endsBackup = true) := matched.nested.still_ending resumed ending
    have old {u : ℕ} (own : (s'.pc t).endsBackup = false) (ending : (s'.pc u).endsBackup = true) :
        (s.pc u).endsBackup = true := by
      rcases still ending with rfl | ⟨_, before⟩
      · rw [own] at ending
        cases ending
      · exact before ▸ ending
    rcases resume_flagged resumed with unchanged | ⟨at_, returned, idle, held, ended⟩ | ⟨either, allowed, same, own⟩
    · rcases unchanged.backup with ⟨own, same⟩ | ⟨_, idle⟩
      · exact ⟨nested, fun writes => same.trans (matched.open_ (unchanged.writesAllowed.symm.trans writes)),
          fun u ending => same.trans (matched.ending u (old own ending))⟩
      · exact ⟨nested, fun _ => idle, fun _ _ => idle⟩
    · refine ⟨nested, fun writes => ?_, fun u ending => ?_⟩
      · rw [held] at writes
        cases writes
      · have before := old (by rw [ended]; rfl) ending
        rw [apart t (by rw [returned]) at_ u] at before
        cases before
    · have idle : s'.backupInProgress = false := by
        rw [same]
        refine matched.ending t ?_
        rcases either with ⟨closing, at_⟩ | at_
        all_goals
          rw [at_]
          rfl
      exact ⟨nested, fun _ => idle, fun _ _ => idle⟩
  | store telegram =>
    obtain ⟨allowed, backup, same⟩ := quiet_unchanged taken nofun nofun nofun
    exact matched.frame nested allowed backup same
  | start =>
    obtain ⟨allowed, backup, same⟩ := quiet_unchanged taken nofun nofun nofun
    exact matched.frame nested allowed backup same
  | cancel t =>
    obtain ⟨allowed, backup, same⟩ := quiet_unchanged taken nofun nofun nofun
    exact matched.frame nested allowed backup same

/-- In a `begin_backup()` that has not returned. -/
def Pc.beginsBackup : Pc → Bool
  | .mutation .beginBackup => true
  | pc => pc.inside == some .beginBackup

/-- A `begin_backup()` fails in a step: the flags stay as it found them, and if
it had passed its check, writes are allowed and no backup is in progress. -/
structure LeftAlone (s : State) (t : ℕ) (s' : State) : Prop where
  writesAllowed : s'.writesAllowed = s.writesAllowed
  backupInProgress : s'.backupInProgress = s.backupInProgress
  passed : (s.pc t).inside = some .beginBackup → s'.writesAllowed = true ∧ s'.backupInProgress = false

theorem Matched.fails (matched : Matched s) (begins : (s.pc t).beginsBackup = true) {result : Result}
    (taken : s.resume cfg t (s.pc t) outcome = some s') (failed : s'.pc t = .done result)
    (unsuccessful : ∀ count, result ≠ .returned count) : LeftAlone s t s' := by
  rcases resume_flagged taken with unchanged | ⟨_, _, _, _, ended⟩ | ⟨either, _⟩
  · rcases unchanged.backup with ⟨_, same⟩ | ⟨closing, _⟩
    · refine ⟨unchanged.writesAllowed, same, fun inside => ?_⟩
      have writes : s.writesAllowed = true := by
        refine matched.nested.allowed t ?_
        cases at_ : s.pc t <;> rw [at_] at inside <;> first | rfl | cases inside
      exact ⟨unchanged.writesAllowed.trans writes, same.trans (matched.open_ writes)⟩
    · rw [failed] at closing
      cases closing
  · rw [failed] at ended
    exact absurd (Pc.done.inj ended) (unsuccessful none)
  · rcases either with ⟨closing, at_⟩ | at_
    all_goals
      rw [at_] at begins
      cases begins

/-! ## Isolation -/

/-- A `begin_backup()` that returns starts to hold off writes. -/
theorem heldOff_begun (nested : Nested s) (apart : Apart s (.resume t .returned)) (at_ : s.pc t = .beginningBackup)
    (taken : step cfg s (.resume t .returned) = some s') (returned : s'.pc t = .done (.returned none)) :
    HeldOff s' := by
  have resumed := (step_resume taken).2
  have writesAllowed : s'.writesAllowed = false := by
    have begun := resumed
    rw [at_] at begun
    obtain rfl := Option.some.inj begun
    split at returned
    · rw [State.leave, State.pc_setPc_self] at returned
      cases returned
    · rename_i idle
      rw [if_neg idle]
      rfl
  refine ⟨nested.step taken, writesAllowed, fun u => ?_⟩
  by_contra ending
  have ending' : (s'.pc u).endsBackup = true := by simpa using ending
  rcases nested.still_ending resumed ending' with rfl | ⟨_, before⟩
  · rw [returned] at ending'
    cases ending'
  · rw [before, apart t rfl at_ u] at ending'
    cases ending'

/-- **Backup isolation.** As long as no `end_backup()` is still running when a
`begin_backup()` returns, writes are held off from that return until the next
`end_backup()` or `close()` begins, and a `begin_backup()` that fails changes
nothing. -/
theorem backup_isolates {initialized : Bool} {events : List Event} (ran : run cfg initialized events = some s)
    (apart : Along (step cfg) Apart (State.init initialized) events) :
    (∀ before during t s₀ s₁, events = before ++ .resume t .returned :: during →
      run cfg initialized before = some s₀ → s₀.pc t = .beginningBackup →
      step cfg s₀ (.resume t .returned) = some s₁ → s₁.pc t = .done (.returned none) →
      Along (step cfg) (fun s event => ¬ EndsBackup cfg s event) s₁ during →
      s.writesAllowed = false ∧ Isolated cfg s) ∧
    ∀ t outcome result s', step cfg s (.resume t outcome) = some s' → (s.pc t).beginsBackup = true →
      s'.pc t = .done result → (∀ count, result ≠ .returned count) → LeftAlone s t s' := by
  constructor
  · rintro before during t s₀ s₁ rfl reached at_ taken returned held
    obtain ⟨s₀', reached', rest⟩ := run_append.mp ran
    cases reached.symm.trans reached'
    obtain ⟨s₁', taken', later⟩ := run_cons.mp rest
    cases taken.symm.trans taken'
    have apart₀ := (along_append apart reached).2.1
    have begun := heldOff_begun (run_nested reached) apart₀ at_ taken returned
    have heldOff : HeldOff s :=
      run_invariant (fun _ _ _ held going taken => held.step going taken) begun held later
    exact ⟨heldOff.writesAllowed, heldOff.isolated⟩
  · intro t outcome result s' taken begins failed unsuccessful
    have matched : Matched s :=
      run_invariant (fun _ _ _ matched met taken => matched.step met taken) (.init initialized) apart ran
    exact matched.fails begins (step_resume taken).2 failed unsuccessful

/-- A `begin_backup()` up to its hand-over to the backing store. -/
def beginning : List Event := [.call .beginBackup, .resume 0 .returned, .resume 0 .returned]

theorem beginning_apart :
    Along (step sampleConfig) Apart (State.init true) (beginning ++ [.resume 0 .returned, .store sampleTelegram]) := by
  refine ⟨nofun, fun _ taken => ?_⟩
  cases taken
  iterate 2
    refine ⟨fun _ same at_ => (by cases same; cases at_), fun _ taken => ?_⟩
    cases taken
  refine ⟨fun _ _ _ u => ?_, fun _ taken => ?_⟩
  · cases u <;> rfl
  · cases taken
    exact ⟨nofun, fun _ _ => trivial⟩

theorem stored_during_backup :
    ∃ s₀ s₁ s, run sampleConfig true beginning = some s₀ ∧ step sampleConfig s₀ (.resume 0 .returned) = some s₁ ∧
      EventMachine.run (step sampleConfig) s₁ [.store sampleTelegram] = some s ∧ s.buffer.length = 1 ∧
      s.writesAllowed = false ∧ Isolated sampleConfig s := by
  obtain ⟨s₀, reached, at_⟩ : ∃ s₀, run sampleConfig true beginning = some s₀ ∧
    s₀.pc 0 = .beginningBackup := ⟨_, rfl, rfl⟩
  obtain ⟨s₁, begun, returned⟩ : ∃ s₁, step sampleConfig s₀ (.resume 0 .returned) = some s₁ ∧
      s₁.pc 0 = .done (.returned none) := by
    cases reached
    exact ⟨_, rfl, rfl⟩
  obtain ⟨s, stored, buffered⟩ : ∃ s, EventMachine.run (step sampleConfig) s₁ [.store sampleTelegram] = some s ∧
      s.buffer.length = 1 := by
    cases reached
    cases begun
    exact ⟨_, rfl, rfl⟩
  have ran : run sampleConfig true (beginning ++ [.resume 0 .returned, .store sampleTelegram]) = some s :=
    run_append.mpr ⟨s₀, reached, run_cons.mpr ⟨s₁, begun, stored⟩⟩
  have going : Along (step sampleConfig)
    (fun s event => ¬ EndsBackup sampleConfig s event) s₁ [.store sampleTelegram] := by
    refine ⟨?_, fun _ _ => trivial⟩
    rintro (ends | ends | ⟨s', t, taken, at_, before⟩)
    · cases ends
    · cases ends
    · obtain ⟨_, _, same⟩ := quiet_unchanged taken nofun nofun nofun
      exact before ((same t (by rw [at_]; rfl)).symm.trans at_)
  obtain ⟨held, isolated⟩ := (backup_isolates ran beginning_apart).1 _ _ 0 s₀ s₁ rfl reached at_ begun returned going
  exact ⟨s₀, s₁, s, reached, begun, stored, buffered, held, isolated⟩

/-- Two `end_backup()` calls: the second raises while the first is still
releasing the backing store, and sets the flag all the same. A backup that
begins then is ended by the first, and a write gets through during it; another
`begin_backup()` raises while writes are held off. -/
theorem overlapping_end_lets_write_through :
    (∃ s₀ s₁ s, run sampleConfig true
        [.call .beginBackup, .resume 0 .returned, .resume 0 .returned, .resume 0 .returned, .call .endBackup,
          .call .endBackup, .call .beginBackup, .resume 3 .returned, .resume 3 .returned] = some s₀ ∧
      s₀.pc 3 = .beginningBackup ∧ step sampleConfig s₀ (.resume 3 .returned) = some s₁ ∧
      s₁.pc 3 = .done (.returned none) ∧ s₁.backupInProgress = true ∧
      EventMachine.run (step sampleConfig) s₁
        [.resume 1 .returned, .call (.storeMany [sampleTelegram]), .resume 4 .returned, .resume 4 .returned] = some s ∧
      (s.pc 4).backendCall = some .storeMany ∧ s.backupInProgress = true) ∧
    ∃ s, run sampleConfig true
        [.call .beginBackup, .resume 0 .returned, .resume 0 .returned, .resume 0 .returned, .call .beginBackup,
          .resume 1 .returned] = some s ∧
      s.pc 1 = .done .raised ∧ s.writesAllowed = false ∧ s.backupInProgress = true :=
  ⟨⟨_, _, _, rfl, rfl, rfl, rfl, rfl, rfl, rfl, rfl⟩, _, rfl, rfl, rfl, rfl⟩

end KnxTelegramStore.Buffered
