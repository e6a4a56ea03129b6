import KnxTelegramStore.Buffered.Conservation

/-!
What `close()` achieves. From the moment it is called no telegram is accepted,
so the buffer its final flush empties stays empty. The flush only happens if
writes are allowed when it starts. `close()` looks at that before it waits for
the mutation lock, and a `begin_backup()` that is already past the lock takes
the permission away in between. In every other run `close()` drains
(`close_drains`).
-/
namespace KnxTelegramStore.Buffered
open WriteBehind EventMachine

variable {cfg : Config} {s s' : State} {t closer : ℕ} {event : Event} {outcome : Outcome}
variable {caller : FlushCaller} {batch rest : List Accepted}

/-- No `begin_backup()` holds off writes once the store is closing. -/
def NoLateBackup (s : State) (event : Event) : Prop :=
  s.closing = true → ∀ t, event = .resume t .returned → s.pc t = .beginningBackup → s.backupInProgress = true

/-- How far `close()` has come, in the state its task is suspended in. -/
def State.Closing (s : State) : Pc → Prop
  | .endingBackup true => True
  | .awaitingFlushTask _ | .mutation .close | .flushLock .close => s.writesAllowed = true
  | .flushGate .close .. | .flushBatch .close .. | .flushRow .close .. =>
    s.writesAllowed = true ∧ s.buffer = []
  | .closingBackend | .done (.returned _) => s.writesAllowed = true ∧ s.ledger.pending = []
  | .done _ => True
  | _ => False

structure CloseProgress (s : State) (closer : ℕ) : Prop where
  serial : Serial s
  closing : s.closing = true
  initialized : s.initialized = true
  alive : closer < s.spawned
  progress : s.Closing (s.pc closer)

/-- What `close()` has achieved so far is not undone by another task. -/
theorem State.Closing.frame {pc : Pc} (closing : s.Closing pc)
    (allowed : s.writesAllowed = true → s'.writesAllowed = true)
    (empty : pc.holdsMutation = true → s.buffer = [] → s'.buffer = [])
    (drained : s.ledger.pending = [] → s'.ledger.pending = []) : s'.Closing pc := by
  unfold State.Closing at closing ⊢
  split at closing <;> simp_all [Pc.holdsMutation]

/-! ## The steps of other tasks -/

/-- A task that is not in the critical section puts nothing into the buffer
but what it accepts. -/
theorem Effect.empties {after : Ledger Accepted DropReason}
    (effect : Effect cfg s (.resume t outcome) after) (outside : (s.pc t).holdsMutation = false)
    (empty : s.buffer = []) : after.buffer = [] := by
  cases effect with
  | requeue _ _ _ inside => simp [inside] at outside
  | double _ _ _ writes =>
    have inside : (s.pc t).holdsMutation = true := by
      cases at_ : s.pc t <;> first | rfl | simp [at_, Pc.writes] at writes
    simp [inside] at outside
  | detach => rfl
  | evictBuffered => simp [State.ledgerWith, State.dropOlder, empty]
  | evict => simp [State.ledgerWith, State.dropOlder, State.deleteExpired, State.giveUp, empty]
  | clearBuffer => rfl
  | neverInitialized => rfl
  | _ => exact empty

theorem Effect.accepted {after : Ledger Accepted DropReason}
    (effect : Effect cfg s (.resume t outcome) after) : after.accepted = s.acceptances := by
  cases effect <;> rfl

theorem CloseProgress.arrives (close : CloseProgress s closer) (arrives : Arrives s s') :
    CloseProgress s' closer := by
  have pending : s'.ledger.pending = s.ledger.pending := by rw [arrives.ledger]
  have buffer : s'.buffer = s.buffer := congrArg Ledger.buffer arrives.ledger
  refine ⟨arrives.serial, arrives.closing close.closing, arrives.initialized.trans close.initialized,
    close.alive.trans_le arrives.grown, ?_⟩
  rw [arrives.others closer close.alive]
  exact close.progress.frame arrives.allowed (fun _ empty => buffer.trans empty)
    fun drained => pending.trans drained

theorem CloseProgress.other (close : CloseProgress s closer) (advances : Advances cfg s t outcome s')
    (other : closer ≠ t) (met : NoLateBackup s (.resume t outcome)) : CloseProgress s' closer := by
  refine ⟨advances.serial, advances.closing.trans close.closing,
    advances.initialized.trans close.initialized, close.alive.trans_le advances.grown, ?_⟩
  rw [advances.others closer other close.alive]
  refine close.progress.frame (fun open_ => ?_) (fun inside empty => ?_) fun drained => ?_
  · rcases advances.allowed open_ with still | ⟨at_, rfl, idle⟩
    · exact still
    · exact absurd (met close.closing t rfl at_) (by simp [idle])
  · have owner := (close.serial.owner closer).mp inside
    have outside : (s.pc t).holdsMutation = false := by
      have absent : ¬ (s.pc t).holdsMutation = true := by
        rw [close.serial.owner t, owner]
        simpa using other
      simpa using absent
    exact advances.effect.empties outside empty
  · have moves : Moves True s.ledger s'.ledger := advances.effect.moves.mono fun _ => trivial
    exact moves_drained moves advances.effect.accepted drained

/-! ## The steps of `close()` itself -/

/-- The task's own progress, wherever a segment leaves it. -/
def State.Progressed (s : State) (closer : ℕ) : Prop := s.Closing (s.pc closer)

theorem progressed_setPc {pc : Pc} (closing : (s.setPc closer pc).Closing pc) :
    (s.setPc closer pc).Progressed closer := by
  unfold State.Progressed
  rwa [State.pc_setPc_self]

theorem progressed_leave {result : Result} (failed : ∀ count, result ≠ .returned count) :
    (s.leave closer result).Progressed closer := by
  refine progressed_setPc ?_
  cases result with
  | returned count => exact absurd rfl (failed count)
  | raised => trivial
  | cancelled => trivial

/-- With the buffer empty and writes allowed, closing the backend is all that
is left. -/
theorem Around.closes (around : Around s closer true) (allowed : s.writesAllowed = true)
    (empty : s.buffer = []) : (s.closeBackend cfg closer).Progressed closer := by
  have drained : (s.setPc closer .closingBackend).ledger.pending = [] := by
    have settled : Settled s closer [] (s.setPc closer .closingBackend) := around.settled rfl rfl
    rw [settled.ledger]
    simpa [Ledger.pending, State.ledgerWith] using empty
  unfold State.closeBackend
  simp only [allowed, if_true]
  split
  · exact progressed_leave (by simp)
  · exact progressed_setPc ⟨allowed, drained⟩

/-- A row-by-row flush of `close()` goes on, or was the last row's. -/
theorem Around.closes_rows (around : Around s closer true) (allowed : s.writesAllowed = true)
    (empty : s.buffer = []) : (s.nextRow cfg closer .close rest).Progressed closer := by
  cases rest with
  | nil =>
    have unlocked := around.congr s.unlockFlush rfl rfl rfl rfl
    exact unlocked.closes allowed empty
  | cons item rest => exact progressed_setPc ⟨allowed, empty⟩

theorem progressed_stop (open_ : s.writesAllowed = true) :
    (s.stopFlushTask closer).Progressed closer := by
  unfold State.stopFlushTask
  split
  · exact progressed_setPc open_
  · rename_i task _
    obtain ⟨tasks, marked, _⟩ := s.requestCancel_frame task
    refine progressed_setPc ?_
    rw [marked]
    exact open_

/-- A write of the flush of `close()`. -/
theorem Around.closes_write (around : Around s closer true) (rows : Bool) {phase : Phase}
    (allowed : s.writesAllowed = true)
    (empty : s.buffer = []) (taken : s.resume cfg closer (.write .close rest rows phase) outcome = some s') :
    s'.Progressed closer := by
  cases resume_write rows taken with
  | executed => cases rows <;> exact progressed_setPc ⟨allowed, empty⟩
  | stored =>
    have persisted := around.congr (s.persist ((rest.take (writeSize rest rows)).map Row.ofAccepted)) rfl rfl rfl rfl
    exact persisted.closes_rows allowed empty
  | split => exact around.closes_rows allowed empty
  | rejected =>
    have given := around.congr (s.giveUp (rest.take 1) .dataError) rfl rfl rfl rfl
    exact given.closes_rows allowed empty
  | kept => exact progressed_leave (by simp)
  | cancelled tookEffect => exact progressed_leave (by simp)

/-- `close()` gets the mutation lock: it flushes, since it found writes
allowed. -/
theorem CloseProgress.enters (close : CloseProgress s closer) {next : Waiting}
    (progress : s.Closing (.mutation next))
    (taken : s.resume cfg closer (.mutation next) outcome = some s') : s'.Progressed closer := by
  cases next <;> try exact progress.elim
  have open_ : s.writesAllowed = true := progress
  rcases outcome with _ | _ | _ | _
  case returned =>
    have locked : (if s.mutationLock then none
      else if s.closing ∧ ¬ Waiting.close.isClose then some (s.refuse closer .close)
      else some (s.enter cfg closer .close)) = some s' := taken
    simp only [Waiting.isClose, not_true_eq_false, and_false, if_false] at locked
    split at locked
    · cases locked
    · obtain rfl := Option.some.inj locked
      have flush : s.enter cfg closer .close = (s.acquire closer).setPc closer (.flushLock .close) := by
        simp [State.enter, close.initialized, State.startFlush, State.acquire, open_]
      rw [flush]
      exact progressed_setPc open_
  case cancelled.false =>
    obtain rfl := Option.some.inj taken
    exact progressed_setPc trivial
  all_goals cases taken

theorem CloseProgress.own (close : CloseProgress s closer)
    (taken : s.resume cfg closer (s.pc closer) outcome = some s') : s'.Progressed closer := by
  have progress := close.progress
  have around (inside : (s.pc closer).holdsMutation = true) := close.serial.around inside
  cases at_ : s.pc closer <;> rw [at_] at taken progress around <;> try exact progress.elim
  case done => cases outcome <;> cases taken
  case mutation => exact close.enters progress taken
  case flushBatch caller batch phase =>
    cases caller <;> try exact progress.elim
    exact (around rfl).closes_write false progress.1 progress.2 taken
  case flushRow caller rest phase =>
    cases caller <;> try exact progress.elim
    exact (around rfl).closes_write true progress.1 progress.2 taken
  case flushLock caller =>
    cases caller <;> try exact progress.elim
    have open_ : s.writesAllowed = true := progress
    rcases outcome with _ | _ | _ | _
    case returned =>
      have locked : (if s.flushLock then none else some (s.detachBatch cfg closer .close)) = some s' := taken
      split at locked
      · cases locked
      · obtain rfl := Option.some.inj locked
        unfold State.detachBatch
        split
        · rename_i empty
          exact (around rfl).closes open_ empty
        · exact progressed_setPc ⟨open_, rfl⟩
    case cancelled.false =>
      obtain rfl := Option.some.inj taken
      exact progressed_leave (by simp)
    all_goals cases taken
  case flushGate caller batch rows =>
    cases caller <;> try exact progress.elim
    obtain ⟨open_, empty⟩ := progress
    rcases outcome with _ | _ | _ | _
    case returned =>
      obtain rfl := Option.some.inj taken
      simp only [open_, not_true_eq_false, if_false]
      split <;> exact progressed_setPc ⟨open_, empty⟩
    case cancelled.false =>
      obtain rfl := Option.some.inj taken
      exact progressed_leave (by simp)
    all_goals cases taken
  case endingBackup closing =>
    cases closing with
    | false => exact progress.elim
    | true =>
      rcases outcome with _ | _ | _ | _
      case returned =>
        obtain rfl := Option.some.inj taken
        exact progressed_stop rfl
      case cancelled.true => cases taken
      all_goals
        obtain rfl := Option.some.inj taken
        exact progressed_setPc trivial
  case awaitingFlushTask task =>
    have open_ : s.writesAllowed = true := progress
    have awaited : (if s.isDone task then some ({ s with flushTask := none }.setPc closer (.mutation .close))
        else none) = some s' := by
      rcases outcome with _ | _ | _ | _
      case returned => exact taken
      case cancelled.false => exact taken
      all_goals cases taken
    split at awaited
    · obtain rfl := Option.some.inj awaited
      exact progressed_setPc open_
    · cases awaited
  case closingBackend =>
    obtain ⟨open_, drained⟩ := progress
    rcases outcome with _ | _ | _ | _
    case returned =>
      obtain rfl := Option.some.inj taken
      have left := ((around rfl).leaves (.returned none)).ledger
      have hands : s.inFlight = [] := close.serial.inFlight (by rw [at_]; rfl) |>.trans (by rw [at_]; rfl)
      have same : (s.leave closer (.returned none)).ledger = s.ledger := by
        rw [left, State.ledger, hands]
      refine progressed_setPc ⟨open_, ?_⟩
      exact (congrArg Ledger.pending same).trans drained
    case cancelled.true => cases taken
    all_goals
      obtain rfl := Option.some.inj taken
      exact progressed_leave (by simp)

/-! ## Whole runs -/

theorem CloseProgress.step (close : CloseProgress s closer) (met : NoLateBackup s event)
    (taken : step cfg s event = some s') : CloseProgress s' closer := by
  cases event with
  | store telegram =>
    obtain rfl := Option.some.inj taken
    have refused : s.store cfg telegram = s := by simp [State.store, close.closing]
    rwa [refused]
  | start =>
    obtain rfl := Option.some.inj taken
    exact close.arrives close.serial.start
  | call op =>
    obtain rfl := Option.some.inj taken
    exact close.arrives (close.serial.call op)
  | cancel t =>
    obtain rfl := Option.some.inj taken
    exact close.arrives (close.serial.marks t)
  | resume t outcome =>
    have resumed := (step_resume taken).2
    have advances := close.serial.resume resumed
    by_cases own : closer = t
    · subst own
      exact ⟨advances.serial, advances.closing.trans close.closing,
        advances.initialized.trans close.initialized, close.alive.trans_le advances.grown,
        close.own resumed⟩
    · exact close.other advances own met

/-- `close()` at its first await. -/
theorem CloseProgress.called (serial : Serial s) (initialized : s.initialized = true) :
    CloseProgress (s.call cfg .close) s.spawned := by
  have arrives : Arrives s (s.call cfg .close) := serial.call .close
  suffices begun : (s.call cfg .close).closing = true ∧ s.spawned < (s.call cfg .close).spawned ∧
      (s.call cfg .close).Progressed s.spawned from
    ⟨arrives.serial, begun.1, arrives.initialized.trans initialized, begun.2.1, begun.2.2⟩
  unfold State.call State.startClose
  dsimp only
  split
  · rename_i open_
    refine ⟨?_, ?_, progressed_stop open_⟩
    all_goals
      unfold State.stopFlushTask
      split
    · rfl
    · rename_i task _
      obtain ⟨tasks, marked, _⟩ := State.requestCancel_frame { s with spawned := s.spawned + 1, closing := true } task
      rw [marked]
      rfl
    · exact Nat.lt_succ_self _
    · rename_i task _
      obtain ⟨tasks, marked, _⟩ := State.requestCancel_frame { s with spawned := s.spawned + 1, closing := true } task
      rw [marked]
      exact Nat.lt_succ_self _
  · unfold State.endBackup
    split <;> exact ⟨rfl, Nat.lt_succ_self _, progressed_setPc trivial⟩

theorem run_initialized {events : List Event} {initialized : Bool}
    (ran : run cfg initialized events = some s) : s.initialized = initialized := by
  refine (run_keeps (I := fun s => Serial s ∧ s.initialized = initialized) ?_
    ⟨Serial.init initialized, rfl⟩ ran).2
  rintro s₁ event s₂ ⟨serial, same⟩ taken
  refine ⟨(step_effect serial taken).1, ?_⟩
  cases event with
  | store telegram =>
    obtain rfl := Option.some.inj taken
    unfold State.store
    split <;> exact same
  | start =>
    obtain rfl := Option.some.inj taken
    exact serial.start.initialized.trans same
  | call op =>
    obtain rfl := Option.some.inj taken
    exact (serial.call op).initialized.trans same
  | cancel t =>
    obtain rfl := Option.some.inj taken
    exact (serial.marks t).initialized.trans same
  | resume t outcome =>
    exact (serial.resume (step_resume taken).2).initialized.trans same

/-- Nothing is pending, so every accepted telegram was stored or given up. -/
private theorem stored_or_dropped {events : List Event} (ran : run cfg true events = some s)
    (drained : s.ledger.pending = []) {item : Accepted} (accepted : item ∈ s.acceptances) :
    Row.ofAccepted item ∈ s.table ∨
      ∃ reason, reason ≠ .neverInitialized ∧ (item, reason) ∈ s.dropped := by
  have moves := (run_moves_any (Serial.init true) ran).2
  have held := moves_cover moves (by simp [State.ledger, State.ledgerWith, State.init, State.acceptances])
    item accepted
  obtain ⟨batch, buffer⟩ := List.append_eq_nil_iff.mp drained
  simp only [Ledger.holdings, batch, buffer, List.nil_append, List.mem_append, List.mem_map,
    Prod.exists, exists_and_right, exists_eq_right] at held
  rcases held with stored | ⟨reason, lost⟩
  · exact .inl (mem_flushed.mp stored)
  · refine .inr ⟨reason, ?_, lost⟩
    rintro rfl
    obtain ⟨_, _, _, s₁, _, _, reached, _, _, _, _, uninitialized, _⟩ := run_given_up ran lost
    simp [run_initialized reached] at uninitialized

/-- **`close()` drains.** If no `begin_backup()` holds off writes after
`close()` was called, a `close()` that returns leaves the buffer empty, every
telegram accepted before it stored or dropped by a rule, and writes allowed. -/
theorem close_drains {before during : List Event} {s₀ : State} {count : Option ℕ}
    (reached : run cfg true before = some s₀)
    (held : Along (step cfg) NoLateBackup s₀ (.call .close :: during))
    (ran : EventMachine.run (step cfg) s₀ (.call .close :: during) = some s)
    (returned : s.pc s₀.spawned = .done (.returned count)) :
    s.buffer = [] ∧ s.writesAllowed = true ∧
      ∀ item ∈ s₀.acceptances, Row.ofAccepted item ∈ s.table ∨
        ∃ reason, reason ≠ .neverInitialized ∧ (item, reason) ∈ s.dropped := by
  have whole : run cfg true (before ++ .call .close :: during) = some s :=
    run_append.mpr ⟨s₀, reached, ran⟩
  obtain ⟨s₁, called, later⟩ := run_cons.mp ran
  have begun : CloseProgress s₁ s₀.spawned := by
    obtain rfl := Option.some.inj called
    exact .called (run_serial reached) (run_initialized reached)
  have close : CloseProgress s s₀.spawned :=
    run_invariant (I := fun s => CloseProgress s s₀.spawned)
      (fun _ _ _ close met taken => close.step met taken) begun (held.2 s₁ called) later
  have progress := close.progress
  rw [returned] at progress
  obtain ⟨allowed, drained⟩ := progress
  refine ⟨(List.append_eq_nil_iff.mp drained).2, allowed, fun item accepted => ?_⟩
  refine stored_or_dropped whole drained ?_
  have grown := moves_accepted (run_moves_any (run_serial reached) ran).2
  exact grown.subset accepted

/-- A telegram buffered during a backup. -/
def duringBackup : List Event :=
  [.call .beginBackup, .resume 0 .returned, .resume 0 .returned, .resume 0 .returned,
    .store sampleTelegram]

/-- `close()` ends the backup and flushes. -/
def closeAndFlush : List Event :=
  [.call .close, .resume 1 .returned, .resume 1 .returned, .resume 1 .returned,
    .resume 1 .returned, .resume 1 .returned, .resume 1 .returned, .resume 1 .returned]

theorem close_drains_during_backup :
    ∃ s₀ s, run sampleConfig true duringBackup = some s₀ ∧ s₀.writesAllowed = false ∧
      s₀.buffer.length = 1 ∧ EventMachine.run (step sampleConfig) s₀ closeAndFlush = some s ∧
      s.buffer = [] ∧ s.writesAllowed = true := by
  have held (s₀ : State) (reached : run sampleConfig true duringBackup = some s₀) :
      Along (step sampleConfig) NoLateBackup s₀ closeAndFlush := by
    cases reached
    iterate 8
      refine ⟨?_, fun _ taken => ?_⟩
      · rintro _ t same at_
        cases same <;> cases at_
      cases taken
    trivial
  obtain ⟨s₀, reached, held_off, buffered⟩ : ∃ s₀, run sampleConfig true duringBackup = some s₀ ∧
    s₀.writesAllowed = false ∧ s₀.buffer.length = 1 := ⟨_, rfl, rfl, rfl⟩
  obtain ⟨s, ran, returned⟩ : ∃ s, EventMachine.run (step sampleConfig) s₀ closeAndFlush = some s ∧
      s.pc s₀.spawned = .done (.returned none) := by
    cases reached
    exact ⟨_, rfl, rfl⟩
  have drained := close_drains reached (held s₀ reached) ran returned
  exact ⟨s₀, s, reached, held_off, buffered, ran, drained.1, drained.2.1⟩

/-- A `begin_backup()` inside its critical section lets `close()` find writes
allowed and holds them off before the final flush. -/
theorem late_backup_keeps_buffer :
    ∃ s₀ s, run sampleConfig true
        [.call .beginBackup, .resume 0 .returned, .resume 0 .returned, .store sampleTelegram] = some s₀ ∧
      EventMachine.run (step sampleConfig) s₀
        [.call .close, .resume 0 .returned, .resume 1 .returned, .resume 1 .returned,
          .resume 1 .returned] = some s ∧
      s.pc s₀.spawned = .done (.returned none) ∧ s.buffer.length = 1 ∧ s.table.length = 0 :=
  ⟨_, _, rfl, rfl, rfl, rfl, rfl⟩

end KnxTelegramStore.Buffered
