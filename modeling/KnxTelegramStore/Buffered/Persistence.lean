import KnxTelegramStore.Buffered.Progress

/-!
What reaches the table, and what keeps bringing it there. Flushes persist the
accepted telegrams in the order they were accepted in, however often a batch
goes back to the buffer (`stored_in_order`). The periodic flush is one task at
a time: `_flush_task` names it, a loop it no longer names is cancelled, and
until `close()` is called no failure of any flush ends it (`one_flush_loop`).
-/
namespace KnxTelegramStore.Buffered
open WriteBehind EventMachine

variable {cfg : Config} {s s₁ s' : State} {t u : ℕ} {pc : Pc} {extra : ℕ} {outcome : Outcome} {event : Event}
variable {initialized : Bool} {events : List Event}

/-! ## The order of acceptance -/

/-- **First accepted, first stored.** The rows that flushes have written are in
the order of acceptance, and whatever is still in flight or in the buffer was
accepted after all of them. -/
theorem stored_in_order (whole : Along (step cfg) WritesWhole (State.init initialized) events)
    (ran : run cfg initialized events = some s) :
    (flushed s.table ++ s.inFlight ++ s.buffer).Sublist s.acceptances ∧
      (flushed s.table ++ s.inFlight ++ s.buffer).Pairwise (·.number < ·.number) := by
  have moves : Moves False _ s.ledger :=
    (run_moves (fun _ _ met doubles => met doubles) (Serial.init initialized) whole ran).2
  have ordered : (flushed s.table ++ (s.inFlight ++ s.buffer)).Sublist s.acceptances :=
    moves_in_order moves (List.Sublist.refl [])
  rw [← List.append_assoc] at ordered
  exact ⟨ordered, (acceptances_ordered s).sublist ordered⟩

/-- A flush that fails and one that goes through, with a telegram between. -/
def retried : List Event :=
  [.store sampleTelegram, .call .flush, .resume 0 .returned, .resume 0 .returned, .resume 0 .returned,
    .store sampleTelegram, .resume 0 (.raised false), .call .flush, .resume 1 .returned, .resume 1 .returned,
    .resume 1 .returned, .resume 1 .returned, .resume 1 .returned]

theorem retried_in_order : ∃ s, run sampleConfig true retried = some s ∧
    (flushed s.table).map Accepted.number = [0, 1] ∧
      (flushed s.table ++ s.inFlight ++ s.buffer).Pairwise (·.number < ·.number) := by
  have whole : Along (step sampleConfig) WritesWhole (State.init true) retried := by
    refine along_of_mem fun event mem s doubles => ?_
    obtain ⟨t, rfl, _⟩ := doubles
    simp [retried] at mem
  exact ⟨_, rfl, rfl, (stored_in_order whole rfl).2⟩

/-! ## The periodic flush -/

/-- What flush loops there are. -/
structure Loops (s : State) : Prop where
  closes : ∀ t, (s.pc t = .endingBackup true ∨ ∃ task, s.pc t = .awaitingFlushTask task) → s.closing = true
  awaited : ∀ t task, s.pc t = .awaitingFlushTask task → s.flushTask = some task ∨ s.flushTask = none
  single : ∀ t, (s.pc t).role = .flushLoop → s.flushTask = some t ∨ (s.tasks t).cancelRequested = true

theorem Loops.init (initialized : Bool) : Loops (State.init initialized) where
  closes _ impossible := by rcases impossible with impossible | ⟨_, impossible⟩ <;> cases impossible
  awaited _ _ := nofun
  single _ := nofun

theorem Pc.role_of_ended (ended : pc.ended = true) : pc.role = .call := by
  cases pc <;> first | rfl | cases ended

theorem State.resetTimer_closing (s : State) : s.resetTimer.closing = s.closing := by
  obtain ⟨_, _, _, timer, _⟩ := s.resetTimer_frame
  rw [timer]

/-- On a store that is closing the timer is left alone. -/
theorem State.resetTimer_of_closing (closing : s.closing = true) : s.resetTimer = s := by
  unfold resetTimer
  split
  · rfl
  · rw [if_pos closing]

/-- A flush loop that is no longer named has been cancelled. -/
theorem State.resetTimer_cancels (loop : (s.pc u).role = .flushLoop) (named : s.flushTask = some u) :
    s.resetTimer.flushTask = some u ∨ (s.resetTimer.tasks u).cancelRequested = true := by
  unfold resetTimer
  rw [named]
  dsimp only
  split
  · exact .inl named
  · rcases State.requestCancel_ends (s := s) (.inr loop) with done | eviction | ⟨_, asked⟩
    · rw [isDone_eq, (s.requestCancel_keeps u u).1] at done
      rw [Pc.role_of_ended done] at loop
      cases loop
    · rw [(s.requestCancel_keeps u u).1, loop] at eviction
      cases eviction
    · by_cases fresh : u = (s.requestCancel u).spawned
      · left
        have spawned : (s.requestCancel u).spawned = s.spawned := by
          obtain ⟨_, marked, _⟩ := s.requestCancel_frame u
          rw [marked]
        show some s.spawned = some u
        rw [← spawned, ← fresh]
      · right
        show (((s.requestCancel u).setPc _ .sleeping).tasks u).cancelRequested = true
        rwa [tasks_setPc_ne _ _ fresh]

theorem Loops.turn (loops : Loops s) (turn : Turn s t pc extra s') (alive : t < s.spawned)
    (unborn : ∀ u, s.spawned ≤ u → s.pc u = .unborn) (own : pc.ended = true ∨ pc.role = (s.pc t).role)
    (ends : (s.pc t).role = .flushLoop → (s.tasks t).cancelRequested = true → pc.ended = true)
    (closing : s.closing = true → s'.closing = true) (opens : pc = .endingBackup true → s'.closing = true) :
    Loops s' := by
  have mine {u : ℕ} (same : u = t) : s'.pc u = pc := by rw [same, turn.own]
  have kept {s₁ : State} (calm : Calm s t s₁) {u task : ℕ} (at_ : s.pc u = .awaitingFlushTask task) :
      s₁.flushTask = some task ∨ s₁.flushTask = none := by
    rcases calm.flushTask with same | ⟨forgotten, _⟩
    · rw [same]
      exact loops.awaited u task at_
    · exact .inr forgotten
  refine ⟨fun u at_ => ?_, fun u task at_ => ?_, fun u loop => ?_⟩
  · by_cases same : u = t
    · rw [mine same] at at_
      rcases at_ with ending | ⟨task, waits⟩
      · exact opens ending
      · subst waits
        cases turn with
        | settles s₁ calm awaited =>
          rcases awaited with impossible | ⟨_, _, _, impossible⟩ <;> cases impossible
        | restarts s₁ calm impossible => cases impossible
        | stops s₁ task' calm named cause _ =>
          rcases cause with ending | ⟨_, closing'⟩
          · exact closing (loops.closes t (.inl ending))
          · obtain ⟨_, marked, _⟩ := s₁.requestCancel_frame task'
            rw [marked]
            exact closing'
        | starts s₁ cutoff dryRun calm impossible => cases impossible
    · by_cases older : u < s.spawned
      · rw [(turn.others same older).1] at at_
        exact closing (loops.closes u at_)
      · rcases turn.newborn alive unborn (Nat.le_of_not_lt older) with born | ⟨born, _⟩ | ⟨_, _, born⟩
        all_goals
          rw [born] at at_
          rcases at_ with impossible | ⟨_, impossible⟩ <;> cases impossible
  · by_cases same : u = t
    · rw [mine same] at at_
      subst at_
      cases turn with
      | settles s₁ calm awaited => rcases awaited with impossible | ⟨_, _, _, impossible⟩ <;> cases impossible
      | restarts s₁ calm impossible => cases impossible
      | stops s₁ task' calm named _ waits =>
        obtain rfl : task = task' := by
          cases waits
          rfl
        obtain ⟨_, marked, _⟩ := s₁.requestCancel_frame task
        rw [marked]
        rcases calm.flushTask with still | ⟨forgotten, _⟩
        · exact .inl (still.trans named)
        · exact .inr forgotten
      | starts s₁ cutoff dryRun calm impossible => cases impossible
    · by_cases older : u < s.spawned
      · rw [(turn.others same older).1] at at_
        have closed := closing (loops.closes u (.inr ⟨task, at_⟩))
        cases turn with
        | settles s₁ calm _ => exact kept calm at_
        | restarts s₁ calm =>
          have still : s₁.resetTimer = s₁ := by
            apply State.resetTimer_of_closing
            rw [← State.resetTimer_closing]
            exact closed
          rw [still]
          exact kept calm at_
        | stops s₁ task' calm =>
          obtain ⟨_, marked, _⟩ := s₁.requestCancel_frame task'
          rw [marked]
          exact kept calm at_
        | starts s₁ cutoff dryRun calm _ => exact kept calm at_
      · have nobody := turn.newborn_awaits alive unborn (Nat.le_of_not_lt older)
        rw [at_] at nobody
        cases nobody
  · by_cases same : u = t
    · rw [mine same] at loop
      have role : (s.pc t).role = .flushLoop := by
        rcases own with ended | role
        · rw [Pc.role_of_ended ended] at loop
          cases loop
        · rw [← role, loop]
      have named : s.flushTask = some t := by
        refine (loops.single t role).resolve_right fun asked => ?_
        rw [Pc.role_of_ended (ends role asked)] at loop
        cases loop
      subst same
      cases turn with
      | settles s₁ calm _ =>
        rcases calm.flushTask with still | ⟨_, task, at_, _⟩
        · exact .inl (still.trans named)
        · rw [at_] at role
          cases role
      | restarts s₁ calm _ call =>
        rw [call] at loop
        cases loop
      | stops s₁ task calm _ _ waits =>
        rw [waits] at loop
        cases loop
      | starts s₁ cutoff dryRun calm waits =>
        rw [waits] at loop
        cases loop
    · by_cases older : u < s.spawned
      · obtain ⟨still, keeps⟩ := turn.others same older
        rw [still] at loop
        rcases loops.single u loop with named | asked
        · have lives {s₁ : State} (calm : Calm s t s₁) : s₁.flushTask = some u := by
            rcases calm.flushTask with same | ⟨_, task, at_, done⟩
            · exact same.trans named
            · -- the one it names has not ended
              obtain rfl : task = u := by
                rcases loops.awaited t task at_ with awaited | impossible
                · exact Option.some.inj (awaited.symm.trans named)
                · rw [impossible] at named
                  cases named
              rw [State.isDone_eq] at done
              rw [Pc.role_of_ended done] at loop
              cases loop
          cases turn with
          | settles s₁ calm _ =>
            have still := lives calm
            exact .inl still
          | restarts s₁ calm =>
            have before : (s₁.pc u).role = .flushLoop := by rwa [State.pc, calm.tasks]
            rcases State.resetTimer_cancels before (lives calm) with still | asked
            · exact .inl still
            · right
              rwa [State.tasks_setPc_ne _ pc same]
          | stops s₁ task calm =>
            have still := lives calm
            obtain ⟨_, marked, _⟩ := s₁.requestCancel_frame task
            left
            rw [marked]
            exact still
          | starts s₁ cutoff dryRun calm _ =>
            have still := lives calm
            exact .inl still
        · exact .inr (keeps asked)
      · rcases turn.newborn alive unborn (Nat.le_of_not_lt older) with born | ⟨_, named⟩ | ⟨_, _, born⟩
        · rw [born] at loop
          cases loop
        · exact .inl named
        · rw [born] at loop
          cases loop

/-- A step that resumes no task. -/
theorem Loops.arrives (loops : Loops s) (serial : Serial s) (taken : step cfg s event = some s')
    (quiet : ∀ t outcome, event ≠ .resume t outcome) : Loops s' := by
  cases event with
  | store telegram =>
    obtain rfl := Option.some.inj taken
    unfold State.store
    split
    · exact loops
    · exact ⟨loops.closes, loops.awaited, loops.single⟩
  | start =>
    obtain rfl := Option.some.inj taken
    unfold State.start
    split
    · exact loops
    · rename_i idle
      have none : s.flushTask = none := by
        rw [not_or, Option.not_isSome_iff_eq_none] at idle
        exact idle.2
      have kept {u : ℕ} (other : u ≠ s.spawned) : (s.spawn .sleeping).pc u = s.pc u ∧
          (s.spawn .sleeping).tasks u = s.tasks u := ⟨State.pc_setPc_ne other, State.tasks_setPc_ne s _ other⟩
      have started : (s.spawn .sleeping).pc s.spawned = .sleeping := State.pc_setPc_self
      refine ⟨fun u at_ => ?_, fun u task at_ => ?_, fun u loop => ?_⟩
      · replace at_ : (s.spawn .sleeping).pc u = .endingBackup true ∨
          ∃ task, (s.spawn .sleeping).pc u = .awaitingFlushTask task := at_
        by_cases new : u = s.spawned
        · subst new
          rw [started] at at_
          rcases at_ with impossible | ⟨_, impossible⟩ <;> cases impossible
        · rw [(kept new).1] at at_
          exact loops.closes u at_
      · replace at_ : (s.spawn .sleeping).pc u = .awaitingFlushTask task := at_
        by_cases new : u = s.spawned
        · subst new
          rw [started] at at_
          cases at_
        · rw [(kept new).1] at at_
          exact absurd (.inl (loops.closes u (.inr ⟨task, at_⟩))) idle
      · by_cases new : u = s.spawned
        · exact .inl (congrArg some new.symm)
        · replace loop : ((s.spawn .sleeping).pc u).role = .flushLoop := loop
          rw [(kept new).1] at loop
          right
          show ((s.spawn .sleeping).tasks u).cancelRequested = true
          rw [(kept new).2]
          refine (loops.single u loop).resolve_left fun named => ?_
          rw [none] at named
          cases named
  | call op =>
    obtain rfl := Option.some.inj taken
    have fresh : ({ s with spawned := s.spawned + 1 } : State).pc s.spawned = .unborn := serial.unborn _ le_rfl
    obtain ⟨pc, extra, turn, own, opens⟩ := call_turn cfg op fresh
    have born : Loops { s with spawned := s.spawned + 1 } := ⟨loops.closes, loops.awaited, loops.single⟩
    apply born.turn turn (Nat.lt_succ_self _)
    · exact fun u later => serial.unborn u (Nat.le_of_succ_le later)
    · rw [fresh]
      exact own
    · rw [fresh]
      exact nofun
    · exact (serial.call op).closing
    · exact opens
  | cancel t =>
    obtain rfl := Option.some.inj taken
    obtain ⟨_, marked, _⟩ := s.requestCancel_frame t
    have flushTask : (s.requestCancel t).flushTask = s.flushTask := by rw [marked]
    have closing : (s.requestCancel t).closing = s.closing := by rw [marked]
    refine ⟨fun u at_ => ?_, fun u task at_ => ?_, fun u loop => ?_⟩
    · rw [(s.requestCancel_keeps t u).1] at at_
      rw [closing]
      exact loops.closes u at_
    · rw [(s.requestCancel_keeps t u).1] at at_
      rw [flushTask]
      exact loops.awaited u task at_
    · obtain ⟨still, keeps⟩ := s.requestCancel_keeps t u
      rw [still] at loop
      rw [flushTask]
      exact (loops.single u loop).imp_right keeps
  | resume t outcome => exact absurd rfl (quiet t outcome)

/-- Only a `close()` that lets writes through again has two changes to that
ahead of it. -/
theorem Pc.eq_of_flips (flips : 2 ≤ pc.flips) : pc = .endingBackup true := by
  have callers (caller : FlushCaller) : ¬ 2 ≤ caller.flips := by cases caller <;> simp [FlushCaller.flips]
  cases pc with
  | endingBackup closing => cases closing <;> simp [Pc.flips] at flips ⊢
  | mutation next => cases next <;> simp [Pc.flips, Waiting.flips] at flips
  | flushLock caller => exact absurd flips (callers caller)
  | flushGate caller => exact absurd flips (callers caller)
  | flushBatch caller => exact absurd flips (callers caller)
  | flushRow caller => exact absurd flips (callers caller)
  | _ => simp [Pc.flips] at flips

theorem Loops.step (loops : Loops s) (sound : Sound cfg s) (taken : step cfg s event = some s') : Loops s' := by
  by_cases quiet : ∀ t outcome, event ≠ .resume t outcome
  · exact loops.arrives sound.nested.serial taken quiet
  · push Not at quiet
    obtain ⟨t, outcome, rfl⟩ := quiet
    obtain ⟨requested, resumed⟩ := step_resume taken
    have serial := sound.nested.serial
    have closing := (serial.resume resumed).closing
    obtain ⟨pc, extra, turn, own, flips⟩ := sound.nested.turn sound.bounded requested resumed
    apply loops.turn turn (serial.taken_alive resumed) serial.unborn own
    · intro loop asked
      rw [← turn.own]
      exact loop_cancelled loop (requested.trans asked) resumed
    · exact closing.trans
    · rintro rfl
      rw [closing]
      exact loops.closes t (.inl (Pc.eq_of_flips flips))

theorem run_loops (ran : run cfg initialized events = some s) : Loops s := by
  have both : Sound cfg s ∧ Loops s :=
    run_keeps (I := fun s => Sound cfg s ∧ Loops s)
      (fun _ _ _ held taken => ⟨held.1.step taken, held.2.step held.1 taken⟩)
      ⟨⟨.init initialized, .init initialized, Nat.zero_le _⟩, .init initialized⟩ ran
  exact both.2

/-! ## Until `close()` -/

/-- The cancellations that do not come from the store spare its flush task. -/
def SparesFlushTask (s : State) (event : Event) : Prop := ∀ t, event = .cancel t → s.flushTask ≠ some t

/-- As long as `close()` was not called, the flush task sleeps or flushes, and
is not about to end. -/
def Tended (s : State) : Prop :=
  s.closing = false → ∀ t, s.flushTask = some t → (s.pc t).role = .flushLoop ∧ (s.tasks t).cancelRequested = false

/-- A flush loop goes on, whatever its flush has come to. -/
theorem loop_goes_on (opened : s.closing = false) (loop : (s.pc t).role = .flushLoop)
    (uncancelled : outcome.isCancelled = false) (taken : s.resume cfg t (s.pc t) outcome = some s') :
    (s'.pc t).role = .flushLoop := by
  have goes_on (s₁ : State) (same : s₁.closing = false) :
      ((s₁.afterFlush cfg t .flushLoop).pc t).role = .flushLoop := by
    unfold State.afterFlush
    dsimp only
    rw [State.pc_setPc_self, if_neg (by rw [same]; exact Bool.false_ne_true)]
    rfl
  have next_row (s₁ : State) (rest : List Accepted) (same : s₁.closing = false) :
      ((s₁.nextRow cfg t .flushLoop rest).pc t).role = .flushLoop := by
    cases rest with
    | nil => exact goes_on _ same
    | cons => exact congrArg Pc.role State.pc_setPc_self
  have write (rest : List Accepted) (rows : Bool) (phase : Phase)
      (taken : s.resume cfg t (.write .flushLoop rest rows phase) outcome = some s') :
      (s'.pc t).role = .flushLoop := by
    cases resume_write rows taken with
    | executed =>
      rw [State.pc_setPc_self]
      cases rows <;> rfl
    | stored => exact next_row _ _ opened
    | split => exact next_row _ _ opened
    | rejected => exact next_row _ _ opened
    | kept => exact goes_on _ opened
    | cancelled => cases uncancelled
  cases at_ : s.pc t <;> rw [at_] at loop taken
  case sleeping =>
    rcases outcome with _ | _ | _ | _ <;> cases taken
    · exact congrArg Pc.role State.pc_setPc_self
    · cases uncancelled
  case mutation next =>
    cases next <;> try cases loop
    rcases outcome with _ | _ | _ | _
    case returned =>
      have locked : (if s.mutationLock then none
        else if s.closing ∧ ¬ Waiting.flushLoop.isClose then some (s.refuse t .flushLoop)
        else some (s.enter cfg t .flushLoop)) = some s' := taken
      split at locked
      · cases locked
      · rw [if_neg (by rw [opened]; exact fun both => Bool.false_ne_true both.1)] at locked
        obtain rfl := Option.some.inj locked
        unfold State.enter State.startFlush
        dsimp only
        split
        · exact congrArg Pc.role State.pc_setPc_self
        · exact goes_on _ opened
    case cancelled.false => cases uncancelled
    all_goals cases taken
  case flushLock caller =>
    cases caller <;> try cases loop
    rcases outcome with _ | _ | _ | _
    case returned =>
      have locked : (if s.flushLock then none else some (s.detachBatch cfg t .flushLoop)) = some s' := taken
      split at locked
      · cases locked
      · obtain rfl := Option.some.inj locked
        unfold State.detachBatch
        split
        · exact goes_on _ opened
        · exact congrArg Pc.role State.pc_setPc_self
    case cancelled.false => cases uncancelled
    all_goals cases taken
  case flushGate caller batch rows =>
    cases caller <;> try cases loop
    rcases outcome with _ | _ | _ | _
    case returned =>
      obtain rfl := Option.some.inj taken
      rw [State.pc_setPc_self]
      split
      · rfl
      · split <;> rfl
    case cancelled.false => cases uncancelled
    all_goals cases taken
  case flushBatch caller batch phase =>
    cases caller <;> try cases loop
    exact write batch false phase taken
  case flushRow caller rest phase =>
    cases caller <;> try cases loop
    exact write rest true phase taken
  all_goals cases loop

/-- Restarting the timer names a task that sleeps. -/
theorem State.resetTimer_sleeps (opened : s.closing = false) (named : s.flushTask = some u) :
    s.resetTimer.flushTask = some s.spawned ∧ s.resetTimer.tasks s.spawned = { pc := .sleeping } := by
  have spawned : (s.requestCancel u).spawned = s.spawned := by
    obtain ⟨_, marked, _⟩ := s.requestCancel_frame u
    rw [marked]
  unfold resetTimer
  rw [named]
  dsimp only
  rw [if_neg (by rw [opened]; exact Bool.false_ne_true)]
  refine ⟨rfl, ?_⟩
  show ((s.requestCancel u).setPc (s.requestCancel u).spawned .sleeping).tasks s.spawned = _
  rw [spawned, State.tasks_setPc_self]

/-- What a turn of a store that is not closing leaves of the flush task. -/
theorem Tended.turn (tended : Tended s) (turn : Turn s t pc extra s') (alive : t < s.spawned)
    (unborn : ∀ u, s.spawned ≤ u → s.pc u = .unborn) (loops : Loops s)
    (closing : s.closing = true → s'.closing = true)
    (goes_on : s.closing = false → (s.pc t).role = .flushLoop → (s.tasks t).cancelRequested = false →
      pc.role = .flushLoop) :
    Tended s' ∧ (s'.closing = false → s.flushTask.isSome → s'.flushTask.isSome) := by
  have before (opened : s'.closing = false) : s.closing = false := by
    by_contra closed
    rw [closing (by simpa using closed)] at opened
    cases opened
  have still {s₁ : State} (calm : Calm s t s₁) (opened : s.closing = false) : s₁.flushTask = s.flushTask := by
    rcases calm.flushTask with kept | ⟨_, task, at_, _⟩
    · exact kept
    · rw [loops.closes t (.inr ⟨task, at_⟩)] at opened
      cases opened
  have keeps {s₁ : State} {u : ℕ} (calm : Calm s t s₁) (opened : s.closing = false) (named : s.flushTask = some u) :
      ((s₁.setPc t pc).pc u).role = .flushLoop ∧ ((s₁.setPc t pc).tasks u).cancelRequested = false := by
    obtain ⟨loop, uncancelled⟩ := tended opened u named
    by_cases own : u = t
    · subst own
      rw [State.pc_setPc_self, State.tasks_setPc_self]
      exact ⟨goes_on opened loop uncancelled, rfl⟩
    · rw [State.pc_setPc_ne own, State.tasks_setPc_ne s₁ pc own, State.pc, calm.tasks]
      exact ⟨loop, uncancelled⟩
  cases turn with
  | settles s₁ calm _ =>
    refine ⟨fun opened u named => ?_, fun opened some_task => ?_⟩
    · exact keeps calm (before opened) ((still calm (before opened)).symm.trans named)
    · show s₁.flushTask.isSome
      rwa [still calm (before opened)]
  | restarts s₁ calm _ call =>
    have opens (opened : (s₁.resetTimer.setPc t pc).closing = false) : s₁.closing = false := by
      rw [← State.resetTimer_closing]
      exact opened
    have fresh : s₁.spawned ≠ t := by
      rw [calm.spawned]
      exact alive.ne'
    refine ⟨fun opened u named => ?_, fun opened some_task => ?_⟩
    · cases named_before : s.flushTask with
      | none =>
        have kept : s₁.resetTimer = s₁ := by
          unfold State.resetTimer
          rw [still calm (before opened), named_before]
        replace named : s₁.resetTimer.flushTask = some u := named
        rw [kept, still calm (before opened), named_before] at named
        cases named
      | some task =>
        obtain ⟨names, sleeps⟩ :=
          State.resetTimer_sleeps (opens opened) ((still calm (before opened)).trans named_before)
        obtain rfl : s₁.spawned = u := Option.some.inj (names.symm.trans named)
        rw [State.pc_setPc_ne fresh, State.tasks_setPc_ne _ pc fresh, State.pc, sleeps]
        exact ⟨rfl, rfl⟩
    · obtain ⟨task, named⟩ := Option.isSome_iff_exists.mp some_task
      show s₁.resetTimer.flushTask.isSome
      rw [(State.resetTimer_sleeps (opens opened) ((still calm (before opened)).trans named)).1]
      rfl
  | stops s₁ task calm _ cause _ =>
    have closed : ((s₁.requestCancel task).setPc t pc).closing = true := by
      rcases cause with ending | ⟨_, closed⟩
      · exact closing (loops.closes t (.inl ending))
      · obtain ⟨_, marked, _⟩ := s₁.requestCancel_frame task
        rw [marked]
        exact closed
    refine ⟨fun opened => ?_, fun opened => ?_⟩ <;> rw [closed] at opened <;> cases opened
  | starts s₁ cutoff dryRun calm _ =>
    refine ⟨fun opened u named => ?_, fun opened some_task => ?_⟩
    · replace opened := before opened
      have named : s.flushTask = some u := (still calm opened).symm.trans named
      have older : u < s.spawned := by
        by_contra later
        have loop := (tended opened u named).1
        rw [unborn u (Nat.le_of_not_lt later)] at loop
        cases loop
      have other : u ≠ s₁.spawned := by
        rw [calm.spawned]
        exact older.ne
      have spawned : (s₁.spawn (.evictLock cutoff dryRun)).tasks u = s₁.tasks u := State.tasks_setPc_ne s₁ _ other
      have kept := keeps calm opened named
      by_cases own : u = t
      · subst own
        rw [State.pc_setPc_self, State.tasks_setPc_self] at kept ⊢
        exact kept
      · rw [State.pc_setPc_ne own, State.tasks_setPc_ne _ pc own] at kept ⊢
        rw [State.pc, spawned]
        exact kept
    · show s₁.flushTask.isSome
      rwa [still calm (before opened)]

theorem Tended.step (tended : Tended s) (sound : Sound cfg s) (loops : Loops s) (spares : SparesFlushTask s event)
    (taken : step cfg s event = some s') :
    Tended s' ∧ (s'.closing = false → s.flushTask.isSome → s'.flushTask.isSome) := by
  have serial := sound.nested.serial
  cases event with
  | store telegram =>
    obtain rfl := Option.some.inj taken
    unfold State.store
    split <;> exact ⟨tended, fun _ => id⟩
  | start =>
    obtain rfl := Option.some.inj taken
    unfold State.start
    split
    · exact ⟨tended, fun _ => id⟩
    · refine ⟨fun _ u named => ?_, fun _ _ => rfl⟩
      obtain rfl : s.spawned = u := Option.some.inj named
      show ((s.spawn .sleeping).pc _).role = _ ∧ ((s.setPc s.spawned .sleeping).tasks _).cancelRequested = false
      rw [State.tasks_setPc_self]
      exact ⟨congrArg Pc.role State.pc_setPc_self, rfl⟩
  | call op =>
    obtain rfl := Option.some.inj taken
    have fresh : ({ s with spawned := s.spawned + 1 } : State).pc s.spawned = .unborn := serial.unborn _ le_rfl
    obtain ⟨pc, extra, turn, _⟩ := call_turn cfg op fresh
    have before : Tended { s with spawned := s.spawned + 1 } := tended
    have born : Loops { s with spawned := s.spawned + 1 } := ⟨loops.closes, loops.awaited, loops.single⟩
    apply before.turn turn (Nat.lt_succ_self _) _ born (serial.call op).closing
    · rw [fresh]
      exact nofun
    · exact fun u later => serial.unborn u (Nat.le_of_succ_le later)
  | cancel t =>
    obtain rfl := Option.some.inj taken
    obtain ⟨_, requested, _⟩ := s.requestCancel_frame t
    have flushTask : (s.requestCancel t).flushTask = s.flushTask := by rw [requested]
    have closing : (s.requestCancel t).closing = s.closing := by rw [requested]
    refine ⟨fun opened u named => ?_, fun _ some_task => by rwa [flushTask]⟩
    rw [closing] at opened
    rw [flushTask] at named
    have kept := tended opened u named
    -- the request is not passed on to it: no `close()` awaits it yet
    have marks : s.requestCancel t = s ∨ s.requestCancel t = s.mark t := by
      unfold State.requestCancel
      split
      · exact .inl rfl
      · exact .inl rfl
      · rename_i task at_
        rw [loops.closes t (.inr ⟨task, at_⟩)] at opened
        cases opened
      · exact .inr rfl
    rcases marks with same | marked
    · rwa [same]
    · have other : u ≠ t := by
        rintro rfl
        exact spares u rfl named
      rw [marked, State.pc_mark, State.tasks_mark_ne s other]
      exact kept
  | resume t outcome =>
    obtain ⟨requested, resumed⟩ := step_resume taken
    have closing := (serial.resume resumed).closing
    obtain ⟨pc, extra, turn, _⟩ := sound.nested.turn sound.bounded requested resumed
    apply tended.turn turn (serial.taken_alive resumed) serial.unborn loops
    · exact closing.trans
    · intro opened loop uncancelled
      rw [← turn.own]
      exact loop_goes_on opened loop (requested.trans uncancelled) resumed

/-- Once started, the periodic flush is there until `close()` is called. -/
theorem run_tended (undisturbed : Along (step cfg) SparesFlushTask (State.init initialized) events)
    (ran : run cfg initialized events = some s) :
    Tended s ∧ (.start ∈ events → s.closing = false → s.flushTask.isSome) := by
  induction events using List.reverseRecOn generalizing s with
  | nil =>
    cases ran
    exact ⟨fun _ _ => nofun, nofun⟩
  | append_singleton events event ih =>
    obtain ⟨middle, reached, last⟩ := run_append.mp ran
    obtain ⟨next, taken, ended⟩ := run_cons.mp last
    cases ended
    obtain ⟨before, now⟩ := along_append undisturbed reached
    obtain ⟨tended, started⟩ := ih before reached
    obtain ⟨tended', keeps⟩ := tended.step (run_sound reached) (run_loops reached) now.1 taken
    refine ⟨tended', fun mem opened => ?_⟩
    have still : middle.closing = false := by
      by_contra closed
      rw [step_closing (run_sound reached).nested.serial (by simpa using closed) taken] at opened
      cases opened
    rcases List.mem_append.mp mem with earlier | this
    · exact keeps opened (started earlier still)
    · obtain rfl := List.mem_singleton.mp this
      obtain rfl := Option.some.inj taken
      unfold State.start
      split
      · rename_i busy
        rw [still] at busy
        exact busy.resolve_left Bool.false_ne_true
      · rfl

/-- **The periodic flush is one task.** After `start()`, until `close()` is
called and unless someone else cancels it, there is exactly one flush loop that
goes on, the one `_flush_task` names: no failure of a flush ends it, and the
flushes that restart the timer replace it. -/
theorem one_flush_loop (undisturbed : Along (step cfg) SparesFlushTask (State.init initialized) events)
    (started : .start ∈ events) (ran : run cfg initialized events = some s) (opened : s.closing = false) :
    ∃ t, s.flushTask = some t ∧
      ∀ u, (s.pc u).role = .flushLoop ∧ (s.tasks u).cancelRequested = false ↔ u = t := by
  obtain ⟨tended, exists_task⟩ := run_tended undisturbed ran
  obtain ⟨t, named⟩ := Option.isSome_iff_exists.mp (exists_task started opened)
  refine ⟨t, named, fun u => ⟨fun ⟨loop, uncancelled⟩ => ?_, fun same => ?_⟩⟩
  · rcases (run_loops ran).single u loop with same | cancelled
    · exact Option.some.inj (same.symm.trans named)
    · rw [uncancelled] at cancelled
      cases cancelled
  · rw [same]
    exact tended opened t named

/-- The loop's flush fails for the database's sake, and a `flush()` that goes
through restarts the timer. -/
def failedOnce : List Event :=
  [.start, .store sampleTelegram, .resume 0 .returned, .resume 0 .returned, .resume 0 .returned, .resume 0 .returned,
    .resume 0 (.raised false), .call .flush, .resume 1 .returned, .resume 1 .returned, .resume 1 .returned,
    .resume 1 .returned, .resume 1 .returned]

theorem failedOnce_one_loop : ∃ s, run sampleConfig true failedOnce = some s ∧ s.flushTask = some 2 ∧
    ∃ t, s.flushTask = some t ∧
      ∀ u, (s.pc u).role = .flushLoop ∧ (s.tasks u).cancelRequested = false ↔ u = t := by
  have undisturbed : Along (step sampleConfig) SparesFlushTask (State.init true) failedOnce := by
    refine along_of_mem fun event mem s t cancels => ?_
    subst cancels
    simp [failedOnce] at mem
  have started : Event.start ∈ failedOnce := List.mem_cons_self
  exact ⟨_, rfl, rfl, one_flush_loop undisturbed started rfl rfl⟩

end KnxTelegramStore.Buffered
