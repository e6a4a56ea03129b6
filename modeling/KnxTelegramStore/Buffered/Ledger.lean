import KnxTelegramStore.Buffered.Effects

/-!
The ledger along a run. A call changes nothing in it before its first await,
so every step moves telegrams by one `Effect` (`step_effect`), and an effect is
a sequence of moves of the write-behind ledger (`Effect.moves`).
-/
namespace KnxTelegramStore.Buffered
open WriteBehind

variable {cfg : Config} {s s' : State} {t u : ℕ} {event : Event}

/-- A step that no task is resumed by leaves the telegrams and the tasks there
are alone. -/
structure Arrives (s s' : State) : Prop where
  serial : Serial s'
  ledger : s'.ledger = s.ledger
  initialized : s'.initialized = s.initialized
  closing : s.closing = true → s'.closing = true
  allowed : s.writesAllowed = true → s'.writesAllowed = true
  others : ∀ u, u < s.spawned → s'.pc u = s.pc u
  grown : s.spawned ≤ s'.spawned

theorem Serial.marks (serial : Serial s) (t : ℕ) : Arrives s (s.requestCancel t) := by
  obtain ⟨tasks, marked, same⟩ := s.requestCancel_frame t
  have hands : (s.requestCancel t).inFlight = s.inFlight := by
    rw [marked]
    unfold State.inFlight
    dsimp only
    cases s.mutationOwner with
    | none => rfl
    | some u => exact congrArg Pc.detached (same u)
  refine ⟨serial.requestCancel t, ?_, ?_, ?_, ?_, fun u _ => ?_, ?_⟩
  · unfold State.ledger
    rw [hands, marked]
    rfl
  all_goals rw [marked]
  · exact id
  · exact id
  · exact same u

theorem Serial.spawns (serial : Serial s) {pc : Pc} (quiet : pc.holdsMutation = false) :
    Arrives s (s.spawn pc) := by
  have older : ∀ u, u ≠ s.spawned → (s.spawn pc).pc u = s.pc u := fun u other => by
    simp [State.spawn, State.setPc, State.pc, other]
  have stranger : s.mutationOwner ≠ some s.spawned := by
    rw [ne_eq, ← serial.owner, serial.unborn _ (le_refl _)]
    exact Bool.false_ne_true
  have hands : (s.spawn pc).inFlight = s.inFlight := State.inFlight_setPc stranger
  refine ⟨serial.spawn quiet, ?_, rfl, id, id, fun u alive => older u (by omega), Nat.le_succ _⟩
  unfold State.ledger
  rw [hands]
  rfl

/-- The first steps of `close()` and `end_backup()`, which set a flag. -/
theorem Settled.arrives {s₁ : State} (settled : Settled s₁ s.spawned s.inFlight s')
    (ledger : s₁.ledgerWith s.inFlight = s.ledger) (tasks : s₁.tasks = s.tasks)
    (spawned : s₁.spawned = s.spawned + 1) (initialized : s₁.initialized = s.initialized)
    (closing : s.closing = true → s₁.closing = true)
    (allowed : s.writesAllowed = true → s₁.writesAllowed = true) : Arrives s s' := by
  have same := settled.flags
  simp only [State.flags, State.Flags.mk.injEq] at same
  obtain ⟨closing', initialized', allowed'⟩ := same
  refine ⟨settled.serial, settled.ledger.trans ledger, initialized'.trans initialized,
    fun closed => closing' ▸ closing closed, fun open_ => allowed' ▸ allowed open_, fun u alive => ?_,
    ?_⟩
  · rw [settled.others u (by omega) (by omega)]
    simp [State.pc, tasks]
  · have grown := settled.grown
    omega

theorem Serial.call (serial : Serial s) (op : Op) : Arrives s (s.call cfg op) := by
  have fresh := serial.unborn s.spawned (le_refl _)
  have quiet : (s.pc s.spawned).holdsMutation = false := by rw [fresh]; rfl
  have later : ∀ u, s.spawned + 1 ≤ u → s.pc u = .unborn := fun u beyond => serial.unborn u (by omega)
  cases op with
  | query flushFirst => cases flushFirst <;> exact serial.spawns rfl
  | endBackup =>
    unfold State.call State.endBackup
    dsimp only
    split
    · exact serial.spawns rfl
    · split
      · have opened : Serial { s with spawned := s.spawned + 1, writesAllowed := true } :=
          ⟨serial.lock, serial.owner, later⟩
        have settled : Settled _ s.spawned _ (State.setPc _ s.spawned (.done .raised)) :=
          opened.settled quiet (Nat.lt_succ_self _) rfl
        exact settled.arrives rfl rfl rfl rfl id fun _ => rfl
      · have ended : Serial { s with spawned := s.spawned + 1, backupInProgress := false } :=
          ⟨serial.lock, serial.owner, later⟩
        have settled : Settled _ s.spawned _ (State.setPc _ s.spawned (.endingBackup false)) :=
          ended.settled quiet (Nat.lt_succ_self _) rfl
        exact settled.arrives rfl rfl rfl rfl id id
  | close =>
    unfold State.call State.startClose State.endBackup
    dsimp only
    split
    · have closing : Serial { s with spawned := s.spawned + 1, closing := true } :=
        ⟨serial.lock, serial.owner, later⟩
      have settled := closing.stopFlushTask quiet (Nat.lt_succ_self _)
      exact settled.arrives rfl rfl rfl rfl (fun _ => rfl) id
    · split
      · have opened : Serial { s with spawned := s.spawned + 1, closing := true, writesAllowed := true } :=
          ⟨serial.lock, serial.owner, later⟩
        have settled : Settled _ s.spawned _ (State.setPc _ s.spawned (.done .raised)) :=
          opened.settled quiet (Nat.lt_succ_self _) rfl
        exact settled.arrives rfl rfl rfl rfl (fun _ => rfl) fun _ => rfl
      · have ended : Serial { s with spawned := s.spawned + 1, closing := true, backupInProgress := false } :=
          ⟨serial.lock, serial.owner, later⟩
        have settled : Settled _ s.spawned _ (State.setPc _ s.spawned (.endingBackup true)) :=
          ended.settled quiet (Nat.lt_succ_self _) rfl
        exact settled.arrives rfl rfl rfl rfl (fun _ => rfl) id
  | _ => exact serial.spawns rfl

theorem Serial.start (serial : Serial s) : Arrives s s.start := by
  unfold State.start
  split
  · exact ⟨serial, rfl, rfl, id, id, fun _ _ => rfl, le_refl _⟩
  · have spawned : Arrives s (s.spawn .sleeping) := serial.spawns rfl
    exact ⟨spawned.serial.congr rfl rfl (fun _ => rfl) rfl, spawned.ledger, spawned.initialized,
      spawned.closing, spawned.allowed, spawned.others, spawned.grown⟩

/-! ## One step -/

/-- **One step.** The critical section stays serial, and the telegrams move by
one effect. -/
theorem step_effect (serial : Serial s) (taken : step cfg s event = some s') :
    Serial s' ∧ Effect cfg s event s'.ledger := by
  have kept {s' : State} (arrives : Arrives s s') : Serial s' ∧ Effect cfg s event s'.ledger :=
    ⟨arrives.serial, arrives.ledger ▸ .keep event⟩
  cases event with
  | store telegram =>
    obtain rfl := Option.some.inj taken
    refine ⟨?_, ?_⟩
    · unfold State.store
      split
      · exact serial
      · exact serial.congr rfl rfl (fun _ => rfl) rfl
    · unfold State.store
      split
      · exact .keep _
      · rename_i ready
        exact .accept telegram (by simpa using ready)
  | start =>
    obtain rfl := Option.some.inj taken
    exact kept serial.start
  | call op =>
    obtain rfl := Option.some.inj taken
    exact kept (serial.call op)
  | cancel t =>
    obtain rfl := Option.some.inj taken
    exact kept (serial.marks t)
  | resume t outcome =>
    have advances := serial.resume (step_resume taken).2
    exact ⟨advances.serial, advances.effect⟩

/-! ## Effects as moves of the ledger -/

@[simp] theorem flushed_append (rows more : List Row) : flushed (rows ++ more) = flushed rows ++ flushed more :=
  List.filterMap_append

@[simp] theorem flushed_ofAccepted (items : List Accepted) : flushed (items.map Row.ofAccepted) = items := by
  simp [flushed, Row.ofAccepted, List.filterMap_map, Function.comp_def]

/-- Rows are selected by their telegrams alone. -/
theorem flushed_filter (rows : List Row) (p : StoredTelegram → Bool) :
    flushed (rows.filter fun row => p row.telegram) = (flushed rows).filter fun item => p item.telegram := by
  induction rows with
  | nil => rfl
  | cons row rows ih =>
    obtain ⟨telegram, number⟩ := row
    cases number <;> cases selected : p telegram <;>
      simpa [flushed, List.filter_cons, selected] using ih

/-- A write of a flush whose commit was cancelled and took effect nevertheless. -/
def Doubles (s : State) (event : Event) : Prop :=
  ∃ t, event = .resume t (.cancelled true) ∧ (s.pc t).writes = true

theorem acceptances_accept (cfg : Config) (s : State) (telegram : StoredTelegram) :
    (s.accept cfg telegram).acceptances = s.acceptances ++ [⟨s.accepted.length, telegram⟩] := by
  simp [State.acceptances, State.accept, List.zipIdx_append]

theorem ledgerWith_persist (s : State) (items batch : List Accepted) :
    (s.persist (items.map Row.ofAccepted)).ledgerWith batch =
      { s.ledgerWith batch with stored := flushed s.table ++ items } := by
  unfold State.ledgerWith State.persist
  rw [flushed_append, flushed_ofAccepted]
  rfl

private theorem requeue_moves {doubling : Prop} (s : State) (batch : List Accepted) :
    Moves doubling (s.ledgerWith batch) ((s.requeue cfg batch).ledgerWith []) :=
  .tail (.single (.requeue _)) (.trim _ ((batch ++ s.buffer).length - cfg.maxBufferSize) DropReason.capacity)

private theorem dropOlder_moves {doubling : Prop} (s : State) (batch : List Accepted) (cutoff : DateTime) :
    Moves doubling (s.ledgerWith batch) ((s.dropOlder cfg cutoff).ledgerWith batch) :=
  .single (.sift _ (isOlder cfg cutoff · == some true) DropReason.eviction)

private theorem deleteExpired_moves {doubling : Prop} (s : State) (batch : List Accepted)
    (cutoff : DateTime) :
    Moves doubling (s.ledgerWith batch) ((s.deleteExpired cfg cutoff).ledgerWith batch) := by
  have expired := flushed_filter s.table fun telegram =>
    telegram.timestamp.toMicros cfg.tzdb < cutoff.toMicros cfg.tzdb
  have kept := flushed_filter s.table fun telegram =>
    !decide (telegram.timestamp.toMicros cfg.tzdb < cutoff.toMicros cfg.tzdb)
  have move : Move doubling _ _ := .expire (s.ledgerWith batch)
    (fun item => item.telegram.timestamp.toMicros cfg.tzdb < cutoff.toMicros cfg.tzdb) DropReason.eviction
  simp only [State.ledgerWith, Ledger.discard, ← expired, ← kept] at move
  exact .single move

private theorem drop_all {α ρ : Type*} {doubling : Prop} (l : Ledger α ρ) (reason : ρ) :
    Moves doubling l { l.discard l.buffer reason with buffer := [] } := by
  have move : Move doubling _ _ := .trim l l.buffer.length reason
  rw [List.take_length, List.drop_length] at move
  exact .single move

theorem Effect.moves {after : Ledger Accepted DropReason} (effect : Effect cfg s event after) :
    Moves (Doubles s event) s.ledger after := by
  cases effect with
  | keep => exact .refl
  | accept telegram ready =>
    have trimmed : Move (Doubles s (.store telegram)) _ _ :=
      .trim s.ledger (if cfg.maxBufferSize ≤ s.buffer.length then 1 else 0) .capacity
    have accepted := (Relation.ReflTransGen.single trimmed).tail (.accept _ ⟨s.accepted.length, telegram⟩)
    have after : (s.accept cfg telegram).ledgerWith s.inFlight =
        { (s.accept cfg telegram).ledgerWith s.inFlight with
          accepted := s.acceptances ++ [⟨s.accepted.length, telegram⟩] } := by
      rw [← acceptances_accept cfg]
      rfl
    rw [after]
    exact accepted
  | detach t hands =>
    have moved : Move (Doubles s (.resume t .returned)) _ _ := .detach s.ledger hands
    exact .single moved
  | commitBatch t batch hands =>
    subst hands
    have moved : Move (Doubles s (.resume t .returned)) _ _ := .commit s.ledger s.ledger.batch.length
    rw [List.take_length, List.drop_length] at moved
    rw [ledgerWith_persist]
    exact .single moved
  | commitRow t rest hands =>
    subst hands
    have moved : Move (Doubles s (.resume t .returned)) _ _ := .commit s.ledger 1
    rw [List.drop_one] at moved
    rw [ledgerWith_persist]
    exact .single moved
  | reject t caller rest phase at_ hands =>
    subst hands
    have moved : Move (Doubles s (.resume t (.raised true))) _ _ := .reject s.ledger 1 .dataError
    rw [List.drop_one] at moved
    exact .single moved
  | requeue t outcome batch inside hands =>
    subst hands
    exact requeue_moves s _
  | double t batch n writes hands =>
    subst hands
    have moved := Move.double s.ledger n (⟨t, rfl, writes⟩ : Doubles s (.resume t (.cancelled true)))
    have stored : Moves (Doubles s (.resume t (.cancelled true))) s.ledger
        ((s.persist ((s.inFlight.take n).map Row.ofAccepted)).ledgerWith s.inFlight) := by
      rw [ledgerWith_persist]
      exact .single moved
    exact stored.trans (requeue_moves _ _)
  | evictStored => exact deleteExpired_moves s _ _
  | evictBuffered => exact dropOlder_moves s _ _
  | evict t cutoff => exact (deleteExpired_moves s _ cutoff).trans (dropOlder_moves _ _ cutoff)
  | clearBuffer => exact drop_all s.ledger .clear
  | clearStored t outcome =>
    have moved : Move (Doubles s (.resume t outcome)) _ _ := .expire s.ledger (fun _ => true) .clear
    rw [List.filter_true, Bool.not_true, List.filter_false] at moved
    exact .single moved
  | neverInitialized => exact drop_all s.ledger .neverInitialized

/-- What holds of the ledger in every state a run reaches. -/
theorem step_moves (serial : Serial s) (taken : step cfg s event = some s') :
    Moves (Doubles s event) s.ledger s'.ledger :=
  (step_effect serial taken).2.moves

end KnxTelegramStore.Buffered
