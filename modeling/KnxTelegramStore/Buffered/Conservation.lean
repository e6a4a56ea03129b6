import KnxTelegramStore.Buffered.Ledger
import Mathlib.Data.List.Nodup

/-!
Conservation of the write buffer over whole runs: where every accepted
telegram is, in which order the pending ones wait, and which step gave up one
that is gone. All of it rests on one assumption about the database: a
`store_many` that raises has stored nothing (`WritesWhole`). Without it a
telegram may be stored more than once, and `stored_at_most_once` says that
nothing else does that.
-/
namespace KnxTelegramStore.Buffered
open WriteBehind EventMachine

variable {cfg : Config} {s s' : State} {t : ℕ} {event : Event} {events : List Event}
variable {initialized : Bool} {item : Accepted} {reason : DropReason}

/-- A `store_many` that a flush awaits persists its whole batch and returns, or
persists nothing and raises. -/
def WritesWhole (s : State) (event : Event) : Prop := ¬ Doubles s event

/-- Where an accepted telegram can be. -/
inductive Place where
  | buffer
  | inFlight
  | stored
  | dropped (reason : DropReason)

def State.At (s : State) (item : Accepted) : Place → Prop
  | .buffer => item ∈ s.buffer
  | .inFlight => item ∈ s.inFlight
  | .stored => Row.ofAccepted item ∈ s.table
  | .dropped reason => (item, reason) ∈ s.dropped

/-- Why a step that leaves `left` in the buffer gives a telegram up. -/
def GivenUp (cfg : Config) (s : State) (event : Event) (left : List Accepted) (item : Accepted) :
    DropReason → Prop
  | .capacity => item ∈ s.inFlight ++ s.buffer ∧ left.length = cfg.maxBufferSize ∧
      ∀ kept ∈ left, item.number < kept.number
  | .dataError => ∃ t caller rest phase,
      event = .resume t (.raised true) ∧ s.pc t = .flushRow caller (item :: rest) phase
  | .eviction => ∃ t outcome cutoff, event = .resume t outcome ∧
      (s.pc t = .evicting cutoff .committing ∧ Row.ofAccepted item ∈ s.table ∧
          isExpired cfg cutoff (Row.ofAccepted item) = true ∨
        (s.pc t = .evicting cutoff .committing ∨ ∃ deleted, s.pc t = .refreshing cutoff deleted) ∧
          item ∈ s.buffer ∧ isOlder cfg cutoff item = some true)
  | .clear => ∃ t outcome, event = .resume t outcome ∧
      (s.pc t = .clearLock ∧ item ∈ s.buffer ∨
        s.pc t = .clearing .committing ∧ Row.ofAccepted item ∈ s.table)
  | .neverInitialized => ∃ t, event = .resume t .returned ∧ s.pc t = .mutation .close ∧
      s.initialized = false ∧ item ∈ s.buffer

theorem mem_flushed {rows : List Row} : item ∈ flushed rows ↔ Row.ofAccepted item ∈ rows := by
  simp only [flushed, List.mem_filterMap, Option.map_eq_some_iff, Row.ofAccepted]
  constructor
  · rintro ⟨row, mem, number, same, rfl⟩
    rwa [← same]
  · intro mem
    exact ⟨_, mem, item.number, rfl, rfl⟩

theorem numbers_acceptances (s : State) : s.acceptances.map Accepted.number = List.range s.accepted.length := by
  unfold State.acceptances
  rw [List.map_map]
  simp [Function.comp_def, List.range_eq_range']

theorem acceptances_ordered (s : State) : s.acceptances.Pairwise (·.number < ·.number) := by
  have ordered := List.pairwise_lt_range (n := s.accepted.length)
  rw [← numbers_acceptances, List.pairwise_map] at ordered
  exact ordered

theorem acceptances_nodup (s : State) : s.acceptances.Nodup :=
  (acceptances_ordered s).imp fun before same => by
    rw [same] at before
    exact lt_irrefl _ before

theorem number_lt (mem : item ∈ s.acceptances) : item.number < s.accepted.length := by
  have mem := List.mem_map_of_mem (f := Accepted.number) mem
  rwa [numbers_acceptances, List.mem_range] at mem

/-! ## Runs -/

/-- The ledger along a run, from any state on. -/
theorem run_moves {doubling : Prop} {ok : State → Event → Prop}
    (allowed : ∀ s event, ok s event → Doubles s event → doubling)
    (serial : Serial s) (held : Along (step cfg) ok s events)
    (ran : EventMachine.run (step cfg) s events = some s') :
    Serial s' ∧ Moves doubling s.ledger s'.ledger := by
  refine run_invariant (I := fun s' => Serial s' ∧ Moves doubling s.ledger s'.ledger) ?_
    ⟨serial, .refl⟩ held ran
  rintro s₁ event s₂ ⟨serial, moves⟩ met taken
  have move := (step_moves serial taken).mono (allowed s₁ event met)
  exact ⟨(step_effect serial taken).1, moves.trans move⟩

/-- The ledger along any run at all. -/
theorem run_moves_any (serial : Serial s) (ran : EventMachine.run (step cfg) s events = some s') :
    Serial s' ∧ Moves True s.ledger s'.ledger := by
  have free : Along (step cfg) (fun _ _ => True) s events := along_of_mem fun _ _ _ => trivial
  exact run_moves (fun _ _ _ _ => trivial) serial free ran

theorem run_serial (ran : run cfg initialized events = some s) : Serial s :=
  (run_moves_any (Serial.init initialized) ran).1

/-- What is pending is in the order of acceptance, whatever the writes do. -/
theorem run_pending (ran : run cfg initialized events = some s) :
    (s.inFlight ++ s.buffer).Sublist s.acceptances := by
  have moves := (run_moves_any (Serial.init initialized) ran).2
  exact moves_pending moves (List.Sublist.refl _)

theorem run_conserves (whole : Along (step cfg) WritesWhole (State.init initialized) events)
    (ran : run cfg initialized events = some s) : s.ledger.holdings.Perm s.acceptances := by
  have moves : Moves False _ s.ledger :=
    (run_moves (fun _ _ met doubles => met doubles) (Serial.init initialized) whole ran).2
  exact moves_conserve moves (List.Perm.refl _)

/-! ## The buffer never outgrows its bound -/

theorem Effect.bounded {after : Ledger Accepted DropReason} (effect : Effect cfg s event after)
    (bounded : s.buffer.length ≤ cfg.maxBufferSize) : after.buffer.length ≤ cfg.maxBufferSize := by
  have positive := cfg.maxBufferSize_pos
  have requeued (s : State) (batch : List Accepted) :
      (s.requeue cfg batch).buffer.length ≤ cfg.maxBufferSize := by
    simp only [State.requeue, List.length_drop]
    omega
  cases effect with
  | accept telegram =>
    simp only [State.ledgerWith, State.accept, List.length_append, List.length_drop, List.length_singleton]
    split <;> omega
  | detach => exact Nat.zero_le _
  | requeue t outcome batch => exact requeued s batch
  | double t batch n => exact requeued _ batch
  | evictBuffered => exact (List.length_filter_le _ _).trans bounded
  | evict => exact (List.length_filter_le _ _).trans bounded
  | clearBuffer => exact Nat.zero_le _
  | neverInitialized => exact Nat.zero_le _
  | _ => exact bounded

theorem run_bounded (ran : run cfg initialized events = some s) :
    s.buffer.length ≤ cfg.maxBufferSize := by
  refine (run_keeps (I := fun s => Serial s ∧ s.buffer.length ≤ cfg.maxBufferSize) ?_
    ⟨Serial.init initialized, Nat.zero_le _⟩ ran).2
  rintro s₁ event s₂ ⟨serial, bounded⟩ taken
  obtain ⟨serial', effect⟩ := step_effect serial taken
  exact ⟨serial', effect.bounded bounded⟩

/-! ## Every loss has its reason -/

/-- The items a capacity rule drops are older than those it keeps. -/
private theorem older_than_kept {queue : List Accepted} (ordered : queue.Pairwise (·.number < ·.number))
    {n : ℕ} (gone : item ∈ queue.take n) : ∀ kept ∈ queue.drop n, item.number < kept.number := by
  rw [← List.take_append_drop n queue, List.pairwise_append] at ordered
  exact fun kept mem => ordered.2.2 item gone kept mem

private theorem mem_giveUp {items : List Accepted} {reason' : DropReason}
    (now : (item, reason) ∈ s.dropped ++ items.map fun item => (item, reason'))
    (fresh : (item, reason) ∉ s.dropped) : item ∈ items ∧ reason = reason' := by
  rcases List.mem_append.mp now with old | new
  · exact absurd old fresh
  · obtain ⟨other, mem, same⟩ := List.mem_map.mp new
    cases same
    exact ⟨mem, rfl⟩

private theorem requeue_given_up (stored : List Row) {batch : List Accepted} (hands : s.inFlight = batch)
    (ordered : (s.inFlight ++ s.buffer).Pairwise (·.number < ·.number))
    (fresh : (item, reason) ∉ s.dropped)
    (now : (item, reason) ∈ ((s.persist stored).requeue cfg batch).dropped) :
    GivenUp cfg s event ((s.persist stored).requeue cfg batch).buffer item reason := by
  subst hands
  obtain ⟨gone, rfl⟩ := mem_giveUp now fresh
  refine ⟨List.mem_of_mem_take gone, ?_, older_than_kept ordered gone⟩
  have surplus : 0 < (s.inFlight ++ s.buffer).length - cfg.maxBufferSize := by
    by_contra none
    have zero : (s.inFlight ++ (s.persist stored).buffer).length - cfg.maxBufferSize = 0 :=
      Nat.eq_zero_of_not_pos none
    rw [zero] at gone
    simp at gone
  show ((s.inFlight ++ s.buffer).drop ((s.inFlight ++ s.buffer).length - cfg.maxBufferSize)).length = _
  rw [List.length_drop]
  omega

private theorem dropOlder_given_up {cutoff : DateTime} (rows : List Row)
    (dropped : List (Accepted × DropReason)) (fresh : (item, reason) ∉ dropped)
    (now : (item, reason) ∈ (({ s with table := rows, dropped } : State).dropOlder cfg cutoff).dropped) :
    reason = .eviction ∧ item ∈ s.buffer ∧ isOlder cfg cutoff item = some true := by
  obtain ⟨gone, rfl⟩ := mem_giveUp (s := { s with table := rows, dropped }) now fresh
  obtain ⟨buffered, older⟩ := List.mem_filter.mp gone
  exact ⟨rfl, buffered, by simpa using older⟩

private theorem deleteExpired_given_up {cutoff : DateTime} (fresh : (item, reason) ∉ s.dropped)
    (now : (item, reason) ∈ (s.deleteExpired cfg cutoff).dropped) :
    reason = .eviction ∧ Row.ofAccepted item ∈ s.table ∧ isExpired cfg cutoff (Row.ofAccepted item) = true := by
  obtain ⟨gone, rfl⟩ := mem_giveUp now fresh
  obtain ⟨stored, expired⟩ := List.mem_filter.mp (mem_flushed.mp gone)
  exact ⟨rfl, stored, expired⟩

/-- A telegram that an effect gives up is given up for the reason recorded. -/
theorem Effect.given_up {after : Ledger Accepted DropReason} (effect : Effect cfg s event after)
    (pending : (s.inFlight ++ s.buffer).Sublist s.acceptances)
    (bounded : s.buffer.length ≤ cfg.maxBufferSize)
    (fresh : (item, reason) ∉ s.dropped) (now : (item, reason) ∈ after.dropped) :
    GivenUp cfg s event after.buffer item reason := by
  have ordered := (acceptances_ordered s).sublist pending
  cases effect with
  | keep => exact absurd now fresh
  | detach => exact absurd now fresh
  | commitBatch => exact absurd now fresh
  | commitRow => exact absurd now fresh
  | accept telegram =>
    obtain ⟨gone, rfl⟩ := mem_giveUp now fresh
    have full : cfg.maxBufferSize ≤ s.buffer.length := by
      by_contra room
      simp [room] at gone
    rw [if_pos full] at gone
    have old : item ∈ s.acceptances :=
      pending.subset (List.mem_append_right _ (List.mem_of_mem_take gone))
    have left : ((s.accept cfg telegram).ledgerWith s.inFlight).buffer =
        s.buffer.drop 1 ++ [⟨s.accepted.length, telegram⟩] := by
      simp [State.ledgerWith, State.accept, full]
    refine ⟨List.mem_append_right _ (List.mem_of_mem_take gone), ?_, fun kept mem => ?_⟩
    · have positive := cfg.maxBufferSize_pos
      rw [left]
      simp only [List.length_append, List.length_drop, List.length_singleton]
      omega
    · rw [left, List.mem_append] at mem
      rcases mem with older | new
      · have buffered := (List.pairwise_append.mp ordered).2.1
        exact older_than_kept buffered gone kept older
      · rw [List.mem_singleton.mp new]
        exact number_lt old
  | reject t caller rest phase at_ hands =>
    obtain ⟨gone, rfl⟩ := mem_giveUp now fresh
    cases rest with
    | nil => simp at gone
    | cons first rest =>
      have same : item = first := by simpa using gone
      exact ⟨t, caller, rest, phase, rfl, same ▸ at_⟩
  | requeue t outcome batch inside hands =>
    have same : s.persist [] = s := by simp [State.persist]
    have lost : (item, reason) ∈ ((s.persist []).requeue cfg batch).dropped → GivenUp cfg s (.resume t outcome)
        ((s.persist []).requeue cfg batch).buffer item reason := requeue_given_up [] hands ordered fresh
    rw [same] at lost
    exact lost now
  | double t batch n writes hands => exact requeue_given_up _ hands ordered fresh now
  | evictStored t outcome cutoff at_ =>
    obtain ⟨rfl, stored, expired⟩ := deleteExpired_given_up fresh now
    exact ⟨t, outcome, cutoff, rfl, .inl ⟨at_, stored, expired⟩⟩
  | evictBuffered t cutoff deleted at_ =>
    obtain ⟨rfl, buffered, older⟩ := dropOlder_given_up s.table s.dropped fresh now
    exact ⟨t, .returned, cutoff, rfl, .inr ⟨.inr ⟨deleted, at_⟩, buffered, older⟩⟩
  | evict t cutoff at_ =>
    by_cases stored : (item, reason) ∈ (s.deleteExpired cfg cutoff).dropped
    · obtain ⟨rfl, stored, expired⟩ := deleteExpired_given_up fresh stored
      exact ⟨t, .returned, cutoff, rfl, .inl ⟨at_, stored, expired⟩⟩
    · obtain ⟨rfl, buffered, older⟩ := dropOlder_given_up _ _ stored now
      exact ⟨t, .returned, cutoff, rfl, .inr ⟨.inl at_, buffered, older⟩⟩
  | clearBuffer t at_ =>
    obtain ⟨gone, rfl⟩ := mem_giveUp now fresh
    exact ⟨t, .returned, rfl, .inl ⟨at_, gone⟩⟩
  | clearStored t outcome at_ =>
    obtain ⟨gone, rfl⟩ := mem_giveUp now fresh
    exact ⟨t, outcome, rfl, .inr ⟨at_, mem_flushed.mp gone⟩⟩
  | neverInitialized t at_ uninitialized =>
    obtain ⟨gone, rfl⟩ := mem_giveUp now fresh
    exact ⟨t, rfl, at_, uninitialized, gone⟩

/-- The step of the run that gave a telegram up. -/
theorem run_given_up (ran : run cfg initialized events = some s) (lost : (item, reason) ∈ s.dropped) :
    ∃ before event rest s₁ s₂, events = before ++ event :: rest ∧
      run cfg initialized before = some s₁ ∧ step cfg s₁ event = some s₂ ∧
      GivenUp cfg s₁ event s₂.buffer item reason := by
  obtain ⟨before, event, rest, s₁, s₂, split, reached, taken, fresh, now⟩ :=
    run_crossing (P := fun s => (item, reason) ∈ s.dropped) ran (by simp [State.init]) lost
  have effect := (step_effect (run_serial reached) taken).2
  exact ⟨before, event, rest, s₁, s₂, split, reached, taken,
    effect.given_up (run_pending reached) (run_bounded reached) fresh now⟩

/-! ## The main results -/

private theorem held_iff_at : item ∈ s.ledger.holdings ↔ ∃ place, s.At item place := by
  have split : item ∈ s.ledger.holdings ↔ item ∈ s.buffer ∨ item ∈ s.inFlight ∨
      Row.ofAccepted item ∈ s.table ∨ ∃ reason, (item, reason) ∈ s.dropped := by
    simp only [Ledger.holdings, List.mem_append, List.mem_map, Prod.exists, exists_and_right,
      exists_eq_right, State.ledger, State.ledgerWith, mem_flushed, or_assoc]
  rw [split]
  constructor
  · rintro (buffered | detached | stored | ⟨reason, lost⟩)
    · exact ⟨.buffer, buffered⟩
    · exact ⟨.inFlight, detached⟩
    · exact ⟨.stored, stored⟩
    · exact ⟨.dropped reason, lost⟩
  · rintro ⟨place, at_⟩
    cases place with
    | buffer => exact .inl at_
    | inFlight => exact .inr (.inl at_)
    | stored => exact .inr (.inr (.inl at_))
    | dropped reason => exact .inr (.inr (.inr ⟨reason, at_⟩))

/-- Distinct holdings are in one place each. -/
private theorem one_place (distinct : s.ledger.holdings.Nodup) {place place' : Place}
    (at_ : s.At item place) (at' : s.At item place') : place = place' := by
  simp only [Ledger.holdings, List.nodup_append, List.mem_append] at distinct
  obtain ⟨⟨⟨_, _, buffer_batch⟩, _, pending_stored⟩, unique, rest_dropped⟩ := distinct
  have gone {reason : DropReason} (lost : (item, reason) ∈ s.dropped) : item ∈ s.dropped.map Prod.fst :=
    List.mem_map_of_mem (f := Prod.fst) lost
  have stored (row : Row.ofAccepted item ∈ s.table) : item ∈ s.ledger.stored := mem_flushed.mpr row
  cases place <;> cases place'
  case buffer.buffer | inFlight.inFlight | stored.stored => rfl
  case dropped.dropped reason reason' =>
    have same := List.inj_on_of_nodup_map unique at_ at' rfl
    rw [(Prod.mk.inj same).2]
  case buffer.inFlight => exact absurd rfl (buffer_batch item at_ item at')
  case inFlight.buffer => exact absurd rfl (buffer_batch item at' item at_)
  case buffer.stored => exact absurd rfl (pending_stored item (.inl at_) item (stored at'))
  case stored.buffer => exact absurd rfl (pending_stored item (.inl at') item (stored at_))
  case inFlight.stored => exact absurd rfl (pending_stored item (.inr at_) item (stored at'))
  case stored.inFlight => exact absurd rfl (pending_stored item (.inr at') item (stored at_))
  case buffer.dropped => exact absurd rfl (rest_dropped item (.inl (.inl at_)) item (gone at'))
  case dropped.buffer => exact absurd rfl (rest_dropped item (.inl (.inl at')) item (gone at_))
  case inFlight.dropped => exact absurd rfl (rest_dropped item (.inl (.inr at_)) item (gone at'))
  case dropped.inFlight => exact absurd rfl (rest_dropped item (.inl (.inr at')) item (gone at_))
  case stored.dropped => exact absurd rfl (rest_dropped item (.inr (stored at_)) item (gone at'))
  case dropped.stored => exact absurd rfl (rest_dropped item (.inr (stored at')) item (gone at_))

/-- **Conservation of the write buffer.** Wherever a run has come to, every
accepted telegram is in one place, held once: the buffer, the batch of the
one flush in progress, the table, or among those given up by the step of the
run that had the reason on record. The pending ones are in the order they were
accepted in. -/
theorem write_buffer_conservation
    (whole : Along (step cfg) WritesWhole (State.init initialized) events)
    (ran : run cfg initialized events = some s) :
    (∀ item ∈ s.acceptances, ∃! place, s.At item place) ∧
      (∀ item place, s.At item place → item ∈ s.acceptances) ∧
      (s.buffer ++ s.inFlight ++ flushed s.table ++ s.dropped.map Prod.fst).Nodup ∧
      (∀ t, (s.pc t).detached ≠ [] → s.mutationOwner = some t) ∧
      (s.inFlight ++ s.buffer).Pairwise (·.number < ·.number) ∧
      ∀ item reason, (item, reason) ∈ s.dropped →
        ∃ before event rest s₁ s₂, events = before ++ event :: rest ∧
          run cfg initialized before = some s₁ ∧ step cfg s₁ event = some s₂ ∧
          GivenUp cfg s₁ event s₂.buffer item reason := by
  have conserved := run_conserves whole ran
  have distinct := conserved.nodup_iff.mpr (acceptances_nodup s)
  refine ⟨fun item mem => ?_, fun item place at_ => ?_, distinct, fun t detached => ?_,
    (acceptances_ordered s).sublist (run_pending ran), fun item reason => run_given_up ran⟩
  · obtain ⟨place, at_⟩ := held_iff_at.mp (conserved.mem_iff.mpr mem)
    exact ⟨place, at_, fun place' at' => one_place distinct at' at_⟩
  · exact conserved.mem_iff.mp (held_iff_at.mpr ⟨place, at_⟩)
  · refine ((run_serial ran).owner t).mp ?_
    by_contra outside
    exact detached (Pc.detached_of_outside (by simpa using outside))

/-- A store and a telegram to run the model on. -/
def sampleConfig : Config := ⟨.sqlite, 2, by decide, fun _ _ _ => 0⟩

def sampleTelegram : StoredTelegram where
  timestamp := .ofMicros 0
  source := "1.1.1"
  destination := "1/2/3"
  telegramtype := "GroupValueWrite"
  direction := "Incoming"

/-- Three telegrams for two places, and a flush that meets a data error. -/
def rejectedWrite : List Event :=
  [.store sampleTelegram, .store sampleTelegram, .store sampleTelegram, .call .flush,
    .resume 0 .returned, .resume 0 .returned, .resume 0 .returned, .resume 0 (.raised true),
    .resume 0 .returned, .resume 0 (.raised true)]

theorem rejectedWrite_whole : Along (step sampleConfig) WritesWhole (State.init true) rejectedWrite := by
  refine along_of_mem fun event mem s doubles => ?_
  obtain ⟨t, rfl, _⟩ := doubles
  simp [rejectedWrite] at mem

theorem rejected_write_conserves :
    ∃ s, run sampleConfig true rejectedWrite = some s ∧ s.accepted.length = 3 ∧
      s.dropped.length = 2 ∧ ∀ item ∈ s.acceptances, ∃! place, s.At item place := by
  exact ⟨_, rfl, rfl, rfl, (write_buffer_conservation rejectedWrite_whole rfl).1⟩

/-- **At most once.** Unless a flush's commit takes effect although its task
was cancelled in it, an accepted telegram has at most one row. -/
theorem stored_at_most_once
    (whole : Along (step cfg) WritesWhole (State.init initialized) events)
    (ran : run cfg initialized events = some s) (number : ℕ) :
    s.table.countP (·.number = some number) ≤ 1 := by
  have conserved := run_conserves whole ran
  have stored : (flushed s.table).Sublist s.ledger.holdings :=
    (List.sublist_append_right _ _).trans (List.sublist_append_left _ _)
  have counted : ((flushed s.table).map Accepted.number).count number ≤
      (s.acceptances.map Accepted.number).count number :=
    ((stored.map _).count_le number).trans_eq ((conserved.map _).count_eq number)
  have numbered : s.table.countP (·.number = some number) ≤
      ((flushed s.table).map Accepted.number).count number := by
    simp only [flushed, List.count, List.countP_map, List.countP_filterMap]
    refine List.countP_mono_left fun row _ same => ?_
    simp only [decide_eq_true_eq] at same
    simp [same]
  have once : (s.acceptances.map Accepted.number).Nodup := by
    rw [numbers_acceptances]
    exact List.nodup_range
  exact numbered.trans (counted.trans (List.nodup_iff_count_le_one.mp once number))

theorem rejected_write_stored_once :
    ∃ s, run sampleConfig true rejectedWrite = some s ∧ s.table.countP (·.number = some 1) ≤ 1 := by
  exact ⟨_, rfl, stored_at_most_once rejectedWrite_whole rfl 1⟩

/-- `close()` cancels the periodic flush in its commit, the commit takes
effect, and the final flush writes the batch again. -/
theorem cancelled_commit_stores_twice :
    ∃ s, run sampleConfig true
        [.start, .store sampleTelegram, .resume 0 .returned, .resume 0 .returned, .resume 0 .returned,
          .resume 0 .returned, .resume 0 .returned, .call .close, .resume 0 (.cancelled true),
          .resume 1 .returned, .resume 1 .returned, .resume 1 .returned, .resume 1 .returned,
          .resume 1 .returned, .resume 1 .returned, .resume 1 .returned] = some s ∧
      s.pc 1 = .done (.returned none) ∧ s.table.countP (·.number = some 0) = 2 :=
  ⟨_, rfl, rfl, rfl⟩

end KnxTelegramStore.Buffered
