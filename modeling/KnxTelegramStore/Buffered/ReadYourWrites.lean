import KnxTelegramStore.Buffered.Bystanders
import KnxTelegramStore.Buffered.Shutdown

/-!
Reads that promise to see every write do. A `flush()` waits for the mutation
lock, so a flush that was under way has put its batch back or written it before
the buffer is detached; from then on everything that is pending was accepted
after the call (`State.Recent`), and stays so. What `flush()` has detached is
in the table when it returns, in its order, but for the telegrams whose own
write failed (`Wrote`).
-/
namespace KnxTelegramStore.Buffered
open WriteBehind EventMachine

variable {cfg : Config} {s s₁ s' : State} {t u n : ℕ} {event : Event} {outcome : Outcome}
variable {caller : FlushCaller} {batch rest : List Accepted} {base : List Row} {item : Accepted}

/-- The caller is `flush()`, called directly, by a read or by `optimize()`. -/
def FlushCaller.explicit : FlushCaller → Bool
  | .flush _ | .optimize => true
  | _ => false

theorem failFlush_explicit (s : State) (t : ℕ) (result : Result) (explicit : caller.explicit = true) :
    s.failFlush t result caller = s.leave t result := by
  cases caller <;> first | rfl | cases explicit

/-! ## What is pending is recent -/

/-- None of the first `n` telegrams accepted is pending. -/
def State.Recent (s : State) (n : ℕ) : Prop := ∀ item ∈ s.ledger.pending, n ≤ item.number

theorem number_of_newer (mem : item ∈ newer s.ledger s'.ledger) : s.accepted.length ≤ item.number := by
  have counted : s.ledger.accepted.length = s.accepted.length := by
    rw [← List.length_map Accepted.number]
    exact (congrArg List.length (numbers_acceptances s)).trans List.length_range
  have numbered := List.mem_map_of_mem (f := Accepted.number) mem
  rw [newer, counted, List.map_drop] at numbered
  have range : s'.ledger.accepted.map Accepted.number = List.range s'.accepted.length := numbers_acceptances s'
  rw [range, List.mem_drop_iff_getElem] at numbered
  obtain ⟨i, _, same⟩ := numbered
  rw [List.getElem_range] at same
  omega

theorem step_known (serial : Serial s) (taken : step cfg s event = some s') :
    s.accepted.length ≤ s'.accepted.length := by
  have grown := (moves_accepted (step_moves serial taken)).length_le
  have counted (s : State) : s.ledger.accepted.length = s.accepted.length := by
    simp [State.ledger, State.ledgerWith, State.acceptances]
  rwa [counted, counted] at grown

/-- Nothing becomes pending again. -/
theorem State.Recent.step (recent : s.Recent n) (serial : Serial s) (known : n ≤ s.accepted.length)
    (taken : step cfg s event = some s') : s'.Recent n := by
  intro item pending
  rcases moves_recent (step_moves serial taken) pending with before | accepted
  · exact recent item before
  · exact known.trans (number_of_newer accepted)

/-! ## How far a `flush()` has come -/

def State.Flushing (s : State) (n : ℕ) : Pc → Prop
  | .mutation (.flush _) => True
  | .flushLock caller => caller.explicit = true
  | .flushGate caller .. | .flushBatch caller .. | .flushRow caller .. =>
    caller.explicit = true ∧ ∀ item ∈ s.buffer, n ≤ item.number
  | .reading | .optimizing | .done (.returned _) => s.Recent n
  | .done _ => True
  | _ => False

structure FlushProgress (s : State) (t n : ℕ) : Prop where
  nested : Nested s
  alive : t < s.spawned
  known : n ≤ s.accepted.length
  progress : s.Flushing n (s.pc t)

/-- The state a segment leaves the task in. -/
theorem flushing_setPc {pc : Pc} (flushing : (s.setPc t pc).Flushing n pc) :
    (s.setPc t pc).Flushing n ((s.setPc t pc).pc t) := by
  rwa [State.pc_setPc_self]

theorem flushing_fails (s : State) (t : ℕ) {result : Result} (explicit : caller.explicit = true)
    (failed : ∀ count, result ≠ .returned count) :
    (s.failFlush t result caller).Flushing n ((s.failFlush t result caller).pc t) := by
  rw [failFlush_explicit s t result explicit]
  refine flushing_setPc ?_
  cases result with
  | returned count => exact absurd rfl (failed count)
  | raised => trivial
  | cancelled => trivial

theorem flushing_cancels (s : State) (t : ℕ) (written rest : List Accepted) (tookEffect : Bool)
    (explicit : caller.explicit = true) :
    (s.cancelWrite cfg t caller written rest tookEffect).Flushing n
      ((s.cancelWrite cfg t caller written rest tookEffect).pc t) := by
  unfold State.cancelWrite
  exact flushing_fails _ t explicit nofun

/-- The flush returns, and what is still pending has come in meanwhile. -/
theorem Around.flushing_returns (around : Around s t true) (explicit : caller.explicit = true)
    (recent : ∀ item ∈ s.buffer, n ≤ item.number) :
    (s.afterFlush cfg t caller).Flushing n ((s.afterFlush cfg t caller).pc t) := by
  have pending : (s.afterFlush cfg t caller).Recent n := by
    have settled : (s.afterFlush cfg t caller).ledger = s.ledgerWith [] := (around.afterFlush caller).ledger
    intro item mem
    rw [settled] at mem
    exact recent item (by simpa [Ledger.pending, State.ledgerWith] using mem)
  cases caller <;> try (cases explicit; done)
  case flush reads =>
    refine flushing_setPc ?_
    cases reads <;> exact pending
  case optimize => exact flushing_setPc pending

theorem Around.flushing_rows (around : Around s t true) (explicit : caller.explicit = true)
    (recent : ∀ item ∈ s.buffer, n ≤ item.number) (rest : List Accepted) :
    (s.nextRow cfg t caller rest).Flushing n ((s.nextRow cfg t caller rest).pc t) := by
  cases rest with
  | nil =>
    have unlocked := around.congr s.unlockFlush rfl rfl rfl rfl
    exact unlocked.flushing_returns explicit recent
  | cons item rest => exact flushing_setPc ⟨explicit, recent⟩

theorem Around.flushing_write (around : Around s t true) (rows : Bool) {phase : Phase}
    (explicit : caller.explicit = true)
    (recent : ∀ item ∈ s.buffer, n ≤ item.number)
    (taken : s.resume cfg t (.write caller rest rows phase) outcome = some s') : s'.Flushing n (s'.pc t) := by
  cases resume_write rows taken with
  | executed => cases rows <;> exact flushing_setPc ⟨explicit, recent⟩
  | stored =>
    have persisted := around.congr (s.persist ((rest.take (writeSize rest rows)).map Row.ofAccepted)) rfl rfl rfl rfl
    exact persisted.flushing_rows explicit recent _
  | split => exact around.flushing_rows explicit recent rest
  | rejected =>
    have given := around.congr (s.giveUp (rest.take 1) .dataError) rfl rfl rfl rfl
    exact given.flushing_rows explicit recent _
  | kept =>
    have raises : caller.raiseOnError = true := by cases caller <;> first | rfl | cases explicit
    unfold State.keepBatch
    rw [if_pos raises]
    exact flushing_fails _ t explicit nofun
  | cancelled tookEffect => exact flushing_cancels s t _ rest tookEffect explicit

/-- The flush gets the mutation lock while writes are allowed. -/
def FlushesOpen (t : ℕ) (s : State) (event : Event) : Prop :=
  ∀ reads, event = .resume t .returned → s.pc t = .mutation (.flush reads) → s.writesAllowed = true

theorem FlushProgress.own (flush : FlushProgress s t n) (open_ : FlushesOpen t s (.resume t outcome))
    (taken : step cfg s (.resume t outcome) = some s') : s'.Flushing n (s'.pc t) := by
  have progress := flush.progress
  have resumed := (step_resume taken).2
  have around (inside : (s.pc t).holdsMutation = true) := flush.nested.serial.around inside
  have still (recent : s.Recent n) : s'.Recent n := recent.step flush.nested.serial flush.known taken
  cases at_ : s.pc t <;> rw [at_] at resumed progress around <;> try exact progress.elim
  case done => cases outcome <;> cases resumed
  case mutation next =>
    cases next <;> try exact progress.elim
    rename_i reads
    rcases outcome with _ | _ | _ | _
    case returned =>
      have waits : (if s.mutationLock then none
        else if s.closing ∧ ¬ (Waiting.flush reads).isClose then some (s.refuse t (.flush reads))
        else some (s.enter cfg t (.flush reads))) = some s' := resumed
      split at waits
      · cases waits
      · split at waits
        · obtain rfl := Option.some.inj waits
          exact flushing_setPc trivial
        · obtain rfl := Option.some.inj waits
          have starts : s.enter cfg t (.flush reads) = (s.acquire t).setPc t (.flushLock (.flush reads)) := by
            simp [State.enter, State.startFlush, State.acquire, open_ reads rfl at_]
          rw [starts]
          exact flushing_setPc rfl
    case cancelled.false =>
      obtain rfl := Option.some.inj resumed
      exact flushing_setPc trivial
    all_goals cases resumed
  case flushLock caller =>
    rcases outcome with _ | _ | _ | _
    case returned =>
      have locks : (if s.flushLock then none else some (s.detachBatch cfg t caller)) = some s' := resumed
      split at locks
      · cases locks
      · obtain rfl := Option.some.inj locks
        unfold State.detachBatch
        split
        · rename_i empty
          refine (around rfl).flushing_returns progress fun item mem => ?_
          rw [empty] at mem
          cases mem
        · exact flushing_setPc ⟨progress, fun item mem => absurd mem List.not_mem_nil⟩
    case cancelled.false =>
      obtain rfl := Option.some.inj resumed
      exact flushing_fails s t progress (by rintro _ ⟨⟩)
    all_goals cases resumed
  case flushGate caller batch rows =>
    rcases outcome with _ | _ | _ | _
    case returned =>
      obtain rfl := Option.some.inj resumed
      refine flushing_setPc ?_
      split
      · exact progress
      · split <;> exact progress
    case cancelled.false =>
      obtain rfl := Option.some.inj resumed
      exact flushing_cancels s t [] batch false progress.1
    all_goals cases resumed
  case flushBatch => exact (around rfl).flushing_write false progress.1 progress.2 resumed
  case flushRow => exact (around rfl).flushing_write true progress.1 progress.2 resumed
  case reading =>
    rcases outcome with _ | _ | _ | _
    case cancelled.true => cases resumed
    all_goals obtain rfl := Option.some.inj resumed
    · exact flushing_setPc (still progress)
    · exact flushing_setPc trivial
    · exact flushing_setPc trivial
  case optimizing =>
    rcases outcome with _ | _ | _ | _
    case cancelled.true => cases resumed
    all_goals obtain rfl := Option.some.inj resumed
    · exact flushing_setPc (still progress)
    · exact flushing_setPc trivial
    · exact flushing_setPc trivial

theorem FlushProgress.step (flush : FlushProgress s t n) (open_ : FlushesOpen t s event)
    (taken : step cfg s event = some s') : FlushProgress s' t n := by
  have serial := flush.nested.serial
  refine ⟨flush.nested.step taken, flush.alive.trans_le (step_grown serial taken),
    flush.known.trans (step_known serial taken), ?_⟩
  by_cases own : ∃ outcome, event = .resume t outcome
  · obtain ⟨outcome, rfl⟩ := own
    exact flush.own open_ taken
  · push Not at own
    have still (recent : s.Recent n) : s'.Recent n := recent.step serial flush.known taken
    have buffered (inside : (s.pc t).holdsMutation = true)
      (lone : ∀ child cancelled, s.pc t ≠ .awaitingEviction child cancelled)
        (recent : ∀ item ∈ s.buffer, n ≤ item.number) : ∀ item ∈ s'.buffer, n ≤ item.number := by
      intro item mem
      rcases bystander_alone flush.nested inside lone taken own with ⟨telegram, rfl⟩ | untouched
      · obtain rfl := Option.some.inj taken
        rcases (stored s telegram).buffer item mem with old | new
        · exact recent item old
        · exact new ▸ flush.known
      · exact recent item (untouched.buffer ▸ mem)
    have progress := flush.progress
    rw [step_others serial taken flush.alive own]
    cases at_ : s.pc t <;> rw [at_] at progress buffered <;> try exact progress.elim
    case mutation next => cases next <;> first | exact progress.elim | trivial
    case flushLock => exact progress
    case flushGate => exact ⟨progress.1, buffered rfl nofun progress.2⟩
    case flushBatch => exact ⟨progress.1, buffered rfl nofun progress.2⟩
    case flushRow => exact ⟨progress.1, buffered rfl nofun progress.2⟩
    case reading => exact still progress
    case optimizing => exact still progress
    case done result =>
      cases result with
      | returned count => exact still progress
      | raised => trivial
      | cancelled => trivial

/-! ## What becomes of a batch -/

/-- The rows written so far of a batch, in its order, after the rows there
were; the rest of it is to come, or its own write failed. -/
def Wrote (s : State) (base : List Row) (batch rest : List Accepted) : Prop :=
  ∃ written : List Accepted, s.table = base ++ written.map Row.ofAccepted ∧ (written ++ rest).Sublist batch ∧
    ∀ item ∈ batch, item ∈ written ∨ item ∈ rest ∨ (item, DropReason.dataError) ∈ s.dropped

theorem Wrote.congr (wrote : Wrote s base batch rest) (table : s'.table = s.table) (dropped : s.dropped ⊆ s'.dropped) :
    Wrote s' base batch rest := by
  obtain ⟨written, rows, order, all⟩ := wrote
  exact ⟨written, table.trans rows, order, fun item mem => (all item mem).imp_right
    (.imp_right fun lost => dropped lost)⟩

theorem Wrote.stored (wrote : Wrote s base batch rest) (k : ℕ) :
    Wrote (s.persist ((rest.take k).map Row.ofAccepted)) base batch (rest.drop k) := by
  obtain ⟨written, rows, order, all⟩ := wrote
  refine ⟨written ++ rest.take k, ?_, ?_, fun item mem => ?_⟩
  · rw [List.map_append, ← List.append_assoc, ← rows]
    rfl
  · rwa [List.append_assoc, List.take_append_drop]
  · rcases all item mem with before | pending | lost
    · exact .inl (List.mem_append_left _ before)
    · rw [← List.take_append_drop k rest, List.mem_append] at pending
      rcases pending with now | later
      · exact .inl (List.mem_append_right _ now)
      · exact .inr (.inl later)
    · exact .inr (.inr lost)

theorem Wrote.rejected (wrote : Wrote s base batch rest) :
    Wrote (s.giveUp (rest.take 1) .dataError) base batch (rest.drop 1) := by
  obtain ⟨written, rows, order, all⟩ := wrote
  refine ⟨written, rows, ((List.drop_sublist 1 rest).append_left written).trans order, fun item mem => ?_⟩
  rcases all item mem with before | pending | lost
  · exact .inl before
  · rw [← List.take_append_drop 1 rest, List.mem_append] at pending
    rcases pending with now | later
    · exact .inr (.inr (List.mem_append_right _ (List.mem_map_of_mem now)))
    · exact .inr (.inl later)
  · exact .inr (.inr (List.mem_append_left _ lost))

/-- In a `flush()`, waiting for the lock or with it. -/
def Pc.flushing : Pc → Bool
  | .mutation (.flush _) => true
  | .flushLock caller | .flushGate caller .. | .flushBatch caller .. | .flushRow caller .. => caller.explicit
  | _ => false

/-- Where a `flush()` that returns leaves its task. -/
def Pc.flushReturned : Pc → Bool
  | .reading | .optimizing | .done (.returned _) => true
  | _ => false

/-- How far the task that detached `batch` has come with it. -/
def State.Writing (s : State) (base : List Row) (batch : List Accepted) : Pc → Prop
  | .flushGate caller rest _ | .flushBatch caller rest _ | .flushRow caller rest _ =>
    caller.explicit = true ∧ Wrote s base batch rest
  | .reading | .optimizing | .done _ => True
  | _ => False

/-- The task's own step: when the flush returns it has written its batch. -/
structure Written (s : State) (t : ℕ) (base : List Row) (batch : List Accepted) : Prop where
  writing : s.Writing base batch (s.pc t)
  returned : (s.pc t).flushReturned = true → Wrote s base batch []

theorem written_fails (s : State) (t : ℕ) {result : Result} (explicit : caller.explicit = true)
    (failed : ∀ count, result ≠ .returned count) : Written (s.failFlush t result caller) t base batch := by
  rw [failFlush_explicit s t result explicit]
  refine ⟨?_, fun returned => ?_⟩
  · rw [State.leave, State.pc_setPc_self]
    trivial
  · rw [State.leave, State.pc_setPc_self] at returned
    cases result with
    | returned count => exact absurd rfl (failed count)
    | raised => cases returned
    | cancelled => cases returned

theorem written_cancels (s : State) (t : ℕ) (written rest : List Accepted) (tookEffect : Bool)
    (explicit : caller.explicit = true) :
    Written (s.cancelWrite cfg t caller written rest tookEffect) t base batch := by
  unfold State.cancelWrite
  exact written_fails _ t explicit nofun

theorem written_on {pc : Pc} (writing : (s.setPc t pc).Writing base batch pc) (on : pc.flushReturned = false) :
    Written (s.setPc t pc) t base batch := by
  refine ⟨?_, fun returned => ?_⟩
  · rwa [State.pc_setPc_self]
  · rw [State.pc_setPc_self, on] at returned
    cases returned

theorem untouched_afterFlush (s : State) (t : ℕ) (explicit : caller.explicit = true) :
    Untouched s (s.afterFlush cfg t caller) := by
  cases caller <;> try (cases explicit; done)
  case flush reads =>
    have restarted := (untouched_resetTimer s.release).trans
      (untouched_setPc _ t (if reads then .reading else .done (.returned none)))
    exact ⟨restarted.table, restarted.buffer, restarted.accepted, restarted.dropped⟩
  case optimize => exact (untouched_resetTimer s).trans (untouched_setPc _ t _)

theorem Wrote.returns (wrote : Wrote s base batch []) (t : ℕ) (explicit : caller.explicit = true) :
    Written (s.afterFlush cfg t caller) t base batch := by
  have same : Untouched s (s.afterFlush cfg t caller) := untouched_afterFlush s t explicit
  refine ⟨?_, fun _ => wrote.congr same.table (same.dropped ▸ List.Subset.refl _)⟩
  cases caller <;> try (cases explicit; done)
  case flush reads =>
    unfold State.afterFlush
    rw [State.pc_setPc_self]
    cases reads <;> trivial
  case optimize =>
    unfold State.afterFlush
    rw [State.pc_setPc_self]
    trivial

theorem Wrote.rows (wrote : Wrote s base batch rest) (t : ℕ) (explicit : caller.explicit = true) :
    Written (s.nextRow cfg t caller rest) t base batch := by
  cases rest with
  | nil =>
    have unlocked : Wrote s.unlockFlush base batch [] := wrote.congr rfl (List.Subset.refl _)
    exact unlocked.returns t explicit
  | cons item rest => exact written_on ⟨explicit, wrote.congr rfl (List.Subset.refl _)⟩ rfl

theorem Wrote.write (wrote : Wrote s base batch rest) (rows : Bool) {phase : Phase} (explicit : caller.explicit = true)
    (taken : s.resume cfg t (.write caller rest rows phase) outcome = some s') : Written s' t base batch := by
  cases resume_write rows taken with
  | executed =>
    have same (pc : Pc) : Wrote (s.setPc t pc) base batch rest := wrote.congr rfl (List.Subset.refl _)
    cases rows <;> exact written_on ⟨explicit, same _⟩ rfl
  | stored => exact (wrote.stored _).rows t explicit
  | split => exact wrote.rows t explicit
  | rejected => exact wrote.rejected.rows t explicit
  | kept =>
    have raises : caller.raiseOnError = true := by cases caller <;> first | rfl | cases explicit
    unfold State.keepBatch
    rw [if_pos raises]
    exact written_fails _ t explicit nofun
  | cancelled tookEffect => exact written_cancels s t _ rest tookEffect explicit

/-- A task on its way with a batch, and what it had found in the table. -/
structure WriteProgress (s : State) (t : ℕ) (base : List Row) (batch : List Accepted) : Prop where
  nested : Nested s
  alive : t < s.spawned
  writing : s.Writing base batch (s.pc t)

theorem WriteProgress.own (write : WriteProgress s t base batch) (taken : s.resume cfg t (s.pc t) outcome = some s') :
    s'.Writing base batch (s'.pc t) ∧
      ((s.pc t).flushing = true → (s'.pc t).flushReturned = true → Wrote s' base batch []) := by
  have writing := write.writing
  have over_ {pc : Pc} (at_ : s'.pc t = pc) (over_ : s'.Writing base batch pc) :
    s'.Writing base batch (s'.pc t) := at_ ▸ over_
  cases at_ : s.pc t <;> rw [at_] at taken writing <;> try exact writing.elim
  case done => cases outcome <;> cases taken
  case flushGate caller rest rows =>
    have ended : Written s' t base batch := by
      rcases outcome with _ | _ | _ | _
      case returned =>
        obtain rfl := Option.some.inj taken
        have same (pc : Pc) : Wrote (s.setPc t pc) base batch rest := writing.2.congr rfl (List.Subset.refl _)
        split
        · exact written_on ⟨writing.1, same _⟩ rfl
        · split <;> exact written_on ⟨writing.1, same _⟩ rfl
      case cancelled.false =>
        obtain rfl := Option.some.inj taken
        exact written_cancels s t [] rest false writing.1
      all_goals cases taken
    exact ⟨ended.writing, fun _ => ended.returned⟩
  case flushBatch caller rest phase =>
    have ended : Written s' t base batch := writing.2.write false writing.1 taken
    exact ⟨ended.writing, fun _ => ended.returned⟩
  case flushRow caller rest phase =>
    have ended : Written s' t base batch := writing.2.write true writing.1 taken
    exact ⟨ended.writing, fun _ => ended.returned⟩
  case reading =>
    refine ⟨?_, nofun⟩
    rcases outcome with _ | _ | _ | _
    case cancelled.true => cases taken
    all_goals
      obtain rfl := Option.some.inj taken
      exact over_ State.pc_setPc_self trivial
  case optimizing =>
    refine ⟨?_, nofun⟩
    rcases outcome with _ | _ | _ | _
    case cancelled.true => cases taken
    all_goals
      obtain rfl := Option.some.inj taken
      exact over_ State.pc_setPc_self trivial

theorem WriteProgress.step (write : WriteProgress s t base batch) (taken : step cfg s event = some s') :
    WriteProgress s' t base batch := by
  have serial := write.nested.serial
  refine ⟨write.nested.step taken, write.alive.trans_le (step_grown serial taken), ?_⟩
  by_cases own : ∃ outcome, event = .resume t outcome
  · obtain ⟨outcome, rfl⟩ := own
    exact (write.own (step_resume taken).2).1
  · push Not at own
    have kept (inside : (s.pc t).holdsMutation = true)
      (lone : ∀ child cancelled, s.pc t ≠ .awaitingEviction child cancelled)
        {rest : List Accepted} (wrote : Wrote s base batch rest) : Wrote s' base batch rest := by
      rcases bystander_alone write.nested inside lone taken own with ⟨telegram, rfl⟩ | untouched
      · obtain rfl := Option.some.inj taken
        exact wrote.congr (stored s telegram).table (stored s telegram).dropped
      · exact wrote.congr untouched.table (untouched.dropped ▸ List.Subset.refl _)
    have writing := write.writing
    rw [step_others serial taken write.alive own]
    cases at_ : s.pc t <;> rw [at_] at writing kept <;> try first | exact writing.elim | trivial
    all_goals exact ⟨writing.1, kept rfl nofun writing.2⟩

/-! ## Whole runs -/

/-- Task `t` begins a `flush()` in this step: a call of it or of a read that
starts with one, or an `optimize()` that has got the lock. -/
def FlushBegins (s : State) (event : Event) (t : ℕ) (s' : State) : Prop :=
  (∃ op reads, event = .call op ∧ t = s.spawned ∧ s'.pc t = .mutation (.flush reads)) ∨
    event = .resume t .returned ∧ s.pc t = .mutation (.gated .optimize) ∧ s'.pc t = .flushLock .optimize

/-- Task `t` returns from its `flush()` in this step. -/
def FlushReturns (s : State) (t : ℕ) (s' : State) : Prop :=
  (s.pc t).flushing = true ∧ (s'.pc t).flushReturned = true

/-- The step of the run that gave a telegram up. -/
def LostIn (cfg : Config) (events : List Event) (item : Accepted) (reason : DropReason) : Prop :=
  ∃ before event rest s₁ s₂, events = before ++ event :: rest ∧ run cfg true before = some s₁ ∧
    step cfg s₁ event = some s₂ ∧ GivenUp cfg s₁ event s₂.buffer item reason

theorem flush_begun (nested : Nested s) (taken : step cfg s event = some s') (flush : FlushBegins s event t s') :
    FlushProgress s' t s.accepted.length := by
  have nested' := nested.step taken
  have at_ : (s'.pc t).flushing = true ∧ s'.Flushing s.accepted.length (s'.pc t) := by
    rcases flush with ⟨_, reads, _, _, at_⟩ | ⟨_, _, at_⟩
    · rw [at_]
      exact ⟨rfl, trivial⟩
    · rw [at_]
      exact ⟨rfl, rfl⟩
  refine ⟨nested', nested'.serial.alive fun unborn => ?_, step_known nested.serial taken, at_.2⟩
  rw [unborn] at at_
  cases at_.1

/-- `_flush` takes the buffer out from inside its lock. -/
theorem write_begun (nested : Nested s) (at_ : s.pc t = .flushLock caller) (explicit : caller.explicit = true)
    (taken : step cfg s (.resume t .returned) = some s') : WriteProgress s' t s.table s.buffer := by
  have alive := nested.serial.alive (t := t) (by simp [at_])
  refine ⟨nested.step taken, alive.trans_le (step_grown nested.serial taken), ?_⟩
  have resumed := (step_resume taken).2
  rw [at_] at resumed
  have locks : (if s.flushLock then none else some (s.detachBatch cfg t caller)) = some s' := resumed
  split at locks
  · cases locks
  · obtain rfl := Option.some.inj locks
    unfold State.detachBatch
    split
    · rename_i empty
      have wrote : Wrote s s.table s.buffer [] := ⟨[], by simp, by simp, fun item mem => absurd mem (by simp [empty])⟩
      exact (wrote.returns t explicit).writing
    · rw [State.pc_setPc_self]
      exact ⟨explicit, [], by simp [State.setPc], by simp, fun item mem => .inr (.inl mem)⟩

/-- Accepted before, and not pending any more: stored, or given up. -/
theorem State.Recent.settled {events : List Event} (recent : s.Recent n) (ran : run cfg true events = some s)
    (accepted : item ∈ s.acceptances) (old : item.number < n) :
    Row.ofAccepted item ∈ s.table ∨ ∃ reason, reason ≠ .neverInitialized ∧ LostIn cfg events item reason := by
  have moves := (run_moves_any (Serial.init true) ran).2
  have held := moves_cover moves (by simp [State.ledger, State.ledgerWith, State.init, State.acceptances]) item accepted
  have settled : item ∉ s.ledger.pending := fun pending => absurd (recent item pending) (by omega)
  simp only [Ledger.pending, Ledger.holdings, List.mem_append, List.mem_map, Prod.exists, exists_and_right,
    exists_eq_right, not_or] at held settled
  rcases held with ((buffered | detached) | stored) | ⟨reason, lost⟩
  · exact absurd buffered settled.2
  · exact absurd detached settled.1
  · exact .inl (mem_flushed.mp stored)
  · refine .inr ⟨reason, ?_, run_given_up ran lost⟩
    rintro rfl
    obtain ⟨_, _, _, s₁, _, _, reached, _, _, _, _, uninitialized, _⟩ := run_given_up ran lost
    simp [run_initialized reached] at uninitialized

/-- A flush has two telegrams in its batch. -/
def batchDetached : List Event :=
  [.store sampleTelegram, .store sampleTelegram, .call .flush, .resume 0 .returned, .resume 0 .returned,
    .resume 0 .returned]

/-- It loses its connection while another flush waits, which then meets a
telegram that cannot be stored. -/
def failsMeanwhile : List Event :=
  [.resume 0 (.raised false), .resume 1 .returned, .resume 1 .returned, .resume 1 .returned, .resume 1 (.raised true),
    .resume 1 .returned, .resume 1 (.raised true), .resume 1 .returned, .resume 1 .returned]

end KnxTelegramStore.Buffered
