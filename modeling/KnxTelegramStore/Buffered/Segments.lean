import KnxTelegramStore.Lib.WriteBehind
import KnxTelegramStore.Buffered.Serial

/-!
What the code between two awaits does to a store. The ledger of a state says
where every accepted telegram is. A segment that a task runs around the
mutation lock ends with a batch in its hands and leaves everything else as it
was (`Settled`); the few that move telegrams are settled from a state that says
how they moved.
-/
namespace KnxTelegramStore.Buffered
open WriteBehind

variable {cfg : Config} {s s₁ s' : State} {t u : ℕ} {pc : Pc} {held : Bool}
variable {batch : List Accepted}

namespace State

/-- Every telegram accepted so far, with its number. -/
def acceptances (s : State) : List Accepted :=
  s.accepted.zipIdx.map fun entry => ⟨entry.2, entry.1⟩

/-- The ledger of a store with `batch` taken out of the buffer. -/
def ledgerWith (s : State) (batch : List Accepted) : Ledger Accepted DropReason where
  accepted := s.acceptances
  buffer := s.buffer
  batch := batch
  stored := flushed s.table
  dropped := s.dropped

def ledger (s : State) : Ledger Accepted DropReason := s.ledgerWith s.inFlight

/-- What only `close()`, the backups and `initialize()` set. -/
structure Flags where
  closing : Bool
  initialized : Bool
  writesAllowed : Bool

def flags (s : State) : Flags := ⟨s.closing, s.initialized, s.writesAllowed⟩

/-- The task outside the critical section has no batch. -/
theorem inFlight_setPc (other : s.mutationOwner ≠ some t) : (s.setPc t pc).inFlight = s.inFlight := by
  cases owner : s.mutationOwner with
  | none => rw [inFlight_of_none owner, inFlight_of_none (s := s.setPc t pc) owner]
  | some u =>
    have distinct : u ≠ t := by
      rintro rfl
      exact other owner
    rw [inFlight_of_some owner, inFlight_of_some (s := s.setPc t pc) owner, pc_setPc_ne distinct]

end State

theorem Pc.detached_of_outside (outside : pc.holdsMutation = false) : pc.detached = [] := by
  cases pc <;> first | rfl | simp [Pc.holdsMutation] at outside

/-- Task `t` ran from `s` to the await it is at in `s'`, where it has `batch`
in its hands. -/
structure Settled (s : State) (t : ℕ) (batch : List Accepted) (s' : State) : Prop where
  serial : Serial s'
  ledger : s'.ledger = s.ledgerWith batch
  flags : s'.flags = s.flags
  others : ∀ u, u ≠ t → u < s.spawned → s'.pc u = s.pc u
  grown : s.spawned ≤ s'.spawned

/-- A segment that starts by changing what the frame does not mention. -/
theorem Settled.congr (settled : Settled s₁ t batch s')
    (ledger : s₁.ledgerWith batch = s.ledgerWith batch) (flags : s₁.flags = s.flags)
    (tasks : s₁.tasks = s.tasks) (spawned : s₁.spawned = s.spawned) : Settled s t batch s' := by
  refine ⟨settled.serial, settled.ledger.trans ledger, settled.flags.trans flags,
    fun u other alive => ?_, spawned ▸ settled.grown⟩
  rw [settled.others u other (spawned ▸ alive)]
  simp [State.pc, tasks]

theorem Around.settled (around : Around s t held) (matching : pc.holdsMutation = held)
    (hands : pc.detached = batch) : Settled s t batch (s.setPc t pc) := by
  subst hands
  refine ⟨around.settle matching, ?_, rfl, fun u other _ => State.pc_setPc_ne other, le_refl _⟩
  unfold State.ledger
  have hands : (s.setPc t pc).inFlight = pc.detached := by
    cases held with
    | false => rw [State.inFlight_of_none (s := s.setPc t pc) around.owner, Pc.detached_of_outside matching]
    | true => rw [State.inFlight_of_some (s := s.setPc t pc) around.owner, State.pc_setPc_self]
  rw [hands]
  rfl

theorem Around.leaves (around : Around s t held) (result : Result) :
    Settled s t [] (s.leave t result) :=
  Settled.congr (around.release.settled rfl rfl) rfl rfl rfl rfl

theorem Around.restarts (around : Around s t held) (matching : pc.holdsMutation = held)
    (hands : pc.detached = batch) : Settled s t batch (s.resetTimer.setPc t pc) := by
  have settled := around.resetTimer.settled matching hands
  obtain ⟨tasks, spawned, flushTask, timer, grown, kept, _⟩ := s.resetTimer_frame
  refine ⟨settled.serial, ?_, ?_, fun u other alive => ?_, ?_⟩
  · rw [settled.ledger, timer]
    rfl
  · rw [settled.flags, timer]
    rfl
  · have older : u ≠ s.spawned := by omega
    rw [State.pc_setPc_ne other, timer]
    exact kept u older
  · have later := settled.grown
    rw [timer] at later ⊢
    exact grown.trans later

/-! ## The flush -/

theorem Around.closeBackend (around : Around s t true) : Settled s t [] (s.closeBackend cfg t) := by
  unfold State.closeBackend
  split
  · split
    · exact around.leaves _
    · have ended := around.congr { s with backupInProgress := false } rfl rfl rfl rfl
      exact Settled.congr (ended.settled rfl rfl) rfl rfl rfl rfl
  · exact around.settled rfl rfl

theorem Around.afterFlush (around : Around s t true) (caller : FlushCaller) :
    Settled s t [] (s.afterFlush cfg t caller) := by
  cases caller with
  | flush reads =>
    cases reads <;> exact Settled.congr (around.release.restarts rfl rfl) rfl rfl rfl rfl
  | flushLoop =>
    unfold State.afterFlush
    dsimp only
    split <;> exact Settled.congr (around.release.settled rfl rfl) rfl rfl rfl rfl
  | optimize => 
    show Settled s t [] (s.resetTimer.setPc t .optimizing)
    exact around.restarts rfl rfl
  | beginBackup => exact around.settled rfl rfl
  | close => exact around.closeBackend

theorem Around.failFlush (around : Around s t true) (result : Result) (caller : FlushCaller) :
    Settled s t [] (s.failFlush t result caller) := by
  cases caller <;> exact around.leaves _

theorem Around.startFlush (around : Around s t true) (caller : FlushCaller) :
    Settled s t [] (s.startFlush cfg t caller) := by
  unfold State.startFlush
  split
  · exact around.settled rfl rfl
  · exact around.afterFlush caller

/-- `_flush` takes the whole buffer, if there is anything in it. -/
theorem Around.detachBatch (around : Around s t true) (caller : FlushCaller) :
    Settled { s with buffer := [] } t s.buffer (s.detachBatch cfg t caller) := by
  unfold State.detachBatch
  split
  · rename_i empty
    rw [empty]
    refine (around.afterFlush caller).congr ?_ rfl rfl rfl
    simp [State.ledgerWith, State.acceptances, empty]
  · have locked := around.congr { s with flushLock := true, buffer := [] } rfl rfl rfl rfl
    have detached : Settled _ t s.buffer (State.setPc _ t (.flushGate caller s.buffer false)) := locked.settled rfl rfl
    exact Settled.congr detached rfl rfl rfl rfl

theorem Around.nextRow (around : Around s t true) (caller : FlushCaller) (rest : List Accepted) :
    Settled s t rest (s.nextRow cfg t caller rest) := by
  cases rest with
  | nil =>
    have unlocked := around.congr s.unlockFlush rfl rfl rfl rfl
    exact Settled.congr (unlocked.afterFlush caller) rfl rfl rfl rfl
  | cons item rest =>
    show Settled s t _ (s.setPc t (.flushGate caller (item :: rest) true))
    exact around.settled rfl rfl

theorem Around.keepBatch (around : Around s t true) (caller : FlushCaller) (batch : List Accepted) :
    Settled (s.requeue cfg batch) t [] (s.keepBatch cfg t caller batch) := by
  have requeued := around.congr ((s.requeue cfg batch).unlockFlush) rfl rfl rfl rfl
  unfold State.keepBatch
  dsimp only
  split
  · exact Settled.congr (requeued.failFlush _ caller) rfl rfl rfl rfl
  · exact Settled.congr (requeued.afterFlush caller) rfl rfl rfl rfl

theorem Around.cancelWrite (around : Around s t true) (caller : FlushCaller)
    (written batch : List Accepted) :
    Settled (s.requeue cfg batch) t [] (s.cancelWrite cfg t caller written batch false) := by
  have requeued := around.congr ((s.requeue cfg batch).unlockFlush) rfl rfl rfl rfl
  exact Settled.congr (requeued.failFlush .cancelled caller) rfl rfl rfl rfl

/-- A cancelled commit that took effect leaves its rows, and the batch goes
back all the same. -/
theorem Around.cancelCommit (around : Around s t true) (caller : FlushCaller)
    (written batch : List Accepted) :
    Settled ((s.persist (written.map Row.ofAccepted)).requeue cfg batch) t []
      (s.cancelWrite cfg t caller written batch true) := by
  have persisted := around.congr (s.persist (written.map Row.ofAccepted)) rfl rfl rfl rfl
  exact persisted.cancelWrite caller written batch

/-! ## Eviction, backup and close -/

theorem Around.startEviction (around : Around s t true) (cutoff : DateTime) (dryRun : Bool) :
    Settled s t [] (s.startEviction t cutoff dryRun) := by
  have spawned : Around (s.spawn (.evictLock cutoff dryRun)) t true := around.spawn rfl
  have settled : Settled _ t [] (s.startEviction t cutoff dryRun) := spawned.settled rfl rfl
  refine ⟨settled.serial, settled.ledger, settled.flags, fun u other alive => ?_,
    (Nat.le_succ _).trans settled.grown⟩
  have older : u ≠ s.spawned := by omega
  unfold State.startEviction
  rw [State.pc_setPc_ne other]
  exact State.pc_setPc_ne older

theorem Around.enterGated (around : Around s t true) (body : Gated) :
    Settled s t [] (s.enterGated cfg t body) := by
  cases body with
  | storeMany telegrams =>
    show Settled s t [] (s.setPc t (.storing telegrams .executing))
    exact around.settled rfl rfl
  | optimize => exact around.startFlush .optimize
  | evictOlderThan cutoff dryRun => exact around.startEviction cutoff dryRun
  | evictExpired cutoff dryRun =>
    cases cutoff with
    | none => exact around.leaves _
    | some cutoff =>
      show Settled s t [] (s.setPc t (.evictGate cutoff dryRun))
      exact around.settled rfl rfl
  | clear => exact around.settled rfl rfl

end KnxTelegramStore.Buffered
