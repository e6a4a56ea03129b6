import KnxTelegramStore.Buffered.Step

/-!
One task at a time is in the critical section. `Serial` says that the mutation
lock is held exactly when some task is inside the block it guards, and that
this task is the one `_mutation_owner` names. A step runs in three moods:
around the lock (`Around`), when the task holds it or has just given it back,
and outside, when it never had it.
-/
namespace KnxTelegramStore.Buffered

variable {cfg : Config} {s s' : State} {t u : ℕ} {pc : Pc} {held : Bool}

namespace State

@[simp] theorem pc_setPc_self : (s.setPc t pc).pc t = pc := by
  simp [State.pc, setPc]

theorem pc_setPc_ne (other : u ≠ t) : (s.setPc t pc).pc u = s.pc u := by
  simp [State.pc, setPc, other]

@[simp] theorem pc_mark : (s.mark t).pc u = s.pc u := by
  by_cases same : u = t
  · subst same
    simp [State.pc, mark]
  · simp [State.pc, mark, same]

/-- Requesting a cancellation marks a task, and nothing else changes. -/
theorem requestCancel_frame (s : State) (t : ℕ) :
    ∃ tasks, s.requestCancel t = { s with tasks } ∧ ∀ u, (tasks u).pc = s.pc u := by
  have marked (task : ℕ) : ∃ tasks, s.mark task = { s with tasks } ∧ ∀ u, (tasks u).pc = s.pc u :=
    ⟨_, rfl, fun u => pc_mark (s := s) (t := task)⟩
  unfold requestCancel
  split
  · exact ⟨s.tasks, rfl, fun _ => rfl⟩
  · exact ⟨s.tasks, rfl, fun _ => rfl⟩
  · split
    · exact marked t
    · exact marked _
  · exact marked t

/-- Restarting the timer at most adds a sleeping task. -/
theorem resetTimer_frame (s : State) :
    ∃ tasks spawned flushTask, s.resetTimer = { s with tasks, spawned, flushTask } ∧
      s.spawned ≤ spawned ∧ (∀ u, u ≠ s.spawned → (tasks u).pc = s.pc u) ∧
      ((tasks s.spawned).pc = s.pc s.spawned ∧ spawned = s.spawned ∨
        (tasks s.spawned).pc = .sleeping ∧ spawned = s.spawned + 1) := by
  unfold resetTimer
  split
  · exact ⟨_, _, _, rfl, le_refl _, fun _ _ => rfl, .inl ⟨rfl, rfl⟩⟩
  · rename_i task _
    split
    · exact ⟨_, _, _, rfl, le_refl _, fun _ _ => rfl, .inl ⟨rfl, rfl⟩⟩
    · obtain ⟨tasks, marked, same⟩ := s.requestCancel_frame task
      rw [marked]
      refine ⟨_, _, _, rfl, Nat.le_succ _, fun u other => ?_, .inr ⟨?_, rfl⟩⟩
      · simpa [spawn, setPc, other] using same u
      · simp [spawn, setPc]

end State

/-- The lock is held exactly by the task inside the block it guards. -/
structure Serial (s : State) : Prop where
  lock : s.mutationLock = s.mutationOwner.isSome
  owner : ∀ t, (s.pc t).holdsMutation = true ↔ s.mutationOwner = some t
  unborn : ∀ t, s.spawned ≤ t → s.pc t = .unborn

/-- While `t` runs with the lock, or has just given it back, no other task is
inside the critical section. -/
structure Around (s : State) (t : ℕ) (held : Bool) : Prop where
  lock : s.mutationLock = held
  owner : s.mutationOwner = if held then some t else none
  others : ∀ u, u ≠ t → (s.pc u).holdsMutation = false
  alive : t < s.spawned
  unborn : ∀ u, s.spawned ≤ u → s.pc u = .unborn

theorem Serial.init (initialized : Bool) : Serial (State.init initialized) where
  lock := rfl
  owner t := by simp [State.init, State.pc, Pc.holdsMutation]
  unborn _ _ := rfl

theorem Serial.alive (serial : Serial s) (born : s.pc t ≠ .unborn) : t < s.spawned := by
  by_contra outside
  exact born (serial.unborn t (Nat.le_of_not_lt outside))

theorem Serial.around (serial : Serial s) (inside : (s.pc t).holdsMutation = true) :
    Around s t true := by
  have owner := (serial.owner t).mp inside
  refine ⟨by simp [serial.lock, owner], by simpa using owner, fun u other => ?_,
    serial.alive fun born => by simp [born, Pc.holdsMutation] at inside, serial.unborn⟩
  have absent : ¬ (s.pc u).holdsMutation = true := by
    rw [serial.owner u, owner]
    simpa using Ne.symm other
  simpa using absent

/-- A waiting task that finds the lock free owns the critical section. -/
theorem Serial.acquire (serial : Serial s) (free : s.mutationLock = false)
    (born : s.pc t ≠ .unborn) : Around (s.acquire t) t true := by
  have nobody : s.mutationOwner = none := by simpa [serial.lock] using free
  refine ⟨rfl, rfl, fun u _ => ?_, serial.alive born, serial.unborn⟩
  show (s.pc u).holdsMutation = false
  have absent : ¬ (s.pc u).holdsMutation = true := by simp [serial.owner u, nobody]
  simpa using absent

/-- The step ends at an await on the side of the lock the task is on. -/
theorem Around.settle (around : Around s t held) (matching : pc.holdsMutation = held) :
    Serial (s.setPc t pc) := by
  refine ⟨?_, fun u => ?_, fun u later => ?_⟩
  · show s.mutationLock = s.mutationOwner.isSome
    rw [around.lock, around.owner]
    cases held <;> rfl
  · show ((s.setPc t pc).pc u).holdsMutation = true ↔ s.mutationOwner = some u
    rw [around.owner]
    by_cases same : u = t
    · subst same
      rw [State.pc_setPc_self, matching]
      cases held <;> simp
    · rw [State.pc_setPc_ne same, around.others u same]
      cases held <;> simp [Ne.symm same]
  · have beyond : s.spawned ≤ u := later
    have alive := around.alive
    have other : u ≠ t := by omega
    rw [State.pc_setPc_ne other]
    exact around.unborn u beyond

theorem Around.release (around : Around s t held) : Around s.release t false :=
  ⟨rfl, rfl, around.others, around.alive, around.unborn⟩

theorem Around.leave (around : Around s t held) (result : Result) : Serial (s.leave t result) :=
  around.release.settle rfl

/-- What the lock guards plays no part in who holds it. -/
theorem Around.congr (around : Around s t held) (s' : State) (lock : s'.mutationLock = s.mutationLock)
    (owner : s'.mutationOwner = s.mutationOwner) (tasks : s'.tasks = s.tasks)
    (spawned : s'.spawned = s.spawned) : Around s' t held := by
  have same : ∀ u, s'.pc u = s.pc u := fun u => by simp [State.pc, tasks]
  exact ⟨lock.trans around.lock, owner.trans around.owner,
    fun u other => by rw [same]; exact around.others u other, spawned ▸ around.alive,
    fun u later => by rw [same]; exact around.unborn u (spawned ▸ later)⟩

theorem Around.spawn (around : Around s t held) (quiet : pc.holdsMutation = false) :
    Around (s.spawn pc) t held := by
  have fresh : ∀ u, u ≠ s.spawned → (s.spawn pc).pc u = s.pc u := fun u other => by
    simp [State.spawn, State.setPc, State.pc, other]
  have started : (s.spawn pc).pc s.spawned = pc := by simp [State.spawn, State.setPc, State.pc]
  refine ⟨around.lock, around.owner, fun u other => ?_, Nat.lt_succ_of_lt around.alive,
    fun u later => ?_⟩
  · by_cases new : u = s.spawned
    · rw [new, started]
      exact quiet
    · rw [fresh u new]
      exact around.others u other
  · have beyond : s.spawned + 1 ≤ u := later
    rw [fresh u (by omega)]
    exact around.unborn u (by omega)

theorem Around.resetTimer (around : Around s t held) : Around s.resetTimer t held := by
  obtain ⟨tasks, spawned, flushTask, timer, grown, kept, started⟩ := s.resetTimer_frame
  rw [timer]
  refine ⟨around.lock, around.owner, fun u other => ?_, lt_of_lt_of_le around.alive grown,
    fun u later => ?_⟩
  · show (tasks u).pc.holdsMutation = false
    by_cases new : u = s.spawned
    · subst new
      rcases started with ⟨same, _⟩ | ⟨sleeps, _⟩
      · rw [same]
        exact around.others _ other
      · rw [sleeps]
        rfl
    · rw [kept u new]
      exact around.others u other
  · have beyond : spawned ≤ u := later
    show (tasks u).pc = .unborn
    by_cases new : u = s.spawned
    · subst new
      rcases started with ⟨same, _⟩ | ⟨_, next⟩
      · rw [same]
        exact around.unborn _ (le_refl _)
      · omega
    · rw [kept u new]
      exact around.unborn u (le_trans grown beyond)

/-- A task outside the critical section moves on without entering it. -/
theorem Serial.outside (serial : Serial s) (before : (s.pc t).holdsMutation = false)
    (alive : t < s.spawned) (after : pc.holdsMutation = false) : Serial (s.setPc t pc) := by
  refine ⟨serial.lock, fun u => ?_, fun u later => ?_⟩
  · show ((s.setPc t pc).pc u).holdsMutation = true ↔ s.mutationOwner = some u
    rw [← serial.owner u]
    by_cases same : u = t
    · subst same
      rw [State.pc_setPc_self, before, after]
    · rw [State.pc_setPc_ne same]
  · have beyond : s.spawned ≤ u := later
    have other : u ≠ t := by omega
    rw [State.pc_setPc_ne other]
    exact serial.unborn u beyond

theorem Serial.congr (serial : Serial s) (lock : s'.mutationLock = s.mutationLock)
    (owner : s'.mutationOwner = s.mutationOwner) (tasks : ∀ u, s'.pc u = s.pc u)
    (spawned : s'.spawned = s.spawned) : Serial s' :=
  ⟨by rw [lock, owner]; exact serial.lock, fun u => by rw [tasks, owner]; exact serial.owner u,
    fun u later => by rw [tasks]; exact serial.unborn u (spawned ▸ later)⟩

theorem Serial.spawn (serial : Serial s) (quiet : pc.holdsMutation = false) :
    Serial (s.spawn pc) := by
  have fresh : ∀ u, u ≠ s.spawned → (s.spawn pc).pc u = s.pc u := fun u other => by
    simp [State.spawn, State.setPc, State.pc, other]
  have started : (s.spawn pc).pc s.spawned = pc := by simp [State.spawn, State.setPc, State.pc]
  refine ⟨serial.lock, fun u => ?_, fun u later => ?_⟩
  · show ((s.spawn pc).pc u).holdsMutation = true ↔ s.mutationOwner = some u
    rw [← serial.owner u]
    by_cases new : u = s.spawned
    · rw [new, started, quiet, serial.unborn _ (le_refl _)]
      rfl
    · rw [fresh u new]
  · have beyond : s.spawned + 1 ≤ u := later
    rw [fresh u (by omega)]
    exact serial.unborn u (by omega)

theorem Serial.requestCancel (serial : Serial s) (t : ℕ) : Serial (s.requestCancel t) := by
  obtain ⟨tasks, marked, same⟩ := s.requestCancel_frame t
  rw [marked]
  exact serial.congr rfl rfl same rfl

end KnxTelegramStore.Buffered
