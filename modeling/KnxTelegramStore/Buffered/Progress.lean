import Mathlib.Algebra.BigOperators.Intervals
import Mathlib.Algebra.Order.BigOperators.Group.Finset
import Mathlib.Data.Prod.Lex
import KnxTelegramStore.Buffered.Turns
import KnxTelegramStore.Lib.Inevitable

/-!
A buffered store always comes to rest. From any state a run can reach,
whichever tasks are resumed and however their awaits end, after finitely many
turns no call is left that has not returned or raised, except for those that
wait at the write gate for a backup to end; no lock is held and no batch is out
of the buffer. So no two calls ever wait for each other, and none of them
waits for something that was lost.
-/
namespace KnxTelegramStore.Buffered
open EventMachine Inevitability

variable {cfg : Config} {s s₁ s' : State} {t u : ℕ} {pc : Pc} {extra : ℕ} {outcome : Outcome} {event : Event}

namespace State

/-! ## What all tasks have before them -/

def total (s : State) (w : Task → ℕ) : ℕ := ∑ u ∈ Finset.range s.spawned, w (s.tasks u)

variable {w : Task → ℕ} {k : ℕ}

theorem tasks_setPc_self (s : State) (t : ℕ) (pc : Pc) : (s.setPc t pc).tasks t = { pc } := Function.update_self ..

theorem tasks_setPc_ne (s : State) (pc : Pc) (other : u ≠ t) : (s.setPc t pc).tasks u = s.tasks u :=
  Function.update_of_ne other ..

theorem tasks_mark_self (s : State) (t : ℕ) : (s.mark t).tasks t = ⟨(s.tasks t).pc, true⟩ :=
  Function.update_self ..

theorem tasks_mark_ne (s : State) (other : u ≠ t) : (s.mark t).tasks u = s.tasks u := Function.update_of_ne other ..

/-- One task changes. -/
theorem total_change (s s₁ : State) (w : Task → ℕ) (alive : t < s.spawned) (spawned : s₁.spawned = s.spawned)
    (others : ∀ u, u ≠ t → s₁.tasks u = s.tasks u) :
    s₁.total w + w (s.tasks t) = s.total w + w (s₁.tasks t) := by
  have mem : t ∈ Finset.range s.spawned := Finset.mem_range.mpr alive
  have before := Finset.add_sum_erase (Finset.range s.spawned) (fun u => w (s.tasks u)) mem
  have after := Finset.add_sum_erase (Finset.range s.spawned) (fun u => w (s₁.tasks u)) mem
  have same : ∑ u ∈ (Finset.range s.spawned).erase t, w (s₁.tasks u) =
      ∑ u ∈ (Finset.range s.spawned).erase t, w (s.tasks u) := by
    refine Finset.sum_congr rfl fun u other => ?_
    rw [others u (Finset.ne_of_mem_erase other)]
  rw [total, total, spawned]
  omega

theorem total_setPc (s : State) (pc : Pc) (w : Task → ℕ) (alive : t < s.spawned) :
    (s.setPc t pc).total w + w (s.tasks t) = s.total w + w { pc } := by
  have moved := total_change s (s.setPc t pc) w alive rfl fun u other => tasks_setPc_ne s pc other
  rwa [tasks_setPc_self] at moved

theorem total_spawn (s : State) (pc : Pc) (w : Task → ℕ) : (s.spawn pc).total w = s.total w + w { pc } := by
  show ∑ u ∈ Finset.range (s.spawned + 1), w ((s.setPc s.spawned pc).tasks u) = _
  rw [Finset.sum_range_succ, tasks_setPc_self]
  congr 1
  refine Finset.sum_congr rfl fun u mem => ?_
  rw [tasks_setPc_ne s pc (Finset.mem_range.mp mem).ne]

theorem total_congr (tasks : s₁.tasks = s.tasks) (spawned : s₁.spawned = s.spawned) (w : Task → ℕ) :
    s₁.total w = s.total w := by
  rw [total, total, tasks, spawned]

/-- Requesting a cancellation marks one task at most. -/
theorem requestCancel_eq (s : State) (t : ℕ) : s.requestCancel t = s ∨ ∃ u, s.requestCancel t = s.mark u := by
  unfold requestCancel
  split
  · exact .inl rfl
  · exact .inl rfl
  · split <;> exact .inr ⟨_, rfl⟩
  · exact .inr ⟨_, rfl⟩

/-- A weight that counts `k` for a mark and bounds that of the tasks a turn
starts. -/
structure Priced (w : Task → ℕ) (k : ℕ) : Prop where
  rises : ∀ task : Task, w task ≤ w { task with cancelRequested := true }
  mark : ∀ task : Task, w { task with cancelRequested := true } ≤ w task + k
  sleeping : w { pc := .sleeping } ≤ k
  child : ∀ cutoff dryRun, w { pc := .evictLock cutoff dryRun } ≤ 4 * k

theorem mark_rises (priced : Priced w k) (s : State) (t u : ℕ) : w (s.tasks u) ≤ w ((s.mark t).tasks u) := by
  by_cases same : u = t
  · subst same
    rw [tasks_mark_self]
    exact priced.rises _
  · rw [tasks_mark_ne s same]

theorem total_mark (priced : Priced w k) (s : State) (t : ℕ) : (s.mark t).total w ≤ s.total w + k := by
  by_cases alive : t < s.spawned
  · have marked := total_change s (s.mark t) w alive rfl fun u other => tasks_mark_ne s other
    rw [tasks_mark_self] at marked
    have costs := priced.mark (s.tasks t)
    omega
  · refine (le_of_eq ?_).trans (Nat.le_add_right _ _)
    refine Finset.sum_congr rfl fun u mem => ?_
    rw [tasks_mark_ne s]
    rintro rfl
    exact alive (Finset.mem_range.mp mem)

theorem requestCancel_rises (priced : Priced w k) (s : State) (t u : ℕ) :
    w (s.tasks u) ≤ w ((s.requestCancel t).tasks u) := by
  rcases s.requestCancel_eq t with same | ⟨v, marked⟩
  · rw [same]
  · rw [marked]
    exact mark_rises priced s v u

theorem total_requestCancel (priced : Priced w k) (s : State) (t : ℕ) :
    (s.requestCancel t).total w ≤ s.total w + k := by
  rcases s.requestCancel_eq t with same | ⟨v, marked⟩
  · rw [same]
    exact Nat.le_add_right _ _
  · rw [marked]
    exact total_mark priced s v

/-- Restarting the timer, for a task that is not the new one. -/
theorem resetTimer_cost (priced : Priced w k) (alive : t < s.spawned) :
    s.resetTimer.total w ≤ s.total w + 2 * k ∧ w (s.tasks t) ≤ w (s.resetTimer.tasks t) := by
  unfold resetTimer
  split
  · exact ⟨Nat.le_add_right _ _, le_rfl⟩
  · rename_i task _
    split
    · exact ⟨Nat.le_add_right _ _, le_rfl⟩
    · have spawned : (s.requestCancel task).spawned = s.spawned := by
        obtain ⟨_, marked, _⟩ := s.requestCancel_frame task
        rw [marked]
      constructor
      · show ((s.requestCancel task).spawn .sleeping).total w ≤ _
        rw [total_spawn]
        have marked := total_requestCancel priced s task
        have sleeps := priced.sleeping
        omega
      · show w (s.tasks t) ≤ w (Function.update (s.requestCancel task).tasks (s.requestCancel task).spawned _ t)
        rw [Function.update_of_ne (by omega)]
        exact requestCancel_rises priced s task t

end State
open State (Priced)

/-- The tasks have what they had, less what the turn took, and what it
started. -/
theorem Turn.total {w : Task → ℕ} {k : ℕ} (turn : Turn s t pc extra s') (priced : Priced w k)
    (alive : t < s.spawned) : s'.total w + w (s.tasks t) ≤ s.total w + w { pc } + k * extra := by
  cases turn with
  | settles s₁ calm _ =>
    have moved := s₁.total_setPc pc w (calm.spawned ▸ alive : t < s₁.spawned)
    rw [calm.tasks, State.total_congr calm.tasks calm.spawned] at moved
    omega
  | restarts s₁ calm =>
    have older : t < s₁.spawned := calm.spawned ▸ alive
    obtain ⟨cost, rises⟩ := State.resetTimer_cost priced older
    have grown : s₁.spawned ≤ s₁.resetTimer.spawned := by
      obtain ⟨_, _, _, timer, grown, _⟩ := s₁.resetTimer_frame
      rw [timer]
      exact grown
    have moved := s₁.resetTimer.total_setPc pc w (older.trans_le grown)
    rw [calm.tasks] at rises
    rw [State.total_congr calm.tasks calm.spawned] at cost
    omega
  | stops s₁ task calm =>
    have older : t < (s₁.requestCancel task).spawned := by
      obtain ⟨_, marked, _⟩ := s₁.requestCancel_frame task
      rw [marked]
      exact calm.spawned ▸ alive
    have cost := State.total_requestCancel priced s₁ task
    have rises := State.requestCancel_rises priced s₁ task t
    have moved := (s₁.requestCancel task).total_setPc pc w older
    rw [calm.tasks] at rises
    rw [State.total_congr calm.tasks calm.spawned] at cost
    omega
  | starts s₁ cutoff dryRun calm _ =>
    have older : t < s₁.spawned := calm.spawned ▸ alive
    have moved := (s₁.spawn (.evictLock cutoff dryRun)).total_setPc pc w (Nat.lt_succ_of_lt older)
    have own : (s₁.spawn (.evictLock cutoff dryRun)).tasks t = s.tasks t := by
      rw [← calm.tasks]
      exact Function.update_of_ne older.ne _ _
    rw [own, State.total_spawn, State.total_congr calm.tasks calm.spawned] at moved
    have child := priced.child cutoff dryRun
    omega

/-! ## The measure -/

def State.flips (s : State) : ℕ := s.total fun task => task.pc.flips

/-- First the changes to come in whether writes are allowed, then the work. -/
def State.measure (cfg : Config) (s : State) : ℕ ×ₗ ℕ :=
  toLex (s.flips, s.total (Task.work cfg.maxBufferSize s.writesAllowed))

theorem priced_flips : Priced (fun task => task.pc.flips) 0 where
  rises _ := le_rfl
  mark _ := le_rfl
  sleeping := le_rfl
  child _ _ := le_rfl

theorem priced_work (size : ℕ) (allowed : Bool) : Priced (Task.work size allowed) 1 where
  rises task := by
    show task.pc.work size allowed + _ ≤ task.pc.work size allowed + 1
    split <;> omega
  mark task := by
    show task.pc.work size allowed + 1 ≤ task.pc.work size allowed + _ + 1
    omega
  sleeping := le_rfl
  child _ _ := le_rfl

theorem Goes.descends (goes : Goes cfg s t s') (alive : t < s.spawned) : s'.measure cfg < s.measure cfg := by
  obtain ⟨pc, extra, turn, _, cost⟩ := goes.turn
  have flips : s'.flips + (s.pc t).flips ≤ s.flips + pc.flips + 0 * extra := turn.total priced_flips alive
  rw [Nat.zero_mul] at flips
  have work := turn.total (priced_work cfg.maxBufferSize s.writesAllowed) alive
  rw [State.measure, State.measure, Prod.Lex.toLex_lt_toLex]
  rcases cost with fewer | ⟨flip, allowed, less⟩
  · left
    show s'.flips < s.flips
    omega
  · rcases Nat.lt_or_eq_of_le (show s'.flips ≤ s.flips by omega) with fewer | same
    · exact .inl fewer
    · refine .inr ⟨same, ?_⟩
      have own : Task.work cfg.maxBufferSize s.writesAllowed { pc } = pc.work cfg.maxBufferSize s.writesAllowed := rfl
      show s'.total (Task.work cfg.maxBufferSize s'.writesAllowed) <
        s.total (Task.work cfg.maxBufferSize s.writesAllowed)
      rw [own] at work
      rw [allowed]
      omega

/-! ## Whom a task awaits -/

/-- A task that has ended, or does so whoever else is resumed. -/
def Ending (s : State) (u : ℕ) : Prop :=
  s.isDone u = true ∨ (s.pc u).role = .eviction ∨
    (s.pc u).role = .flushLoop ∧ (s.tasks u).cancelRequested = true

/-- The tasks that others await will end, and `_flush_task` names a flush
loop. -/
structure Awaits (s : State) : Prop where
  awaited : ∀ t u, (s.pc t).awaited = some u → Ending s u
  flushTask : ∀ u, s.flushTask = some u → s.isDone u = true ∨ (s.pc u).role = .flushLoop

theorem Awaits.init (initialized : Bool) : Awaits (State.init initialized) where
  awaited _ _ := nofun
  flushTask _ := nofun

namespace State

/-- A cancellation leaves the tasks where they are and withdraws no other. -/
theorem requestCancel_keeps (s : State) (t u : ℕ) : (s.requestCancel t).pc u = s.pc u ∧
    ((s.tasks u).cancelRequested = true → ((s.requestCancel t).tasks u).cancelRequested = true) := by
  rcases s.requestCancel_eq t with same | ⟨v, marked⟩
  · rw [same]
    exact ⟨rfl, id⟩
  · rw [marked]
    refine ⟨pc_mark, fun asked => ?_⟩
    by_cases same : u = v
    · subst same
      rw [tasks_mark_self]
    · rwa [tasks_mark_ne s same]

/-- A flush loop that is cancelled is on its way to end. -/
theorem requestCancel_ends (loop : s.isDone u = true ∨ (s.pc u).role = .flushLoop) : Ending (s.requestCancel u) u := by
  rcases loop with done | loop
  · left
    rw [isDone_eq] at done ⊢
    rwa [(s.requestCancel_keeps u u).1]
  · refine .inr (.inr ⟨by rwa [(s.requestCancel_keeps u u).1], ?_⟩)
    have marks : s.requestCancel u = s.mark u := by
      unfold requestCancel
      cases at_ : s.pc u <;> rw [at_] at loop <;> first | rfl | cases loop
    rw [marks, tasks_mark_self]

end State

/-- The timer is restarted under a new flush task, or not at all. -/
theorem State.resetTimer_flushTask (s : State) :
    s.resetTimer.pc s.spawned = s.pc s.spawned ∧ s.resetTimer.flushTask = s.flushTask ∨
      s.resetTimer.pc s.spawned = .sleeping ∧ s.resetTimer.flushTask = some s.spawned := by
  unfold resetTimer
  split
  · exact .inl ⟨rfl, rfl⟩
  · rename_i task _
    split
    · exact .inl ⟨rfl, rfl⟩
    · have spawned : s.spawned = (s.requestCancel task).spawned := by
        obtain ⟨_, marked, _⟩ := s.requestCancel_frame task
        rw [marked]
      refine .inr ⟨?_, rfl⟩
      show ((s.requestCancel task).setPc _ .sleeping).pc s.spawned = .sleeping
      rw [spawned, pc_setPc_self]

/-- The tasks other than the one whose turn it is. -/
theorem Turn.others (turn : Turn s t pc extra s') (other : u ≠ t) (older : u < s.spawned) : s'.pc u = s.pc u ∧
    ((s.tasks u).cancelRequested = true → (s'.tasks u).cancelRequested = true) := by
  have before {s₁ : State} (calm : Calm s t s₁) : s₁.pc u = s.pc u ∧ s₁.tasks u = s.tasks u := by
    rw [State.pc, calm.tasks]
    exact ⟨rfl, rfl⟩
  cases turn with
  | settles s₁ calm _ =>
    rw [State.pc_setPc_ne other, State.tasks_setPc_ne s₁ pc other, (before calm).1, (before calm).2]
    exact ⟨rfl, id⟩
  | restarts s₁ calm =>
    rw [State.pc_setPc_ne other, State.tasks_setPc_ne _ pc other, ← (before calm).1, ← (before calm).2]
    unfold State.resetTimer
    split
    · exact ⟨rfl, id⟩
    · rename_i task _
      split
      · exact ⟨rfl, id⟩
      · have fresh : u ≠ (s₁.requestCancel task).spawned := by
          obtain ⟨_, marked, _⟩ := s₁.requestCancel_frame task
          rw [marked]
          have same := calm.spawned
          show u ≠ s₁.spawned
          omega
        obtain ⟨same, keeps⟩ := s₁.requestCancel_keeps task u
        refine ⟨?_, fun asked => ?_⟩
        · show ((s₁.requestCancel task).setPc _ .sleeping).pc u = _
          rw [State.pc_setPc_ne fresh, same]
        · show ((((s₁.requestCancel task).setPc _ .sleeping).tasks u)).cancelRequested = true
          rw [State.tasks_setPc_ne _ _ fresh]
          exact keeps asked
  | stops s₁ task calm =>
    rw [State.pc_setPc_ne other, State.tasks_setPc_ne _ pc other, ← (before calm).1, ← (before calm).2]
    exact s₁.requestCancel_keeps task u
  | starts s₁ cutoff dryRun calm _ =>
    have fresh : u ≠ s₁.spawned := by
      rw [calm.spawned]
      exact older.ne
    rw [State.pc_setPc_ne other, State.tasks_setPc_ne _ pc other, ← (before calm).1, ← (before calm).2]
    refine ⟨State.pc_setPc_ne fresh, fun asked => ?_⟩
    show ((s₁.setPc _ _).tasks u).cancelRequested = true
    rwa [State.tasks_setPc_ne _ _ fresh]

theorem Turn.own (turn : Turn s t pc extra s') : s'.pc t = pc := by
  cases turn <;> exact State.pc_setPc_self

/-- The tasks a turn starts. -/
theorem Turn.newborn (turn : Turn s t pc extra s') (alive : t < s.spawned)
    (unborn : ∀ u, s.spawned ≤ u → s.pc u = .unborn) (later : s.spawned ≤ u) : s'.pc u = .unborn ∨
      s'.pc u = .sleeping ∧ s'.flushTask = some u ∨ ∃ cutoff dryRun, s'.pc u = .evictLock cutoff dryRun := by
  have other : u ≠ t := by omega
  have before {s₁ : State} (calm : Calm s t s₁) : s₁.pc u = .unborn := by
    rw [State.pc, calm.tasks]
    exact unborn u later
  cases turn with
  | settles s₁ calm _ => exact .inl ((State.pc_setPc_ne other).trans (before calm))
  | restarts s₁ calm =>
    rw [State.pc_setPc_ne other]
    by_cases first : u = s₁.spawned
    · subst first
      rcases s₁.resetTimer_flushTask with ⟨same, _⟩ | ⟨sleeps, named⟩
      · exact .inl (same.trans (before calm))
      · exact .inr (.inl ⟨sleeps, named⟩)
    · obtain ⟨tasks, _, _, timer, _, kept, _⟩ := s₁.resetTimer_frame
      refine .inl ?_
      rw [timer]
      exact (kept u first).trans (before calm)
  | stops s₁ task calm =>
    rw [State.pc_setPc_ne other, (s₁.requestCancel_keeps task u).1]
    exact .inl (before calm)
  | starts s₁ cutoff dryRun calm _ =>
    rw [State.pc_setPc_ne other]
    by_cases first : u = s₁.spawned
    · subst first
      exact .inr (.inr ⟨cutoff, dryRun, State.pc_setPc_self⟩)
    · exact .inl ((State.pc_setPc_ne first).trans (before calm))

/-- They await nobody. -/
theorem Turn.newborn_awaits (turn : Turn s t pc extra s') (alive : t < s.spawned)
    (unborn : ∀ u, s.spawned ≤ u → s.pc u = .unborn) (later : s.spawned ≤ u) : (s'.pc u).awaited = none := by
  rcases turn.newborn alive unborn later with born | ⟨born, _⟩ | ⟨_, _, born⟩ <;> rw [born] <;> rfl

theorem Awaits.turn (awaits : Awaits s) (turn : Turn s t pc extra s') (alive : t < s.spawned)
    (unborn : ∀ u, s.spawned ≤ u → s.pc u = .unborn) (running : (s.pc t).ended = false)
    (own : pc.ended = true ∨ pc.role = (s.pc t).role)
    (ends : (s.pc t).role = .flushLoop → (s.tasks t).cancelRequested = true → pc.ended = true) : Awaits s' := by
  have older {u : ℕ} (done : s.isDone u = true ∨ (s.pc u).role ≠ .call) : u < s.spawned := by
    by_contra later
    rw [State.isDone_eq, unborn u (Nat.le_of_not_lt later)] at done
    rcases done with impossible | impossible
    · cases impossible
    · exact impossible rfl
  have keep {u : ℕ} (ending : Ending s u) : Ending s' u := by
    by_cases same : u = t
    · subst same
      rcases ending with done | eviction | ⟨loop, asked⟩
      · rw [State.isDone_eq, running] at done
        cases done
      · rcases own with ended | role
        · exact .inl (by rw [State.isDone_eq, turn.own, ended])
        · exact .inr (.inl (by rw [turn.own, role, eviction]))
      · exact .inl (by rw [State.isDone_eq, turn.own, ends loop asked])
    · have born : u < s.spawned := by
        apply older
        rcases ending with done | eviction | ⟨loop, _⟩
        · exact .inl done
        · exact .inr (by rw [eviction]; decide)
        · exact .inr (by rw [loop]; decide)
      obtain ⟨still, asked⟩ := turn.others same born
      rw [Ending, State.isDone_eq, still, ← State.isDone_eq]
      exact ending.imp_right (Or.imp_right (And.imp_right asked))
  refine ⟨fun v u waits => ?_, fun u named => ?_⟩
  · by_cases same : v = t
    · subst same
      rw [turn.own] at waits
      cases turn with
      | settles s₁ calm awaited =>
        rcases awaited with nobody | ⟨child, cancelled, at_, rfl⟩
        · rw [nobody] at waits
          cases waits
        · exact keep (awaits.awaited v u (by rw [at_]; exact waits))
      | restarts s₁ calm none _ =>
        rw [none] at waits
        cases waits
      | stops s₁ task calm named _ at_ =>
        obtain rfl : task = u := by
          rw [at_] at waits
          exact Option.some.inj waits
        have loop : s₁.isDone task = true ∨ (s₁.pc task).role = .flushLoop := by
          rw [State.isDone_eq, State.pc, calm.tasks, ← State.pc, ← State.isDone_eq]
          exact awaits.flushTask task named
        have other : task ≠ v := by
          rintro rfl
          rcases awaits.flushTask task named with done | loop
          · rw [State.isDone_eq, running] at done
            cases done
          · rw [loop, at_] at own
            rcases own with impossible | impossible <;> cases impossible
        have ending := State.requestCancel_ends loop
        rwa [Ending, State.isDone_eq, State.pc_setPc_ne other, State.tasks_setPc_ne _ _ other, ← State.isDone_eq]
      | starts s₁ cutoff dryRun calm at_ =>
        obtain rfl : s.spawned = u := by
          rw [at_] at waits
          exact Option.some.inj waits
        refine .inr (.inl ?_)
        rw [State.pc_setPc_ne alive.ne', ← calm.spawned]
        show ((s₁.setPc s₁.spawned (.evictLock cutoff dryRun)).pc s₁.spawned).role = .eviction
        rw [State.pc_setPc_self]
        rfl
    · by_cases born : v < s.spawned
      · rw [(turn.others same born).1] at waits
        exact keep (awaits.awaited v u waits)
      · rw [turn.newborn_awaits alive unborn (Nat.le_of_not_lt born)] at waits
        cases waits
  · have loops (before : s.flushTask = some u) : s'.isDone u = true ∨ (s'.pc u).role = .flushLoop := by
      have loop := awaits.flushTask u before
      by_cases same : u = t
      · subst same
        rw [State.isDone_eq, turn.own]
        rcases loop with done | loop
        · rw [State.isDone_eq, running] at done
          cases done
        · exact own.imp_right fun role => role.trans loop
      · have born : u < s.spawned := older (loop.imp_right fun loop => by rw [loop]; decide)
        rw [State.isDone_eq, (turn.others same born).1, ← State.isDone_eq]
        exact loop
    have calmly {s₁ : State} (calm : Calm s t s₁) (named : s₁.flushTask = some u) : s.flushTask = some u := by
      rcases calm.flushTask with same | ⟨none, _⟩
      · rwa [← same]
      · rw [none] at named
        cases named
    cases turn with
    | settles s₁ calm _ => exact loops (calmly calm named)
    | restarts s₁ calm =>
      rcases s₁.resetTimer_flushTask with ⟨_, same⟩ | ⟨sleeps, named'⟩
      · exact loops (calmly calm (same.symm.trans named))
      · obtain rfl : s₁.spawned = u := Option.some.inj (named'.symm.trans named)
        have other : s₁.spawned ≠ t := by
          rw [calm.spawned]
          exact alive.ne'
        rw [State.pc_setPc_ne other, sleeps]
        exact .inr rfl
    | stops s₁ task calm =>
      refine loops (calmly calm ?_)
      obtain ⟨_, marked, _⟩ := s₁.requestCancel_frame task
      rw [marked] at named
      exact named
    | starts s₁ cutoff dryRun calm _ => exact loops (calmly calm named)

/-! ## Steps -/

/-- A flush loop that is resumed with its cancellation ends. -/
theorem loop_cancelled (loop : (s.pc t).role = .flushLoop) (cancelled : outcome.isCancelled = true)
    (taken : s.resume cfg t (s.pc t) outcome = some s') : (s'.pc t).ended = true := by
  have left (s : State) (result : Result) : ((s.leave t result).pc t).ended = true := by
    rw [State.leave, State.pc_setPc_self]
    rfl
  have write (rest : List Accepted) (rows : Bool) (phase : Phase)
      (taken : s.resume cfg t (.write .flushLoop rest rows phase) outcome = some s') : (s'.pc t).ended = true := by
    cases outcome with
    | cancelled tookEffect =>
      cases resume_write rows taken with
      | cancelled => exact left _ _
    | _ => cases cancelled
  cases outcome with
  | cancelled tookEffect =>
    cases at_ : s.pc t <;> rw [at_] at loop taken
    case sleeping =>
      cases tookEffect <;> cases taken
      rw [State.pc_setPc_self]
      rfl
    case mutation next =>
      cases next <;> try cases loop
      cases tookEffect <;> cases taken
      rw [State.pc_setPc_self]
      rfl
    case flushLock caller =>
      cases caller <;> try cases loop
      cases tookEffect <;> cases taken
      exact left _ _
    case flushGate caller batch rows =>
      cases caller <;> try cases loop
      cases tookEffect <;> cases taken
      exact left _ _
    case flushBatch caller batch phase =>
      cases caller <;> try cases loop
      exact write batch false phase taken
    case flushRow caller rest phase =>
      cases caller <;> try cases loop
      exact write rest true phase taken
    all_goals cases loop
  | _ => cases cancelled

/-- A resumption is a turn of the task, for what it was started for. -/
theorem Nested.turn (nested : Nested s) (bounded : s.buffer.length ≤ cfg.maxBufferSize)
    (requested : outcome.isCancelled = (s.tasks t).cancelRequested)
    (taken : s.resume cfg t (s.pc t) outcome = some s') :
    ∃ pc extra, Turn s t pc extra s' ∧ (pc.ended = true ∨ pc.role = (s.pc t).role) ∧ pc.flips ≤ (s.pc t).flips := by
  by_cases idle : Idle s t outcome
  · obtain ⟨rfl, at_ | ⟨_, body, at_⟩⟩ := idle
    · rw [at_] at taken
      obtain rfl := Option.some.inj taken
      exact ⟨_, 0, .settles s ⟨rfl, rfl, .inl rfl⟩ (.inl rfl), .inr (by rw [at_]; rfl), Nat.zero_le _⟩
    · rw [at_] at taken
      obtain rfl := Option.some.inj taken
      exact ⟨_, 0, .settles s ⟨rfl, rfl, .inl rfl⟩ (.inl rfl), .inr (by rw [at_]; rfl), Nat.zero_le _⟩
  · obtain ⟨pc, extra, turn, own, cost⟩ := (nested.goes bounded requested idle taken).turn
    exact ⟨pc, extra, turn, own, cost.elim Nat.le_of_lt And.left⟩

theorem not_ended_of_taken (taken : s.resume cfg t (s.pc t) outcome = some s') : (s.pc t).ended = false := by
  cases at_ : s.pc t <;> first | rfl | (rw [at_] at taken; cases outcome <;> cases taken)

theorem Serial.taken_alive (serial : Serial s) (taken : s.resume cfg t (s.pc t) outcome = some s') :
    t < s.spawned :=
  serial.alive fun unborn => by
    rw [unborn] at taken
    cases outcome <;> cases taken

theorem Awaits.resume (awaits : Awaits s) (nested : Nested s) (bounded : s.buffer.length ≤ cfg.maxBufferSize)
    (requested : outcome.isCancelled = (s.tasks t).cancelRequested)
    (taken : s.resume cfg t (s.pc t) outcome = some s') : Awaits s' := by
  obtain ⟨pc, extra, turn, own, _⟩ := nested.turn bounded requested taken
  apply awaits.turn turn (nested.serial.taken_alive taken) nested.serial.unborn (not_ended_of_taken taken) own
  intro loop asked
  rw [← turn.own]
  exact loop_cancelled loop (requested.trans asked) taken

/-- A call is the first turn of its task. -/
theorem call_turn (cfg : Config) (op : Op) (fresh : s.pc s.spawned = .unborn) : ∃ pc extra,
    Turn { s with spawned := s.spawned + 1 } s.spawned pc extra (s.call cfg op) ∧
      (pc.ended = true ∨ pc.role = .call) ∧ (pc = .endingBackup true → (s.call cfg op).closing = true) := by
  have calm : Calm { s with spawned := s.spawned + 1 } s.spawned { s with spawned := s.spawned + 1 } :=
    ⟨rfl, rfl, .inl rfl⟩
  have spawns {pc : Pc} (nobody : pc.awaited = none) (own : pc.ended = true ∨ pc.role = .call)
      (quiet : pc ≠ .endingBackup true) : ∃ pc' extra,
      Turn { s with spawned := s.spawned + 1 } s.spawned pc' extra (s.spawn pc) ∧
        (pc'.ended = true ∨ pc'.role = .call) ∧ (pc' = .endingBackup true → (s.spawn pc).closing = true) :=
    ⟨pc, 0, .settles _ calm (.inl nobody), own, fun ending => absurd ending quiet⟩
  have endBackup (s₁ : State) (calm : Calm { s with spawned := s.spawned + 1 } s.spawned s₁) (closing : Bool)
      (closes : closing = true → s₁.closing = true) : ∃ pc extra,
      Turn { s with spawned := s.spawned + 1 } s.spawned pc extra (s₁.endBackup cfg s.spawned closing) ∧
        (pc.ended = true ∨ pc.role = .call) ∧
        (pc = .endingBackup true → (s₁.endBackup cfg s.spawned closing).closing = true) := by
    unfold State.endBackup
    split
    · have opened : Calm { s with spawned := s.spawned + 1 } s.spawned { s₁ with writesAllowed := true } :=
        { calm with }
      exact ⟨_, 0, .settles _ opened (.inl rfl), .inl rfl, nofun⟩
    · have released : Calm { s with spawned := s.spawned + 1 } s.spawned { s₁ with backupInProgress := false } :=
        { calm with }
      refine ⟨_, 0, .settles _ released (.inl rfl), .inr rfl, fun ending => closes ?_⟩
      cases ending
      rfl
  cases op with
  | query flushFirst => cases flushFirst <;> exact spawns rfl (.inr rfl) nofun
  | endBackup =>
    unfold State.call
    dsimp only
    split
    · exact spawns rfl (.inl rfl) nofun
    · exact endBackup _ calm false nofun
  | close =>
    unfold State.call State.startClose
    dsimp only
    have closing : Calm { s with spawned := s.spawned + 1 } s.spawned
        { s with spawned := s.spawned + 1, closing := true } := ⟨rfl, rfl, .inl rfl⟩
    split
    · unfold State.stopFlushTask
      split
      · exact ⟨_, 0, .settles _ closing (.inl rfl), .inr rfl, nofun⟩
      · rename_i task named
        exact ⟨_, 1, .stops _ task closing named (.inr ⟨fresh, rfl⟩) rfl, .inr rfl, nofun⟩
    · exact endBackup _ closing true fun _ => rfl
  | _ => exact spawns rfl (.inr rfl) nofun

theorem Awaits.congr (awaits : Awaits s) (tasks : s₁.tasks = s.tasks) (flushTask : s₁.flushTask = s.flushTask) :
    Awaits s₁ := by
  have same : ∀ u, s₁.pc u = s.pc u := fun u => by rw [State.pc, tasks, State.pc]
  refine ⟨fun t u waits => ?_, fun u named => ?_⟩
  · rw [Ending, State.isDone_eq, same, tasks, ← State.isDone_eq]
    exact awaits.awaited t u (same t ▸ waits)
  · rw [State.isDone_eq, same, ← State.isDone_eq]
    exact awaits.flushTask u (flushTask ▸ named)

theorem Awaits.call (awaits : Awaits s) (serial : Serial s) (op : Op) : Awaits (s.call cfg op) := by
  have fresh : ({ s with spawned := s.spawned + 1 } : State).pc s.spawned = .unborn := serial.unborn _ le_rfl
  obtain ⟨pc, extra, turn, own, _⟩ := call_turn cfg op fresh
  have born : Awaits { s with spawned := s.spawned + 1 } := awaits.congr rfl rfl
  apply born.turn turn (Nat.lt_succ_self _)
  · exact fun u later => serial.unborn u (Nat.le_of_succ_le later)
  · rw [fresh]
    rfl
  · rw [fresh]
    exact own
  · rw [fresh]
    exact nofun

theorem Awaits.requestCancel (awaits : Awaits s) (t : ℕ) : Awaits (s.requestCancel t) := by
  refine ⟨fun v u waits => ?_, fun u named => ?_⟩
  · obtain ⟨same, asked⟩ := s.requestCancel_keeps t u
    rw [(s.requestCancel_keeps t v).1] at waits
    rw [Ending, State.isDone_eq, same, ← State.isDone_eq]
    exact (awaits.awaited v u waits).imp_right (Or.imp_right (And.imp_right asked))
  · rw [State.isDone_eq, (s.requestCancel_keeps t u).1, ← State.isDone_eq]
    apply awaits.flushTask
    obtain ⟨_, marked, _⟩ := s.requestCancel_frame t
    rw [marked] at named
    exact named

theorem Awaits.start (awaits : Awaits s) (serial : Serial s) : Awaits s.start := by
  unfold State.start
  split
  · exact awaits
  · have fresh : s.pc s.spawned = .unborn := serial.unborn _ le_rfl
    have kept {u : ℕ} (other : u ≠ s.spawned) : (s.spawn .sleeping).pc u = s.pc u ∧
        (s.spawn .sleeping).tasks u = s.tasks u := ⟨State.pc_setPc_ne other, State.tasks_setPc_ne s _ other⟩
    have started : (s.spawn .sleeping).pc s.spawned = .sleeping := State.pc_setPc_self
    refine ⟨fun t u waits => ?_, fun u named => ?_⟩
    · have older : t ≠ s.spawned := by
        rintro rfl
        replace waits : ((s.spawn .sleeping).pc s.spawned).awaited = some u := waits
        rw [started] at waits
        cases waits
      have ending := awaits.awaited t u ((kept older).1 ▸ waits)
      have other : u ≠ s.spawned := by
        rintro rfl
        rw [Ending, State.isDone_eq, fresh] at ending
        rcases ending with impossible | impossible | ⟨impossible, _⟩ <;> cases impossible
      show (s.spawn .sleeping).isDone u = true ∨ ((s.spawn .sleeping).pc u).role = .eviction ∨
        ((s.spawn .sleeping).pc u).role = .flushLoop ∧ ((s.spawn .sleeping).tasks u).cancelRequested = true
      rwa [State.isDone_eq, (kept other).1, (kept other).2, ← State.isDone_eq]
    · obtain rfl : s.spawned = u := Option.some.inj named
      exact .inr (congrArg Pc.role started)

/-- What the steps of a run keep. -/
structure Sound (cfg : Config) (s : State) : Prop where
  nested : Nested s
  awaits : Awaits s
  bounded : s.buffer.length ≤ cfg.maxBufferSize

theorem Sound.step (sound : Sound cfg s) (taken : step cfg s event = some s') : Sound cfg s' := by
  refine ⟨sound.nested.step taken, ?_, (step_effect sound.nested.serial taken).2.bounded sound.bounded⟩
  cases event with
  | store telegram =>
    obtain rfl := Option.some.inj taken
    unfold State.store
    split
    · exact sound.awaits
    · exact sound.awaits.congr rfl rfl
  | start =>
    obtain rfl := Option.some.inj taken
    exact sound.awaits.start sound.nested.serial
  | call op =>
    obtain rfl := Option.some.inj taken
    exact sound.awaits.call sound.nested.serial op
  | cancel t =>
    obtain rfl := Option.some.inj taken
    exact sound.awaits.requestCancel t
  | resume t outcome =>
    obtain ⟨requested, resumed⟩ := step_resume taken
    exact sound.awaits.resume sound.nested sound.bounded requested resumed

theorem run_sound {events : List Event} {initialized : Bool} (ran : run cfg initialized events = some s) :
    Sound cfg s :=
  run_keeps (fun _ _ _ sound taken => sound.step taken)
    ⟨.init initialized, .init initialized, Nat.zero_le _⟩ ran

/-! ## Coming to rest -/

/-- One task is resumed, and neither the timer nor a backup is what it waited
for: a timer that runs out is not counted, nor is a look at a gate that is
still closed. -/
def Resumes (cfg : Config) (s s' : State) : Prop :=
  ∃ t outcome, step cfg s (.resume t outcome) = some s' ∧ ¬ Idle s t outcome

/-- Nothing is left to do before the timer runs out, a backup ends or a call
comes in. -/
structure AtRest (s : State) : Prop where
  tasks : ∀ t, s.pc t = .unborn ∨ (∃ result, s.pc t = .done result) ∨ s.pc t = .sleeping ∨
    s.writesAllowed = false ∧ ∃ body, s.pc t = .gate body
  mutationLock : s.mutationLock = false
  flushLock : s.flushLock = false
  inFlight : s.inFlight = []

/-- Where a task can go on as soon as what it needs is there. -/
def Pc.active : Pc → Bool
  | .unborn | .done _ | .gate _ | .mutation _ | .sleeping | .awaitingEviction .. | .awaitingFlushTask _ => false
  | _ => true

theorem Pc.active_of_evicts (evicts : pc.evicts = true) : pc.active = true := by
  cases pc <;> first | rfl | cases evicts

theorem Pc.active_of_holdsFlush (holds : pc.holdsFlush = true) : pc.active = true := by
  cases pc <;> first | rfl | cases holds

theorem Pc.evicts_of_role (role : pc.role = .eviction) : pc.evicts = true := by
  cases pc with
  | mutation next => cases next <;> cases role
  | flushLock caller => cases caller <;> cases role
  | flushGate caller => cases caller <;> cases role
  | flushBatch caller => cases caller <;> cases role
  | flushRow caller => cases caller <;> cases role
  | _ => first | rfl | cases role

section
variable (stuck : ∀ s', ¬ Resumes cfg s s')
include stuck

/-- In a state where nothing can go on, a resumption with what was requested
finds nothing. -/
theorem resume_none (t : ℕ) (outcome : Outcome)
    (requested : outcome.isCancelled = (s.tasks t).cancelRequested) (awake : ¬ Idle s t outcome) :
    s.resume cfg t (s.pc t) outcome = none := by
  cases taken : s.resume cfg t (s.pc t) outcome with
  | none => rfl
  | some s' =>
    refine absurd ⟨t, outcome, ?_, awake⟩ (stuck s')
    show (if outcome.isCancelled = (s.tasks t).cancelRequested then _ else _) = _
    rw [if_pos requested, taken]

/-- Every task that was cancelled has ended, or waits for one that was. -/
theorem stuck_asked (asked : (s.tasks t).cancelRequested = true) : s.pc t = .unborn ∨
    (∃ result, s.pc t = .done result) ∨ ∃ task, s.pc t = .awaitingFlushTask task := by
  have nothing := resume_none stuck t (.cancelled false) asked.symm nofun
  cases at_ : s.pc t <;> rw [at_] at nothing
  case unborn => exact .inl rfl
  case done result => exact .inr (.inl ⟨result, rfl⟩)
  case awaitingFlushTask task => exact .inr (.inr ⟨task, rfl⟩)
  case mutation next => cases next <;> cases nothing
  case flushBatch caller batch phase => cases phase <;> cases nothing
  case flushRow caller rest phase => cases phase <;> cases nothing
  case storing telegrams phase => cases phase <;> cases nothing
  case clearing phase => cases phase <;> cases nothing
  case evicting cutoff phase => cases phase <;> cases nothing
  case endingBackup closing => cases closing <;> cases nothing
  all_goals cases nothing

theorem stuck_active (nested : Nested s) (t : ℕ) : (s.pc t).active = false := by
  by_contra active
  have active : (s.pc t).active = true := by simpa using active
  cases asked : (s.tasks t).cancelRequested with
  | true =>
    rcases stuck_asked stuck asked with at_ | ⟨result, at_⟩ | ⟨task, at_⟩ <;> rw [at_] at active <;> cases active
  | false =>
    have ready := nested.ready t
    have awake : ¬ Idle s t .returned := by
      rintro ⟨-, at_ | ⟨-, body, at_⟩⟩ <;> rw [at_] at active <;> cases active
    have nothing := resume_none stuck t .returned asked.symm awake
    cases at_ : s.pc t <;> rw [at_] at nothing active ready
    case flushLock caller =>
      have free : s.flushLock = false := ready
      simp [State.resume, free] at nothing
    case evictLock cutoff dryRun =>
      have free : s.flushLock = false := ready
      simp [State.resume, free] at nothing
    case clearLock =>
      have free : s.flushLock = false := ready
      simp [State.resume, free] at nothing
    case flushBatch caller batch phase => cases phase <;> cases nothing
    case flushRow caller rest phase => cases phase <;> cases nothing
    case storing telegrams phase => cases phase <;> cases nothing
    case clearing phase => cases phase <;> cases nothing
    case evicting cutoff phase => cases phase <;> cases nothing
    case endingBackup closing => cases closing <;> cases nothing
    all_goals first | (cases active; done) | cases nothing

theorem stuck_awaits (sound : Sound cfg s) (t : ℕ) : (s.pc t).awaited = none := by
  cases waits : (s.pc t).awaited with
  | none => rfl
  | some u =>
    have ending := sound.awaits.awaited t u waits
    have done : s.isDone u = true := by
      rcases ending with done | eviction | ⟨loop, asked⟩
      · exact done
      · have active := stuck_active stuck sound.nested u
        rw [Pc.active_of_evicts (Pc.evicts_of_role eviction)] at active
        cases active
      · rcases stuck_asked stuck asked with at_ | ⟨result, at_⟩ | ⟨task, at_⟩
        · rw [at_] at loop
          cases loop
        · exact State.isDone_of_done at_
        · rw [at_] at loop
          cases loop
    obtain ⟨result, ended⟩ : ∃ result, s.pc u = .done result := by
      rw [State.isDone_eq] at done
      cases at_ : s.pc u <;> rw [at_] at done <;> first | exact ⟨_, rfl⟩ | cases done
    have awake {outcome : Outcome} : ¬ Idle s t outcome := by
      rintro ⟨-, at_ | ⟨-, body, at_⟩⟩ <;> rw [at_] at waits <;> cases waits
    cases asked : (s.tasks t).cancelRequested with
    | true =>
      have nothing := resume_none stuck t (.cancelled false) asked.symm awake
      rcases stuck_asked stuck asked with at_ | ⟨result, at_⟩ | ⟨task, at_⟩ <;> rw [at_] at waits
      · cases waits
      · cases waits
      · obtain rfl : task = u := Option.some.inj waits
        rw [at_] at nothing
        simp [State.resume, done] at nothing
    | false =>
      have nothing := resume_none stuck t .returned asked.symm awake
      cases at_ : s.pc t <;> rw [at_] at nothing waits <;> try cases waits
      · simp [State.resume, ended] at nothing
      · simp [State.resume, done] at nothing

theorem stuck_outside (sound : Sound cfg s) (t : ℕ) : (s.pc t).holdsMutation = false := by
  have idle := stuck_active stuck sound.nested t
  have alone := stuck_awaits stuck sound t
  cases at_ : s.pc t <;> rw [at_] at idle alone <;> first | rfl | (cases idle; done) | cases alone

/-- **What cannot go on is at rest.** -/
theorem stuck_atRest (sound : Sound cfg s) : AtRest s := by
  have serial := sound.nested.serial
  have nobody : s.mutationOwner = none := by
    cases owner : s.mutationOwner with
    | none => rfl
    | some t =>
      have inside := (serial.owner t).mpr owner
      rw [stuck_outside stuck sound t] at inside
      cases inside
  have free : s.mutationLock = false := by rw [serial.lock, nobody]; rfl
  have unlocked : s.flushLock = false := by
    by_contra locked
    obtain ⟨u, holds⟩ := sound.nested.holder (by simpa using locked)
    have active := stuck_active stuck sound.nested u
    rw [Pc.active_of_holdsFlush holds] at active
    cases active
  refine ⟨fun t => ?_, free, unlocked, State.inFlight_of_none nobody⟩
  have idle := stuck_active stuck sound.nested t
  have alone := stuck_awaits stuck sound t
  by_cases asked : (s.tasks t).cancelRequested = true
  · rcases stuck_asked stuck asked with unborn | ended | ⟨task, at_⟩
    · exact .inl unborn
    · exact .inr (.inl ended)
    · rw [at_] at alone
      cases alone
  · have requested : Outcome.returned.isCancelled = (s.tasks t).cancelRequested := by
      rw [Bool.not_eq_true] at asked
      exact asked.symm
    cases at_ : s.pc t <;> rw [at_] at idle alone
    case unborn => exact .inl rfl
    case done result => exact .inr (.inl ⟨result, rfl⟩)
    case sleeping => exact .inr (.inr (.inl rfl))
    case gate body =>
      refine .inr (.inr (.inr ⟨?_, body, rfl⟩))
      by_contra allowed
      have awake : ¬ Idle s t .returned := by
        rintro ⟨-, at_' | ⟨held, -⟩⟩
        · rw [at_] at at_'
          cases at_'
        · exact allowed held
      have nothing := resume_none stuck t .returned requested awake
      rw [at_] at nothing
      cases nothing
    case mutation next =>
      have awake : ¬ Idle s t .returned := by
        rintro ⟨-, at_' | ⟨-, body, at_'⟩⟩ <;> rw [at_] at at_' <;> cases at_'
      have nothing := resume_none stuck t .returned requested awake
      have locked : (if s.mutationLock then none
        else if s.closing ∧ ¬ next.isClose then some (s.refuse t next)
        else some (s.enter cfg t next)) = none := by
        rw [at_] at nothing
        cases next <;> exact nothing
      rw [free, if_neg Bool.false_ne_true] at locked
      split at locked <;> cases locked
    all_goals first | (cases idle; done) | cases alone

end

theorem Sound.resumes (sound : Sound cfg s) (taken : Resumes cfg s s') : Sound cfg s' := by
  obtain ⟨t, outcome, resumed, _⟩ := taken
  exact sound.step resumed

theorem Sound.descends (sound : Sound cfg s) (taken : Resumes cfg s s') : s'.measure cfg < s.measure cfg := by
  obtain ⟨t, outcome, resumed, awake⟩ := taken
  obtain ⟨requested, resumed⟩ := step_resume resumed
  exact (sound.nested.goes sound.bounded requested awake resumed).descends (sound.nested.serial.taken_alive resumed)

/-- **Every call ends.** From every state of a run, whichever tasks are resumed
and whatever their awaits end with, the store comes to rest: the calls have
returned or raised but for those that a backup holds off, no lock is held and
no batch is in flight. -/
theorem comes_to_rest {initialized : Bool} {events : List Event} (ran : run cfg initialized events = some s) :
    Inevitable (Resumes cfg) AtRest s := by
  refine inevitable_of_descent (I := Sound cfg) (State.measure cfg) (fun _ _ => Sound.resumes) ?_
    (fun _ _ => Sound.descends) (run_sound ran)
  intro now sound busy
  by_contra stuck
  exact busy (stuck_atRest (not_exists.mp stuck) sound)

/-- Two flushes, an eviction and a `close()` that are under way at once. -/
def crowd : List Event :=
  [.start, .store sampleTelegram, .call .flush, .call (.evictOlderThan sampleTelegram.timestamp false), .call .flush,
    .resume 1 .returned, .call .close]

theorem crowd_comes_to_rest : ∃ s, run sampleConfig true crowd = some s ∧ s.mutationLock = true ∧
    Inevitable (Resumes sampleConfig) AtRest s :=
  ⟨_, rfl, rfl, comes_to_rest (show run sampleConfig true crowd = some _ from rfl)⟩

end KnxTelegramStore.Buffered
