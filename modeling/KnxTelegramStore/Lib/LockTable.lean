import Mathlib.Data.List.Basic

/-!
Locks that sessions hold until their transactions end. A lock is granted
unless another session holds one that conflicts with it, so that no two
sessions ever hold locks that conflict.
-/
namespace LockTable

variable {ι κ : Type*} {conflicts : κ → κ → Bool} {table : List (ι × κ)} {session other : ι} {lock held : κ}

/-- What two sessions hold does not conflict. -/
def Compatible (conflicts : κ → κ → Bool) (table : List (ι × κ)) : Prop :=
  ∀ session lock, (session, lock) ∈ table → ∀ other held, (other, held) ∈ table → other ≠ session →
    conflicts held lock = false

theorem Compatible.nil : Compatible conflicts ([] : List (ι × κ)) := fun _ _ impossible => by cases impossible

/-- A lock that conflicts with itself has one holder. -/
theorem Compatible.holder (compatible : Compatible conflicts table) (exclusive : conflicts lock lock = true)
    (mine : (session, lock) ∈ table) (theirs : (other, lock) ∈ table) : other = session := by
  by_contra apart
  rw [compatible session lock mine other lock theirs apart] at exclusive
  cases exclusive

variable [DecidableEq ι]

/-- Whether a session gets a lock without waiting. -/
def grantable (conflicts : κ → κ → Bool) (table : List (ι × κ)) (session : ι) (lock : κ) : Bool :=
  table.all fun entry => entry.1 = session || !conflicts entry.2 lock

/-- What is left when the transaction of a session ends. -/
def release (table : List (ι × κ)) (session : ι) : List (ι × κ) := table.filter fun entry => entry.1 ≠ session

theorem grantable_iff : grantable conflicts table session lock = true ↔
    ∀ other held, (other, held) ∈ table → other ≠ session → conflicts held lock = false := by
  simp only [grantable, List.all_eq_true, Prod.forall, Bool.or_eq_true, decide_eq_true_eq, Bool.not_eq_true',
    or_iff_not_imp_left, ne_eq]

theorem mem_release : (other, held) ∈ release table session ↔ (other, held) ∈ table ∧ other ≠ session := by
  simp [release]

theorem Compatible.release (compatible : Compatible conflicts table) (session : ι) :
    Compatible conflicts (release table session) := by
  intro first lock mem second held mem' apart
  exact compatible first lock (mem_release.mp mem).1 second held (mem_release.mp mem').1 apart

theorem Compatible.grant (compatible : Compatible conflicts table)
    (symmetric : ∀ first second, conflicts first second = conflicts second first)
    (granted : grantable conflicts table session lock = true) : Compatible conflicts ((session, lock) :: table) := by
  have free := grantable_iff.mp granted
  intro first own mem second held mem' apart
  rcases List.mem_cons.mp mem with same | older
  · cases same
    rcases List.mem_cons.mp mem' with same' | older'
    · cases same'
      exact absurd rfl apart
    · exact free second held older' apart
  · rcases List.mem_cons.mp mem' with same' | older'
    · cases same'
      rw [symmetric]
      exact free first own older apart.symm
    · exact compatible first own older second held older' apart

end LockTable
