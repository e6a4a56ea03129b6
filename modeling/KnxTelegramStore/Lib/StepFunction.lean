import Mathlib.Data.Int.Basic
import Mathlib.Tactic.Linarith

/-!
Functions on the integers that keep a value for a while and then change it at
a single point. Where two changes are never closer than a gap, a window no
wider than the gap holds one at most, so the values at its ends say whether it
holds one, and everything in between is one of the two.
-/
namespace StepFunction

variable {β : Type*} {f : ℤ → β} {a b x gap : ℤ}

/-- There is another value at `c` than just before it. -/
def Changes (f : ℤ → β) (c : ℤ) : Prop := f (c - 1) ≠ f c

/-- Two changes are at least `gap` apart. -/
def Sparse (f : ℤ → β) (gap : ℤ) : Prop := ∀ c c', Changes f c → Changes f c' → c < c' → c + gap ≤ c'

/-- Without a change there is one value. -/
theorem constant (still : ∀ c, a < c → c ≤ b → ¬ Changes f c) (low : a ≤ x) (high : x ≤ b) : f x = f a := by
  induction x, low using Int.leInduction with
  | base => rfl
  | succ x low ih =>
    have before := ih (by omega)
    have next := not_not.mp (still (x + 1) (by omega) high)
    rw [show x + 1 - 1 = x by omega] at next
    rw [← next, before]

/-- Two values have a change in between. -/
theorem exists_change (low : a ≤ b) (differ : f a ≠ f b) : ∃ c, a < c ∧ c ≤ b ∧ Changes f c := by
  by_contra none
  refine differ (constant (fun c after upTo changes => none ⟨c, after, upTo, changes⟩) low le_rfl).symm

/-- The values around a change, when there is no other. -/
theorem around {c : ℤ} (after : a < c) (upTo : c ≤ b) (only : ∀ c', a < c' → c' ≤ b → Changes f c' → c' = c) :
    (∀ x, a ≤ x → x < c → f x = f a) ∧ ∀ x, c ≤ x → x ≤ b → f x = f b := by
  refine ⟨fun x low high => ?_, fun x low high => ?_⟩
  · refine constant (b := c - 1) (fun c' late early changes => ?_) low (by omega)
    have same := only c' late (by omega) changes
    omega
  · have still : ∀ c', c < c' → c' ≤ b → ¬ Changes f c' := by
      intro c' late early changes
      have same := only c' (by omega) early changes
      omega
    rw [constant still low high, constant still upTo le_rfl]

/-- A change within the gap is the only one. -/
theorem Sparse.only {c : ℤ} (sparse : Sparse f gap) (near : b ≤ a + gap) (after : a < c) (upTo : c ≤ b)
    (changes : Changes f c) : ∀ c', a < c' → c' ≤ b → Changes f c' → c' = c := by
  intro c' late early changes'
  rcases lt_trichotomy c' c with less | same | more
  · have := sparse c' c changes' changes less
    omega
  · exact same
  · have := sparse c c' changes changes' more
    omega

/-- Equal ends of a window that is no wider than the gap. -/
theorem Sparse.same (sparse : Sparse f gap) (near : b ≤ a + gap) (equal : f a = f b) (low : a ≤ x) (high : x ≤ b) :
    f x = f a := by
  refine constant (fun c after upTo changes => ?_) low high
  obtain ⟨first, last⟩ := around after upTo (sparse.only near after upTo changes)
  refine changes ?_
  rw [first (c - 1) (by omega) (by omega), last c le_rfl upTo, equal]

/-- Different ends of such a window. -/
theorem Sparse.differ (sparse : Sparse f gap) (near : b ≤ a + gap) (low : a ≤ b) (differ : f a ≠ f b) :
    ∃ c, a < c ∧ c ≤ b ∧ Changes f c ∧ (∀ x, a ≤ x → x < c → f x = f a) ∧ ∀ x, c ≤ x → x ≤ b → f x = f b := by
  obtain ⟨c, after, upTo, changes⟩ := exists_change low differ
  exact ⟨c, after, upTo, changes, around after upTo (sparse.only near after upTo changes)⟩

end StepFunction
