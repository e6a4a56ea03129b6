import Mathlib.Order.WellFounded

/-!
What a system cannot but come to. A state is inevitable when every way of
going on leads there, none of them for ever and none of them to a state that
is stuck before. The rule asks for two things in every state short of the
goal: that some step is possible, and that each one descends.
-/
namespace Inevitability

variable {σ α : Type*} {R : σ → σ → Prop} {P I : σ → Prop} {s : σ}

/-- Whichever steps are taken from a state on, they come to one where `P`
holds. -/
inductive Inevitable (R : σ → σ → Prop) (P : σ → Prop) : σ → Prop where
  | here {s : σ} (holds : P s) : Inevitable R P s
  | later {s : σ} (live : ∃ s', R s s') (each : ∀ s', R s s' → Inevitable R P s') : Inevitable R P s

/-- **The rule of descent.** Where every state short of the goal has a step,
and every step from one makes a measure smaller, the goal is inevitable. -/
theorem inevitable_of_descent [Preorder α] [WellFoundedLT α] (measure : σ → α)
    (keep : ∀ s s', I s → R s s' → I s') (live : ∀ s, I s → ¬ P s → ∃ s', R s s')
    (descend : ∀ s s', I s → R s s' → measure s' < measure s) (start : I s) : Inevitable R P s := by
  generalize reached : measure s = m
  induction m using WellFoundedLT.induction generalizing s with
  | ind m ih =>
    by_cases holds : P s
    · exact .here holds
    · refine .later (live s start holds) fun s' taken => ?_
      apply ih (measure s') (reached ▸ descend s s' start taken) (keep s s' start taken) rfl

end Inevitability
