import Mathlib.Logic.Basic

/-!
SQL conditions and joins. A comparison with NULL is unknown, and a row is
selected only where the whole condition is true, so that under `Holds` the
connectives behave as in two-valued logic (`holds_and`, `holds_or`) although
unknown is not false. A left join keeps every row, once if it has at most one
partner (`leftMatches_eq`).
-/
namespace Relational

variable {α : Type*} [DecidableEq α]

/-- True, false, or unknown. -/
abbrev Truth := Option Bool

/-- The rows for which a condition is true are selected, and no others. -/
def Holds (p : Truth) : Prop := p = some true

instance : DecidablePred Holds := fun p => inferInstanceAs (Decidable (p = some true))

def and : Truth → Truth → Truth
  | some false, _ | _, some false => some false
  | some true, some true => some true
  | _, _ => none

def or : Truth → Truth → Truth
  | some true, _ | _, some true => some true
  | some false, some false => some false
  | _, _ => none

/-- `and_(*conditions)`. -/
def all (conditions : List Truth) : Truth := conditions.foldr and (some true)

/-- `or_(*conditions)`. -/
def any (conditions : List Truth) : Truth := conditions.foldr or (some false)

/-- `column = value`. -/
def eq (column : Option α) (value : α) : Truth := column.map fun x => decide (x = value)

/-- `column IN (values)`, none of the values NULL. -/
def isIn (column : Option α) (values : List α) : Truth := column.map fun x => decide (x ∈ values)

@[simp] theorem holds_and (p q : Truth) : Holds (and p q) ↔ Holds p ∧ Holds q := by
  rcases p with _ | _ | _ <;> rcases q with _ | _ | _ <;> simp [Holds, and]

@[simp] theorem holds_or (p q : Truth) : Holds (or p q) ↔ Holds p ∨ Holds q := by
  rcases p with _ | _ | _ <;> rcases q with _ | _ | _ <;> simp [Holds, or]

@[simp] theorem holds_some (b : Bool) : Holds (some b) ↔ b = true := by simp [Holds]

@[simp] theorem holds_eq (column : Option α) (value : α) : Holds (eq column value) ↔ column = some value := by
  cases column <;> simp [Holds, eq]

@[simp] theorem holds_isIn (column : Option α) (values : List α) :
    Holds (isIn column values) ↔ ∃ x ∈ values, column = some x := by
  cases column <;> simp [Holds, isIn]

@[simp] theorem holds_all (conditions : List Truth) : Holds (all conditions) ↔ ∀ p ∈ conditions, Holds p := by
  induction conditions with
  | nil => simp [all]
  | cons p conditions ih =>
    have unfolded : all (p :: conditions) = and p (all conditions) := rfl
    simp [unfolded, ih]

@[simp] theorem holds_any (conditions : List Truth) : Holds (any conditions) ↔ ∃ p ∈ conditions, Holds p := by
  induction conditions with
  | nil => simp [any]
  | cons p conditions ih =>
    have unfolded : any (p :: conditions) = or p (any conditions) := rfl
    simp [unfolded, ih]

/-! ## Joins -/

variable {β : Type*}

/-- The partners `LEFT JOIN others ON on` gives one row. -/
def leftMatches (others : List β) (on : β → Bool) : List (Option β) :=
  match others.filter on with
  | [] => [none]
  | found => found.map some

theorem leftMatches_eq {others : List β} {on : β → Bool} (unique : (others.filter on).length ≤ 1) :
    leftMatches others on = [others.find? on] := by
  have first : others.find? on = (others.filter on).head? := List.head?_filter.symm
  unfold leftMatches
  rw [first]
  cases found : others.filter on with
  | nil => rfl
  | cons b rest =>
    rw [found, List.length_cons] at unique
    have single : rest = [] := List.eq_nil_of_length_eq_zero (by omega)
    simp [single]

end Relational
