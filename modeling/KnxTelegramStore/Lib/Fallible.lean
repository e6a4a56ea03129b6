import KnxTelegramStore.Lib.Paging

/-!
List algorithms over a comparison that may raise: a filter, a stable sort and
a binary search. Where the comparison is decided on the elements at hand, each
of them does what its total counterpart does (`filter?_decided`,
`sort?_decided`, `bisectLeft?_decided`).
-/
namespace Fallible
open Paging

variable {α : Type} {xs : List α}

/-- The elements a test keeps, if the test raises for none of them. -/
def filter? (keep : α → Option Bool) : List α → Option (List α)
  | [] => some []
  | x :: xs => do
    let kept ← keep x
    let rest ← filter? keep xs
    return if kept then x :: rest else rest

theorem filter?_decided {P : α → Prop} [DecidablePred P] {keep : α → Option Bool}
    (each : ∀ x ∈ xs, keep x = some (decide (P x))) : filter? keep xs = some (xs.filter P) := by
  induction xs with
  | nil => rfl
  | cons x xs ih =>
    rw [filter?, each x List.mem_cons_self, ih fun y mem => each y (List.mem_cons_of_mem _ mem), List.filter_cons]
    rfl

/-- A stable sort. Any two of the elements may be compared, and a comparison
that raises is taken to be made. -/
def sort? (lt : α → α → Option Bool) (descending : Bool) (xs : List α) : Option (List α) :=
  if xs.all fun x => xs.all fun y => (lt x y).isSome then
    some (xs.mergeSort fun a b => decide ((if descending then lt a b else lt b a) ≠ some true))
  else none

theorem sort?_decided {κ : Type*} [LinearOrder κ] {key : α → κ} {lt : α → α → Option Bool} {descending : Bool}
    (each : ∀ x ∈ xs, ∀ y ∈ xs, lt x y = some (decide (key x < key y))) :
    sort? lt descending xs = some (arrange key descending xs) := by
  have compared : xs.all (fun x => xs.all fun y => (lt x y).isSome) = true := by
    simp only [List.all_eq_true]
    intro x mem y mem'
    rw [each x mem y mem']
    rfl
  have same := List.map_mergeSort (f := id)
    (r := fun a b => decide ((if descending then lt a b else lt b a) ≠ some true))
    (s := fun a b => decide (Before descending (key a) (key b))) (l := xs) fun a mem b mem' => by
      cases descending
      · simp [Before, each b mem' a mem]
      · simp [Before, each a mem b mem']
  rw [sort?, if_pos compared, arrange]
  simpa using same

/-- A sort that compares all it has rearranges it, in whatever order. -/
theorem sort?_of_compared {lt : α → α → Option Bool} (descending : Bool)
    (compared : ∀ x ∈ xs, ∀ y ∈ xs, (lt x y).isSome) :
    ∃ arranged, sort? lt descending xs = some arranged ∧ arranged.Perm xs := by
  refine ⟨_, if_pos ?_, List.mergeSort_perm xs _⟩
  simpa only [List.all_eq_true] using compared

/-! ## Binary search -/

/-- `bisect.bisect_left` between `lo` and `hi`; `below` compares an element
with the value looked for. -/
def bisectLeft? (below : α → Option Bool) (a : List α) (lo hi : ℕ) : Option ℕ :=
  if lo < hi then do
    let y ← a[(lo + hi) / 2]?
    let smaller ← below y
    if smaller then bisectLeft? below a ((lo + hi) / 2 + 1) hi else bisectLeft? below a lo ((lo + hi) / 2)
  else some lo
termination_by hi - lo

/-- The elements before `index` have the property and the others do not. -/
def Splits (P : α → Prop) (a : List α) (index : ℕ) : Prop :=
  ∀ i (inside : i < a.length), P a[i] ↔ i < index

variable {P : α → Prop} [DecidablePred P] {below : α → Option Bool} {a : List α}

theorem bisectLeft?_decided {lo hi : ℕ} (each : ∀ y ∈ a, below y = some (decide (P y)))
    (sorted : a.Pairwise fun x y => P y → P x) (range : lo ≤ hi) (inside : hi ≤ a.length)
    (before : ∀ i (inside : i < a.length), i < lo → P a[i])
    (after : ∀ i (inside : i < a.length), hi ≤ i → ¬ P a[i]) :
    ∃ index, bisectLeft? below a lo hi = some index ∧ Splits P a index := by
  have ordered {i j : ℕ} (upto : i ≤ j) (inside : j < a.length) (holds : P a[j]) : P a[i] := by
    rcases Nat.lt_or_eq_of_le upto with lt | rfl
    · exact List.pairwise_iff_getElem.mp sorted i j (by omega) inside lt holds
    · exact holds
  rw [bisectLeft?]
  split
  · rename_i nonempty
    have mid : (lo + hi) / 2 < a.length := by omega
    rw [List.getElem?_eq_getElem mid]
    simp only [Option.bind_eq_bind, Option.bind_some, each _ (List.getElem_mem mid)]
    split
    · rename_i smaller
      refine bisectLeft?_decided each sorted (by omega) inside (fun i inside lt => ?_) after
      exact ordered (by omega) mid (of_decide_eq_true smaller)
    · rename_i larger
      refine bisectLeft?_decided each sorted (by omega) (by omega) before fun i inside upto holds => ?_
      exact larger (decide_eq_true (ordered upto inside holds))
  · refine ⟨lo, rfl, fun i inside => ⟨fun holds => ?_, before i inside⟩⟩
    by_contra past
    exact after i inside (by omega) holds
termination_by hi - lo

/-- What a search that has split the list finds just behind the split: an
element without the property, if there is one, and the first of them. -/
theorem Splits.find {index : ℕ} {low : α → Prop} (splits : Splits (fun y => ¬ low y) a index) (high : α → Prop)
    (sorted : a.Pairwise fun x y => high y → high x) :
    (∃ y ∈ a, low y ∧ high y) ↔ ∃ y, a[index]? = some y ∧ high y := by
  constructor
  · rintro ⟨y, mem, above, under⟩
    obtain ⟨i, inside, rfl⟩ := List.mem_iff_getElem.mp mem
    have past : index ≤ i := by
      by_contra lt
      exact (splits i inside).mpr (by omega) above
    have present : index < a.length := by omega
    refine ⟨a[index], List.getElem?_eq_getElem present, ?_⟩
    rcases Nat.lt_or_eq_of_le past with lt | rfl
    · exact List.pairwise_iff_getElem.mp sorted index i (by omega) inside lt under
    · exact under
  · rintro ⟨y, found, under⟩
    obtain ⟨inside, rfl⟩ := List.getElem?_eq_some_iff.mp found
    refine ⟨a[index], List.getElem_mem inside, ?_, under⟩
    by_contra above
    exact absurd ((splits index inside).mp above) (Nat.lt_irrefl index)

end Fallible
