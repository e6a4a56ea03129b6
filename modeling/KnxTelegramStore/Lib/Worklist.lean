import Mathlib.Algebra.BigOperators.Group.Finset.Basic
import Mathlib.Algebra.Order.BigOperators.Group.Finset
import Mathlib.Data.Fintype.Basic
import Mathlib.Logic.Relation

/-!
Depth-first search of a finite graph with a stack and a set of the vertices it
has seen. The links of a vertex may lead nowhere, and the graph may have
cycles. A search that finds nothing has seen all that can be reached
(`search_eq_none_iff`), and renaming the vertices does not change whether it
does (`search_renamed`).
-/
namespace Worklist
open Relation

variable {α β : Type}
variable {goal : α → Bool} {links : α → List (Option α)} {seen : Finset α} {pending : List (Option α)} {x y : α}

/-- The entries of the stack, and those that the unseen vertices still put on
it. -/
def work [Fintype α] [DecidableEq α] (links : α → List (Option α)) (seen : Finset α) (pending : List (Option α)) :
    ℕ :=
  (∑ x ∈ seenᶜ, (links x).length) + pending.length

/-- A vertex puts its links on the stack once. -/
theorem work_insert [Fintype α] [DecidableEq α] (links : α → List (Option α)) (pending : List (Option α))
    (fresh : x ∉ seen) :
    work links (insert x seen) ((links x).reverse ++ pending) < work links seen (some x :: pending) := by
  have split := Finset.sum_erase_add seenᶜ (fun y => (links y).length) (Finset.mem_compl.mpr fresh)
  rw [← Finset.compl_insert] at split
  simp only [work, List.length_append, List.length_reverse, List.length_cons]
  omega

/-- The first vertex that meets the goal; `pending` is the stack, its top
first. -/
def search [Fintype α] [DecidableEq α] (goal : α → Bool) (links : α → List (Option α)) (seen : Finset α) :
    List (Option α) → Option α
  | [] => none
  | none :: pending => search goal links seen pending
  | some x :: pending =>
    if x ∈ seen then search goal links seen pending
    else if goal x then some x
    else search goal links (insert x seen) ((links x).reverse ++ pending)
termination_by pending => work links seen pending
decreasing_by
  · simp only [work, List.length_cons]
    omega
  · simp only [work, List.length_cons]
    omega
  · exact work_insert links pending ‹_›

/-- One link. -/
def Link (links : α → List (Option α)) (x y : α) : Prop := some y ∈ links x

/-- Any number of links. -/
abbrev Reaches (links : α → List (Option α)) : α → α → Prop := ReflTransGen (Link links)

/-- What is found meets the goal, and was reached from the stack. -/
theorem search_found [Fintype α] [DecidableEq α] (found : search goal links seen pending = some y) :
    goal y = true ∧ ∃ x, some x ∈ pending ∧ Reaches links x y := by
  induction seen, pending using search.induct goal links with
  | case1 seen =>
    rw [search] at found
    cases found
  | case2 seen pending ih =>
    rw [search] at found
    obtain ⟨meets, x, mem, reaches⟩ := ih found
    exact ⟨meets, x, List.mem_cons_of_mem _ mem, reaches⟩
  | case3 seen z pending known ih =>
    rw [search, if_pos known] at found
    obtain ⟨meets, x, mem, reaches⟩ := ih found
    exact ⟨meets, x, List.mem_cons_of_mem _ mem, reaches⟩
  | case4 seen z pending fresh meets =>
    rw [search, if_neg fresh, if_pos meets] at found
    cases found
    exact ⟨meets, y, List.mem_cons_self, .refl⟩
  | case5 seen z pending fresh other ih =>
    rw [search, if_neg fresh, if_neg other] at found
    obtain ⟨meets, x, mem, reaches⟩ := ih found
    refine ⟨meets, ?_⟩
    rcases List.mem_append.mp mem with link | later
    · exact ⟨z, List.mem_cons_self, .head (List.mem_reverse.mp link) reaches⟩
    · exact ⟨x, List.mem_cons_of_mem _ later, reaches⟩

/-- What has been seen misses the goal, and its links lead to what has been
seen or is on the stack. -/
def Covered (goal : α → Bool) (links : α → List (Option α)) (seen : Finset α) (pending : List (Option α)) : Prop :=
  ∀ x ∈ seen, goal x = false ∧ ∀ y, Link links x y → y ∈ seen ∨ some y ∈ pending

/-- A vertex leaves the stack for the seen ones, and its links take its
place. -/
theorem Covered.insert [DecidableEq α] (covered : Covered goal links seen (some x :: pending))
    (other : goal x = false) :
    Covered goal links (insert x seen) ((links x).reverse ++ pending) := by
  intro z mem
  rcases Finset.mem_insert.mp mem with rfl | old
  · exact ⟨other, fun y link => .inr (List.mem_append_left _ (List.mem_reverse.mpr link))⟩
  · refine ⟨(covered z old).1, fun y link => ?_⟩
    rcases (covered z old).2 y link with known | waiting
    · exact .inl (Finset.mem_insert_of_mem known)
    · rcases List.mem_cons.mp waiting with same | later
      · cases same
        exact .inl (Finset.mem_insert_self x seen)
      · exact .inr (List.mem_append_right _ later)

/-- An entry that adds nothing leaves the stack. -/
theorem Covered.tail {entry : Option α} (covered : Covered goal links seen (entry :: pending))
    (known : ∀ y, entry = some y → y ∈ seen) : Covered goal links seen pending := by
  refine fun z mem => ⟨(covered z mem).1, fun y link => ?_⟩
  rcases (covered z mem).2 y link with old | waiting
  · exact .inl old
  · rcases List.mem_cons.mp waiting with same | later
    · exact .inl (known y same.symm)
    · exact .inr later

/-- A search that finds nothing ends with a closed set without the goal. -/
theorem search_closed [Fintype α] [DecidableEq α] (covered : Covered goal links seen pending)
    (missing : search goal links seen pending = none) :
    ∃ visited : Finset α, seen ⊆ visited ∧ (∀ x, some x ∈ pending → x ∈ visited) ∧ Covered goal links visited [] := by
  induction seen, pending using search.induct goal links with
  | case1 seen => exact ⟨seen, Finset.Subset.refl seen, fun x mem => absurd mem List.not_mem_nil, covered⟩
  | case2 seen pending ih =>
    rw [search] at missing
    obtain ⟨visited, grown, reached, closed⟩ := ih (covered.tail nofun) missing
    refine ⟨visited, grown, fun x mem => ?_, closed⟩
    rcases List.mem_cons.mp mem with same | later
    · cases same
    · exact reached x later
  | case3 seen z pending known ih =>
    rw [search, if_pos known] at missing
    have rest : Covered goal links seen pending := covered.tail fun y same => by
      cases same
      exact known
    obtain ⟨visited, grown, reached, closed⟩ := ih rest missing
    refine ⟨visited, grown, fun x mem => ?_, closed⟩
    rcases List.mem_cons.mp mem with same | later
    · cases same
      exact grown known
    · exact reached x later
  | case4 seen z pending fresh meets =>
    rw [search, if_neg fresh, if_pos meets] at missing
    cases missing
  | case5 seen z pending fresh other ih =>
    rw [search, if_neg fresh, if_neg other] at missing
    obtain ⟨visited, grown, reached, closed⟩ := ih (covered.insert (Bool.eq_false_iff.mpr other)) missing
    refine ⟨visited, (Finset.subset_insert z seen).trans grown, fun x mem => ?_, closed⟩
    rcases List.mem_cons.mp mem with same | later
    · cases same
      exact grown (Finset.mem_insert_self _ seen)
    · exact reached x (List.mem_append_right _ later)

/-- A closed set holds all that its members reach. -/
theorem Covered.reaches (covered : Covered goal links seen []) (mem : x ∈ seen) (reaches : Reaches links x y) :
    y ∈ seen := by
  induction reaches with
  | refl => exact mem
  | tail _ link ih => exact ((covered _ ih).2 _ link).resolve_right List.not_mem_nil

/-- **A search is reachability**: it finds nothing exactly if nothing that can
be reached meets the goal. -/
theorem search_eq_none_iff [Fintype α] [DecidableEq α] :
    search goal links ∅ [some x] = none ↔ ∀ y, Reaches links x y → goal y = false := by
  constructor
  · intro missing y reaches
    obtain ⟨visited, _, reached, closed⟩ :=
      search_closed (fun z mem => absurd mem (Finset.notMem_empty z)) missing
    exact (closed y (closed.reaches (reached x List.mem_cons_self) reaches)).1
  · intro misses
    cases found : search goal links ∅ [some x] with
    | none => rfl
    | some y =>
      obtain ⟨meets, z, mem, reaches⟩ := search_found found
      cases List.mem_singleton.mp mem
      rw [misses y reaches] at meets
      cases meets

/-- From a vertex that is no goal and leads to one other, the search goes on
from there. -/
theorem search_through [Fintype α] [DecidableEq α] (other : goal x = false) (only : ∀ z, Link links x z ↔ z = y) :
    search goal links ∅ [some x] = none ↔ search goal links ∅ [some y] = none := by
  rw [search_eq_none_iff, search_eq_none_iff]
  constructor
  · intro misses z reaches
    exact misses z (.head ((only y).mpr rfl) reaches)
  · intro misses z reaches
    rcases reaches.cases_head with rfl | ⟨next, link, reaches⟩
    · exact other
    · cases (only next).mp link
      exact misses z reaches

/-! ## Renamed vertices -/

variable {goal' : β → Bool} {links' : β → List (Option β)} {rename : α → β}

/-- From a renamed vertex nothing but renamed ones is reached. -/
theorem reaches_renamed (same : ∀ x, links' (rename x) = (links x).map (Option.map rename)) {z : β} :
    Reaches links' (rename x) z ↔ ∃ y, z = rename y ∧ Reaches links x y := by
  constructor
  · intro reaches
    induction reaches with
    | refl => exact ⟨x, rfl, .refl⟩
    | tail _ link ih =>
      obtain ⟨y, rfl, reaches⟩ := ih
      rw [Link, same, List.mem_map] at link
      obtain ⟨next, mem, made⟩ := link
      obtain ⟨y', rfl, rfl⟩ := Option.map_eq_some_iff.mp made
      exact ⟨y', rfl, reaches.tail mem⟩
  · rintro ⟨y, rfl, reaches⟩
    induction reaches with
    | refl => exact .refl
    | tail _ link ih =>
      refine ih.tail ?_
      rw [Link, same]
      exact List.mem_map_of_mem link

/-- Renaming the vertices does not change whether the search finds one. -/
theorem search_renamed [Fintype α] [DecidableEq α] [Fintype β] [DecidableEq β]
    (same : ∀ x, links' (rename x) = (links x).map (Option.map rename))
    (goals : ∀ x, goal' (rename x) = goal x) :
    search goal' links' ∅ [some (rename x)] = none ↔ search goal links ∅ [some x] = none := by
  rw [search_eq_none_iff, search_eq_none_iff]
  constructor
  · intro misses y reaches
    rw [← goals y]
    exact misses (rename y) ((reaches_renamed same).mpr ⟨y, rfl, reaches⟩)
  · intro misses z away
    obtain ⟨y, rfl, reaches⟩ := (reaches_renamed same).mp away
    rw [goals y]
    exact misses y reaches

end Worklist
