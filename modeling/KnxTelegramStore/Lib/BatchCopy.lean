import Mathlib.Data.List.Flatten
import Mathlib.Data.List.Perm.Basic
import Mathlib.Data.PNat.Basic

/-!
Copying batches of elements under keys that are to be new. Each batch leaves
out what has a key that is known, or that an earlier batch has brought. So a
key arrives with the first batch that has it, and arrives whole exactly if no
later batch has it too (`copied_eq_filter`, `filter_copied_lt`).
-/
namespace BatchCopy

variable {α κ : Type*} [DecidableEq κ] {key : α → κ} {known : List κ} {batches : List (List α)} {k : κ} {x : α}
variable {xs : List α}

/-- What arrives. -/
def copied (key : α → κ) : List κ → List (List α) → List α
  | _, [] => []
  | known, batch :: batches =>
    let new := batch.filter (key · ∉ known)
    new ++ copied key (known ++ new.map key) batches

/-- At most one batch has the key. -/
def Apart (key : α → κ) (k : κ) (batches : List (List α)) : Prop :=
  batches.Pairwise fun batch later => (∃ x ∈ batch, key x = k) → ∀ y ∈ later, key y ≠ k

theorem copied_sublist : (copied key known batches).Sublist batches.flatten := by
  induction batches generalizing known with
  | nil => exact List.Sublist.refl _
  | cons batch batches ih =>
    rw [List.flatten_cons]
    exact List.filter_sublist.append ih

theorem key_not_known (mem : x ∈ copied key known batches) : key x ∉ known := by
  induction batches generalizing known with
  | nil => cases mem
  | cons batch batches ih =>
    rcases List.mem_append.mp mem with own | later
    · exact of_decide_eq_true (List.mem_filter.mp own).2
    · exact fun before => ih later (List.mem_append_left _ before)

/-- No key is left out. -/
theorem exists_copied (known : List κ) (mem : x ∈ batches.flatten) : key x ∈ known ∨
    ∃ y ∈ copied key known batches, key y = key x := by
  induction batches generalizing known with
  | nil => cases mem
  | cons batch batches ih =>
    by_cases before : key x ∈ known
    · exact .inl before
    right
    rw [List.flatten_cons, List.mem_append] at mem
    rcases mem with own | later
    · exact ⟨x, List.mem_append_left _ (List.mem_filter.mpr ⟨own, decide_eq_true before⟩), rfl⟩
    · rcases ih (known ++ (batch.filter (key · ∉ known)).map key) later with brought | ⟨y, mem, same⟩
      · rcases List.mem_append.mp brought with old | new
        · exact absurd old before
        · obtain ⟨y, mem, same⟩ := List.mem_map.mp new
          exact ⟨y, List.mem_append_left _ mem, same⟩
      · exact ⟨y, List.mem_append_right _ mem, same⟩

theorem filter_copied_known (brought : k ∈ known) : (copied key known batches).filter (key · = k) = [] := by
  refine List.filter_eq_nil_iff.mpr fun x mem same => ?_
  rw [← of_decide_eq_true same] at brought
  exact key_not_known mem brought

theorem filter_new (fresh : k ∉ known) (batch : List α) :
    (batch.filter (key · ∉ known)).filter (key · = k) = batch.filter (key · = k) := by
  rw [List.filter_filter]
  refine List.filter_congr fun x _ => ?_
  by_cases same : key x = k
  · simp only [same, fresh, not_false_eq_true, decide_true, Bool.and_self]
  · simp only [same, decide_false, Bool.false_and]

/-- A batch without the key does not bring it. -/
theorem fresh_behind (fresh : k ∉ known) {batch : List α} (without : ∀ x ∈ batch, key x ≠ k) :
    k ∉ known ++ (batch.filter (key · ∉ known)).map key := by
  rintro mem
  rcases List.mem_append.mp mem with old | new
  · exact fresh old
  · obtain ⟨x, own, same⟩ := List.mem_map.mp new
    exact without x (List.mem_of_mem_filter own) same

theorem brought_by (fresh : k ∉ known) {batch : List α} (own : ∃ x ∈ batch, key x = k) :
    k ∈ known ++ (batch.filter (key · ∉ known)).map key := by
  obtain ⟨x, mem, rfl⟩ := own
  exact List.mem_append_right _ (List.mem_map_of_mem (List.mem_filter.mpr ⟨mem, decide_eq_true fresh⟩))

/-- What has a new key arrives, if no two batches share one. -/
theorem copied_eq_filter (apart : ∀ k, k ∉ known → Apart key k batches) :
    copied key known batches = batches.flatten.filter (key · ∉ known) := by
  induction batches generalizing known with
  | nil => rfl
  | cons batch batches ih =>
    have rest : ∀ k, k ∉ known ++ (batch.filter (key · ∉ known)).map key → Apart key k batches := fun k fresh =>
      (List.pairwise_cons.mp (apart k fun old => fresh (List.mem_append_left _ old))).2
    rw [copied, List.flatten_cons, List.filter_append, ih rest]
    congr 1
    refine List.filter_congr fun y mem => decide_eq_decide.mpr ?_
    obtain ⟨other, held, mem⟩ := List.mem_flatten.mp mem
    constructor
    · exact fun fresh old => fresh (List.mem_append_left _ old)
    · refine fun fresh => fresh_behind fresh fun x own same => ?_
      exact (List.pairwise_cons.mp (apart (key y) fresh)).1 other held ⟨x, own, same⟩ y mem rfl

/-- A key of two batches does not arrive whole. -/
theorem filter_copied_lt (fresh : k ∉ known) (shared : ¬ Apart key k batches) :
    ((copied key known batches).filter (key · = k)).length < (batches.flatten.filter (key · = k)).length := by
  induction batches generalizing known with
  | nil => exact absurd List.Pairwise.nil shared
  | cons batch batches ih =>
    rw [copied, List.flatten_cons, List.filter_append, List.filter_append, filter_new fresh, List.length_append,
      List.length_append]
    by_cases own : ∃ x ∈ batch, key x = k
    · rw [filter_copied_known (brought_by fresh own), List.length_nil]
      have again : ∃ y ∈ batches.flatten, key y = k := by
        by_contra absent
        have without : ∀ other ∈ batches, ∀ y ∈ other, key y ≠ k := fun other held y mem same =>
          absent ⟨y, List.mem_flatten.mpr ⟨other, held, mem⟩, same⟩
        refine shared (List.pairwise_cons.mpr ⟨fun other held _ => without other held, ?_⟩)
        exact List.pairwise_of_forall_mem_list fun a _ b held _ => without b held
      obtain ⟨y, mem, same⟩ := again
      have positive : 0 < (batches.flatten.filter (key · = k)).length :=
        List.length_pos_of_mem (List.mem_filter.mpr ⟨mem, decide_eq_true same⟩)
      omega
    · have without : ∀ x ∈ batch, key x ≠ k := fun x mem same => own ⟨x, mem, same⟩
      have rest : ¬ Apart key k batches := fun apart =>
        shared (List.pairwise_cons.mpr ⟨fun _ _ here => absurd here own, apart⟩)
      have fewer := ih (fresh_behind fresh without) rest
      omega

omit [DecidableEq κ] in
/-- Order within a batch does not matter. -/
theorem apart_of_perm {batches' : List (List α)} (same : List.Forall₂ List.Perm batches batches')
    (apart : Apart key k batches) : Apart key k batches' := by
  induction same with
  | nil => exact List.Pairwise.nil
  | cons first rest ih =>
    obtain ⟨later, others⟩ := List.pairwise_cons.mp apart
    refine List.pairwise_cons.mpr ⟨fun other held here y mem => ?_, ih others⟩
    obtain ⟨x, own, same⟩ := here
    obtain ⟨i, inside, rfl⟩ := List.mem_iff_getElem.mp held
    have inside' := rest.length_eq ▸ inside
    exact later _ (List.getElem_mem inside') ⟨x, first.mem_iff.mpr own, same⟩ y
      ((rest.get inside' inside).mem_iff.mpr mem)

theorem flatten_perm {batches' : List (List α)} (same : List.Forall₂ List.Perm batches batches') :
    batches.flatten.Perm batches'.flatten := by
  induction same with
  | nil => exact List.Perm.refl _
  | cons first _ ih => exact first.append ih

/-! ## Batches of one size -/

/-- A list cut into batches of `size`. -/
def chunks (size : ℕ+) (xs : List α) : List (List α) :=
  match xs with
  | [] => []
  | x :: xs => (x :: xs).take size :: chunks size ((x :: xs).drop size)
termination_by xs.length
decreasing_by
  have positive := size.pos
  simp only [List.length_drop, List.length_cons]
  omega

theorem chunks_nil (size : ℕ+) : chunks size ([] : List α) = [] := by rw [chunks]

theorem chunks_eq (size : ℕ+) {xs : List α} (nonempty : xs ≠ []) :
    chunks size xs = xs.take size :: chunks size (xs.drop size) := by
  cases xs with
  | nil => exact absurd rfl nonempty
  | cons x xs => rw [chunks]

/-- One batch less. -/
theorem chunks_induction {P : List α → Prop} (size : ℕ+) (nil : P [])
    (step : ∀ xs, xs ≠ [] → P (xs.drop size) → P xs) (xs : List α) : P xs := by
  by_cases nonempty : xs = []
  · exact nonempty ▸ nil
  · exact step xs nonempty (chunks_induction size nil step (xs.drop size))
termination_by xs.length
decreasing_by
  have positive := size.pos
  have some_ := List.length_pos_iff.mpr nonempty
  rw [List.length_drop]
  omega

theorem flatten_chunks (size : ℕ+) (xs : List α) : (chunks size xs).flatten = xs := by
  induction xs using chunks_induction size with
  | nil => rw [chunks_nil, List.flatten_nil]
  | step xs nonempty ih => rw [chunks_eq size nonempty, List.flatten_cons, ih, List.take_append_drop]

theorem map_chunks {β : Type*} (size : ℕ+) (f : α → β) (xs : List α) :
    (chunks size xs).map (List.map f) = chunks size (xs.map f) := by
  induction xs using chunks_induction size with
  | nil => rw [List.map_nil, chunks_nil, chunks_nil, List.map_nil]
  | step xs nonempty ih =>
    rw [chunks_eq size nonempty, chunks_eq size (List.map_eq_nil_iff.not.mpr nonempty), List.map_cons, ih,
      List.map_take, List.map_drop]

theorem chunks_one (xs : List α) : chunks 1 xs = xs.map ([·]) := by
  induction xs with
  | nil => exact chunks_nil 1
  | cons x xs ih =>
    rw [chunks_eq 1 (List.cons_ne_nil x xs), List.map_cons, ← ih]
    rfl

omit [DecidableEq κ] in
/-- Keys are apart as their elements are. -/
theorem apart_keys (size : ℕ+) (xs : List α) : Apart id k (chunks size (xs.map key)) ↔
    Apart key k (chunks size xs) := by
  rw [← map_chunks, Apart, Apart, List.pairwise_map]
  simp only [List.mem_map, exists_exists_and_eq_and, id, forall_exists_index, and_imp, forall_apply_eq_imp_iff₂]

/-- A key that is apart in batches of one has one element. -/
theorem alone_of_apart (apart : Apart key k (chunks 1 xs)) : (xs.filter (key · = k)).length ≤ 1 := by
  rw [chunks_one, Apart, List.pairwise_map] at apart
  by_contra several
  have distinct : (xs.filter (key · = k)).Pairwise fun _ _ => False := by
    refine (apart.sublist List.filter_sublist).imp_of_mem fun mem mem' apart => ?_
    exact apart ⟨_, List.mem_singleton_self _, of_decide_eq_true (List.mem_filter.mp mem).2⟩ _
      (List.mem_singleton_self _) (of_decide_eq_true (List.mem_filter.mp mem').2)
  match found : xs.filter (key · = k), several with
  | [], several => exact several (Nat.zero_le 1)
  | [_], several => exact several le_rfl
  | x :: y :: rest, _ =>
    rw [found] at distinct
    exact (List.pairwise_cons.mp distinct).1 y List.mem_cons_self

/-- A key of one element is apart in batches of every size. -/
theorem apart_of_alone (once : (xs.filter (key · = k)).length ≤ 1) (size : ℕ+) : Apart key k (chunks size xs) := by
  rw [← flatten_chunks size xs] at once
  generalize chunks size xs = batches at once
  induction batches with
  | nil => exact List.Pairwise.nil
  | cons batch batches ih =>
    rw [List.flatten_cons, List.filter_append, List.length_append] at once
    refine List.pairwise_cons.mpr ⟨fun later held here y mem same => ?_, ih (by omega)⟩
    obtain ⟨x, own, same'⟩ := here
    have first : 0 < (batch.filter (key · = k)).length :=
      List.length_pos_of_mem (List.mem_filter.mpr ⟨own, decide_eq_true same'⟩)
    have second : 0 < (batches.flatten.filter (key · = k)).length :=
      List.length_pos_of_mem (List.mem_filter.mpr ⟨List.mem_flatten.mpr ⟨later, held, mem⟩, decide_eq_true same⟩)
    omega

theorem eq_of_alone {y : α} (once : (xs.filter (key · = k)).length ≤ 1) (mem : x ∈ xs) (same : key x = k)
    (mem' : y ∈ xs) (same' : key y = k) : x = y := by
  have first : x ∈ xs.filter (key · = k) := List.mem_filter.mpr ⟨mem, decide_eq_true same⟩
  have second : y ∈ xs.filter (key · = k) := List.mem_filter.mpr ⟨mem', decide_eq_true same'⟩
  obtain ⟨z, found⟩ := List.length_eq_one_iff.mp (le_antisymm once (List.length_pos_of_mem first))
  rw [found, List.mem_singleton] at first second
  rw [first, second]

end BatchCopy
