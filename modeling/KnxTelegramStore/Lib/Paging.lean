import Mathlib.Data.List.Nodup
import Mathlib.Data.List.Perm.Basic
import Mathlib.Order.Lattice

/-!
Rows that are sorted by a key, and the pages cut out of them. A sort leaves
open how rows of equal key are arranged, and two sorts of the same rows may
settle that differently (`Arranges`). Pages that are each cut from a sort of
their own tile the rows exactly when no page boundary separates two rows of
equal key (`walk_tiles_iff`).
-/
namespace Paging

variable {ρ κ : Type*} [LinearOrder κ] {key : ρ → κ} {descending : Bool}
variable {rows arranged arranged' : List ρ} {limit m total : ℕ}

/-- The requested direction. -/
def Before (descending : Bool) (a b : κ) : Prop := if descending then b ≤ a else a ≤ b

instance : DecidableRel (Before (κ := κ) descending) := fun a b =>
  inferInstanceAs (Decidable (if descending then b ≤ a else a ≤ b))

theorem before_total (descending : Bool) (a b : κ) : Before descending a b ∨ Before descending b a := by
  cases descending
  · exact le_total a b
  · exact le_total b a

theorem before_trans {a b c : κ} (ab : Before descending a b) (bc : Before descending b c) :
    Before descending a c := by
  cases descending
  · exact le_trans (α := κ) ab bc
  · exact le_trans (α := κ) bc ab

theorem before_antisymm (descending : Bool) {a b : κ} (ab : Before descending a b)
    (ba : Before descending b a) : a = b := by
  cases descending
  · exact le_antisymm (α := κ) ab ba
  · exact le_antisymm (α := κ) ba ab

/-- One of the orders in which `ORDER BY` may return the rows. -/
structure Arranges (key : ρ → κ) (descending : Bool) (rows arranged : List ρ) : Prop where
  perm : arranged.Perm rows
  sorted : arranged.Pairwise fun a b => Before descending (key a) (key b)

/-- The order a stable sort returns the rows in. -/
def arrange (key : ρ → κ) (descending : Bool) (rows : List ρ) : List ρ :=
  rows.mergeSort fun a b => decide (Before descending (key a) (key b))

theorem arranges_arrange (key : ρ → κ) (descending : Bool) (rows : List ρ) :
    Arranges key descending rows (arrange key descending rows) := by
  refine ⟨List.mergeSort_perm rows _, ?_⟩
  have sorted : (arrange key descending rows).Pairwise _ := List.pairwise_mergeSort
    (fun a b c ab bc => by
      rw [decide_eq_true_eq] at ab bc ⊢
      exact before_trans ab bc)
    (fun a b => by simpa using before_total descending (key a) (key b)) rows
  exact sorted.imp fun before => by simpa using before

/-- Rows in order are left as they are. -/
theorem arrange_sorted (sorted : rows.Pairwise fun a b => Before descending (key a) (key b)) :
    arrange key descending rows = rows :=
  List.mergeSort_of_pairwise (sorted.imp fun before => decide_eq_true before)

/-- `OFFSET offset LIMIT limit`. -/
def slice (offset limit : ℕ) (rows : List ρ) : List ρ := (rows.drop offset).take limit

theorem take_slice (offset limit : ℕ) (rows : List ρ) :
    rows.take offset ++ slice offset limit rows = rows.take (offset + limit) :=
  List.take_add.symm

theorem slice_drop (offset limit : ℕ) (rows : List ρ) :
    slice offset limit rows ++ rows.drop (offset + limit) = rows.drop offset := by
  rw [slice, ← List.drop_drop, List.take_append_drop]

theorem length_slice (offset limit : ℕ) (rows : List ρ) :
    (slice offset limit rows).length = min limit (rows.length - offset) := by
  simp [slice]

/-- Whatever the order of equal rows, the keys come in one order. -/
theorem Arranges.keys (one : Arranges key descending rows arranged)
    (other : Arranges key descending rows arranged') : arranged.map key = arranged'.map key := by
  have perm : (arranged.map key).Perm (arranged'.map key) := (one.perm.trans other.perm.symm).map key
  have sorted : ∀ {arranged : List ρ}, Arranges key descending rows arranged →
      (arranged.map key).Pairwise (Before descending) := fun arranges => List.pairwise_map.mpr arranges.sorted
  exact perm.eq_of_pairwise (fun _ _ _ _ ab ba => before_antisymm descending ab ba) (sorted one) (sorted other)

/-- Rows that are sorted by both of two keys have them in one order. -/
theorem Arranges.agree {κ' : Type*} [LinearOrder κ'] (key' : ρ → κ') (one : Arranges key descending rows arranged)
    (other : arranged.Pairwise fun a b => Before descending (key' a) (key' b)) {a b : ρ} (mem : a ∈ rows)
    (mem' : b ∈ rows) (less : key a < key b) : key' a ≤ key' b := by
  have both := one.sorted.and other
  have forward : arranged.Pairwise fun a b => key a < key b → key' a ≤ key' b := both.imp fun sorted less => by
    cases descending
    · exact sorted.2
    · exact absurd sorted.1 (not_le.mpr less)
  have backward : arranged.Pairwise fun a b => key b < key a → key' b ≤ key' a := both.imp fun sorted less => by
    cases descending
    · exact absurd sorted.1 (not_le.mpr less)
    · exact sorted.2
  exact List.Pairwise.forall_of_forall_of_flip (fun _ _ same => absurd same (lt_irrefl _)) forward backward
    (one.perm.mem_iff.mpr mem) (one.perm.mem_iff.mpr mem') less

/-- No key is on both sides of position `m`. -/
def Cut (keys : List κ) (m : ℕ) : Prop := ∀ k ∈ keys.take m, k ∉ keys.drop m

/-- Where no key is cut in two, every sort has the same rows before it. -/
theorem Arranges.take (one : Arranges key descending rows arranged)
    (other : Arranges key descending rows arranged') (cut : Cut (arranged.map key) m) :
    (arranged.take m).Perm (arranged'.take m) := by
  have selected : ∀ {arranged : List ρ}, Cut (arranged.map key) m →
      arranged.filter (fun row => decide (key row ∈ (arranged.map key).take m)) = arranged.take m := by
    intro arranged cut
    have parts := List.take_append_drop m arranged
    have inside : (arranged.take m).filter (fun row => decide (key row ∈ (arranged.map key).take m)) =
        arranged.take m := by
      refine List.filter_eq_self.mpr fun row mem => ?_
      rw [← List.map_take]
      exact decide_eq_true (List.mem_map_of_mem mem)
    have outside : (arranged.drop m).filter (fun row => decide (key row ∈ (arranged.map key).take m)) = [] := by
      refine List.filter_eq_nil_iff.mpr fun row mem selected => ?_
      refine cut (key row) (of_decide_eq_true selected) ?_
      rw [← List.map_drop]
      exact List.mem_map_of_mem mem
    conv_lhs => rw [← parts, List.filter_append, parts, inside, outside, List.append_nil]
  have same := one.keys other
  rw [← selected cut, ← selected (same ▸ cut), ← same]
  exact (one.perm.trans other.perm.symm).filter _

/-- Two rows of equal key sit on either side of position `m`. -/
def Straddles (keys : List κ) (m : ℕ) : Prop :=
  ∃ k, keys[m - 1]? = some k ∧ keys[m]? = some k

theorem cut_of_not_straddles {keys : List κ} (sorted : keys.Pairwise (Before descending)) (positive : 0 < m)
    (apart : ¬ Straddles keys m) : Cut keys m := by
  intro k before after
  obtain ⟨i, low, found⟩ := List.mem_take_iff_getElem.mp before
  obtain ⟨j, high, found'⟩ := List.mem_iff_getElem.mp after
  rw [List.length_drop] at high
  rw [List.getElem_drop] at found'
  have ordered := List.pairwise_iff_getElem.mp sorted
  have weak {i j : ℕ} (hi : i < keys.length) (hj : j < keys.length) (le : i ≤ j) :
      Before descending keys[i] keys[j] := by
    rcases Nat.lt_or_eq_of_le le with lt | rfl
    · exact ordered i j hi hj lt
    · rcases before_total descending keys[i] keys[i] with same | same <;> exact same
  -- everything between two equal keys equals them
  have inside : m - 1 < keys.length := by omega
  have inside' : m < keys.length := by omega
  have last : keys[m - 1] = k :=
    before_antisymm descending
      (by simpa only [found'] using weak (i := m - 1) (j := m + j) (by omega) (by omega) (by omega))
      (by simpa only [found] using weak (i := i) (j := m - 1) (by omega) (by omega) (by omega))
  have first : keys[m] = k :=
    before_antisymm descending
      (by simpa only [found'] using weak (i := m) (j := m + j) (by omega) (by omega) (by omega))
      (by simpa only [found] using weak (i := i) (j := m) (by omega) (by omega) (by omega))
  exact apart ⟨k, by rw [List.getElem?_eq_getElem (by omega), last],
    by rw [List.getElem?_eq_getElem (by omega), first]⟩

/-- Sorting a page once more gives a page of another sort of the rows. -/
theorem Arranges.resort {offset : ℕ} {page : List ρ} (whole : Arranges key descending rows arranged)
    (again : Arranges key descending (slice offset limit arranged) page) :
    ∃ arranged', Arranges key descending rows arranged' ∧ slice offset limit arranged' = page := by
  have length : page.length = (slice offset limit arranged).length := again.perm.length_eq
  refine ⟨arranged.take offset ++ (page ++ arranged.drop (offset + limit)), ⟨?_, ?_⟩, ?_⟩
  · have perm := (again.perm.append_right (arranged.drop (offset + limit))).append_left (arranged.take offset)
    rw [slice_drop, List.take_append_drop] at perm
    exact perm.trans whole.perm
  · have sorted := whole.sorted
    rw [← List.take_append_drop offset arranged, ← slice_drop offset limit arranged] at sorted
    simp only [List.pairwise_append, List.mem_append] at sorted ⊢
    obtain ⟨first, ⟨_, last, across⟩, before⟩ := sorted
    refine ⟨first, ⟨again.sorted, last, fun a mem b rest => across a (again.perm.mem_iff.mp mem) b rest⟩,
      fun a mem b rest => before a mem b (rest.imp_left again.perm.mem_iff.mp)⟩
  · by_cases inside : offset ≤ arranged.length
    · have prefix_ : (arranged.take offset).length = offset := by
        rw [List.length_take]
        omega
      rw [slice, List.drop_append, prefix_, List.drop_eq_nil_of_le (by omega), Nat.sub_self, List.drop_zero,
        List.nil_append, List.take_append]
      rw [length_slice] at length
      by_cases full : limit ≤ arranged.length - offset
      · have exact_ : page.length = limit := by omega
        rw [exact_, Nat.sub_self, List.take_zero, List.append_nil, ← exact_, List.take_length]
      · rw [List.drop_eq_nil_of_le (by omega), List.take_nil, List.append_nil,
          List.take_of_length_le (by omega)]
    · have empty : page = [] := by
        refine List.eq_nil_of_length_eq_zero ?_
        rw [length, length_slice]
        omega
      rw [empty, slice, List.drop_eq_nil_of_le, List.take_nil]
      simp only [List.nil_append, List.length_append, List.length_take, List.length_drop]
      omega

/-- A sort of an image is the image of a sort. -/
theorem Arranges.of_map {ρ' : Type*} {f : ρ' → ρ} {rows : List ρ'}
    (image : Arranges key descending (rows.map f) arranged) :
    ∃ arranged', Arranges (key ∘ f) descending rows arranged' ∧ arranged'.map f = arranged := by
  have lift : ∀ {xs ys : List ρ}, xs.Perm ys → ∀ zs : List ρ', zs.map f = ys →
      ∃ zs' : List ρ', zs'.Perm zs ∧ zs'.map f = xs := by
    intro xs ys perm
    induction perm with
    | nil => exact fun zs same => ⟨zs, .refl _, same⟩
    | cons x _ ih =>
      intro zs same
      obtain ⟨z, rest, rfl, rfl, tail⟩ := List.map_eq_cons_iff.mp same
      obtain ⟨rest', perm, image⟩ := ih rest tail
      exact ⟨z :: rest', perm.cons z, by rw [List.map_cons, image]⟩
    | swap x y l =>
      intro zs same
      obtain ⟨z, rest, rfl, rfl, tail⟩ := List.map_eq_cons_iff.mp same
      obtain ⟨z', rest', rfl, rfl, image⟩ := List.map_eq_cons_iff.mp tail
      exact ⟨z' :: z :: rest', .swap _ _ _, by rw [List.map_cons, List.map_cons, image]⟩
    | trans _ _ ih ih' =>
      intro zs same
      obtain ⟨middle, perm, same⟩ := ih' zs same
      obtain ⟨zs', perm', same⟩ := ih middle same
      exact ⟨zs', perm'.trans perm, same⟩
  obtain ⟨arranged', perm, same⟩ := lift image.perm rows rfl
  refine ⟨arranged', ⟨perm, ?_⟩, same⟩
  have sorted := image.sorted
  rw [← same, List.pairwise_map] at sorted
  exact sorted

theorem Arranges.map {ρ' : Type*} {f : ρ' → ρ} {rows arranged : List ρ'}
    (arranges : Arranges (key ∘ f) descending rows arranged) :
    Arranges key descending (rows.map f) (arranged.map f) :=
  ⟨arranges.perm.map f, List.pairwise_map.mpr arranges.sorted⟩

theorem slice_map {ρ' : Type*} (f : ρ' → ρ) (offset limit : ℕ) (rows : List ρ') :
    slice offset limit (rows.map f) = (slice offset limit rows).map f := by
  simp [slice]

/-! ## Walking the pages -/

/-- The pages from `offset` on, until one ends the `total` rows; `page` is
what the page at an offset returns. -/
def walk (total limit : ℕ) (positive : 0 < limit) (page : ℕ → List ρ) (offset : ℕ) : List ρ :=
  page offset ++
    if offset + limit < total then walk total limit positive page (offset + limit) else []
termination_by total - offset

theorem walk_perm (positive : 0 < limit) {page page' : ℕ → List ρ} (each : ∀ offset, (page offset).Perm (page' offset))
    (offset : ℕ) : (walk total limit positive page offset).Perm (walk total limit positive page' offset) := by
  rw [walk.eq_def total limit positive page, walk.eq_def total limit positive page']
  refine (each offset).append ?_
  split
  · exact walk_perm positive each (offset + limit)
  · exact .refl _
termination_by total - offset

/-- Pages cut from sorts that agree at every boundary tile the rows. -/
theorem walk_tiles (positive : 0 < limit) {sorts : ℕ → List ρ}
    (each : ∀ offset, Arranges key descending rows (sorts offset))
    (whole : Arranges key descending rows arranged)
    (cuts : ∀ m, limit ∣ m → 0 < m → m < rows.length → Cut (arranged.map key) m) (offset : ℕ)
    (aligned : limit ∣ offset) :
    (walk rows.length limit positive (fun offset => slice offset limit (sorts offset)) offset).Perm
      (arranged.drop offset) := by
  have size {arranged : List ρ} (arranges : Arranges key descending rows arranged) :
      arranged.length = rows.length := arranges.perm.length_eq
  have agree (m : ℕ) (multiple : limit ∣ m) {arranged' : List ρ}
      (other : Arranges key descending rows arranged') : (arranged'.take m).Perm (arranged.take m) := by
    by_cases zero : m = 0
    · simp [zero]
    · by_cases beyond : rows.length ≤ m
      · rw [List.take_of_length_le (by rw [size other]; exact beyond),
          List.take_of_length_le (by rw [size whole]; exact beyond)]
        exact other.perm.trans whole.perm.symm
      · exact (whole.take other (cuts m multiple (by omega) (by omega))).symm
  have next : limit ∣ offset + limit := Nat.dvd_add aligned (Nat.dvd_refl limit)
  have page : (slice offset limit (sorts offset)).Perm (slice offset limit arranged) := by
    have upto := agree (offset + limit) next (each offset)
    rw [← take_slice, ← take_slice] at upto
    exact (List.perm_append_left_iff _).mp (((agree offset aligned (each offset)).symm.append_right _).trans upto)
  rw [walk, ← slice_drop offset limit arranged]
  split
  · exact page.append (walk_tiles positive each whole cuts (offset + limit) next)
  · rename_i last
    have empty : arranged.drop (offset + limit) = [] :=
      List.drop_eq_nil_of_le (by rw [size whole]; omega)
    rw [empty]
    exact page.append_right []
termination_by rows.length - offset

section
variable {front back : List ρ} {a b : ρ}

/-- Two neighbours of equal key may as well come the other way round. -/
private theorem exchanged (whole : Arranges key descending rows (front ++ a :: b :: back))
    (equal : key a = key b) : Arranges key descending rows (front ++ b :: a :: back) := by
  refine ⟨((List.Perm.swap a b back).append_left front).trans whole.perm, ?_⟩
  have sorted := whole.sorted
  rw [List.pairwise_append] at sorted ⊢
  obtain ⟨first, rest, across⟩ := sorted
  simp only [List.pairwise_cons, List.mem_cons, forall_eq_or_imp] at rest across ⊢
  obtain ⟨⟨_, a_back⟩, b_back, last⟩ := rest
  refine ⟨first, ⟨⟨?_, b_back⟩, a_back, last⟩, fun row mem => ?_⟩
  · rw [equal]
    rcases before_total descending (key b) (key b) with same | same <;> exact same
  · obtain ⟨to_a, to_b, to_back⟩ := across row mem
    exact ⟨to_b, to_a, to_back⟩

/-- The page that begins with the second of two equal rows may begin with the
first one instead: then no page has the second. -/
private theorem skipped (positive : 0 < limit) (distinct : (front ++ a :: b :: back).Nodup)
    (aligned : limit ∣ front.length + 1) (total offset : ℕ) (multiple : limit ∣ offset) :
    b ∉ walk total limit positive (fun offset => slice offset limit
      (if offset = front.length + 1 then front ++ b :: a :: back else front ++ a :: b :: back)) offset := by
  have page : b ∉ slice offset limit
      (if offset = front.length + 1 then front ++ b :: a :: back else front ++ a :: b :: back) := by
    intro mem
    by_cases here : offset = front.length + 1
    · rw [if_pos here, slice, here, List.drop_append, List.drop_eq_nil_of_le (by omega)] at mem
      have rest := List.mem_of_mem_take mem
      simp only [Nat.add_sub_cancel_left, List.drop_succ_cons, List.drop_zero, List.nil_append] at rest
      simp only [List.nodup_append, List.nodup_cons, List.mem_cons, not_or] at distinct
      rcases List.mem_cons.mp rest with same | later
      · exact distinct.2.1.1.1 same.symm
      · exact distinct.2.1.2.1 later
    · rw [if_neg here] at mem
      obtain ⟨i, low, found⟩ := List.mem_take_iff_getElem.mp mem
      rw [List.length_drop] at low
      rw [List.getElem_drop] at found
      have inside : front.length + 1 < (front ++ a :: b :: back).length := by simp
      have position : (front ++ a :: b :: back)[front.length + 1] = b := by
        simp [List.getElem_append_right]
      have same := (List.Nodup.getElem_inj_iff distinct).mp (found.trans position.symm)
      have short : limit ∣ i := (Nat.dvd_add_right multiple).mp (same ▸ aligned)
      have zero := Nat.eq_zero_of_dvd_of_lt short (by omega)
      exact here (by omega)
  rw [walk, List.mem_append, not_or]
  refine ⟨page, ?_⟩
  split
  · exact skipped positive distinct aligned total (offset + limit) (Nat.dvd_add multiple (Nat.dvd_refl limit))
  · exact List.not_mem_nil
termination_by total - offset

end

/-- **Pages tile** the rows, whatever order each of them sorts equal keys in,
exactly when no page boundary falls between two rows of equal key. -/
theorem walk_tiles_iff (positive : 0 < limit) (distinct : rows.Nodup) :
    (∀ sorts : ℕ → List ρ, (∀ offset, Arranges key descending rows (sorts offset)) →
        (walk rows.length limit positive (fun offset => slice offset limit (sorts offset)) 0).Perm rows) ↔
      ∀ m, limit ∣ m → 0 < m → ¬ Straddles ((arrange key descending rows).map key) m := by
  have whole := arranges_arrange key descending rows
  have sorted : ((arrange key descending rows).map key).Pairwise (Before descending) :=
    List.pairwise_map.mpr whole.sorted
  constructor
  · rintro tiles m multiple nonzero ⟨k, before, after⟩
    generalize arrange key descending rows = arranged at whole before after
    rw [List.getElem?_map, Option.map_eq_some_iff] at before after
    obtain ⟨a, at_a, key_a⟩ := before
    obtain ⟨b, at_b, key_b⟩ := after
    obtain ⟨high, found⟩ := List.getElem?_eq_some_iff.mp at_b
    obtain ⟨_, found'⟩ := List.getElem?_eq_some_iff.mp at_a
    have split : arranged = arranged.take (m - 1) ++ a :: b :: arranged.drop (m + 1) := by
      have rest : arranged.drop m = b :: arranged.drop (m + 1) := by
        rw [← found, List.getElem_cons_drop]
      have both : arranged.drop (m - 1) = a :: b :: arranged.drop (m + 1) := by
        rw [← rest, ← found', ← List.getElem_cons_drop (by omega : m - 1 < arranged.length)]
        congr 2
        omega
      rw [← both, List.take_append_drop]
    have place : (arranged.take (m - 1)).length + 1 = m := by
      rw [List.length_take]
      omega
    rw [split] at whole
    have other := exchanged whole (key_a.trans key_b.symm)
    have walked := tiles (fun offset => if offset = (arranged.take (m - 1)).length + 1 then
        arranged.take (m - 1) ++ b :: a :: arranged.drop (m + 1)
      else arranged.take (m - 1) ++ a :: b :: arranged.drop (m + 1)) fun offset => by
        split
        · exact other
        · exact whole
    have missing := skipped (a := a) (b := b) positive (whole.perm.nodup_iff.mpr distinct)
      (place.symm ▸ multiple) rows.length 0 (Nat.dvd_zero limit)
    exact missing (walked.mem_iff.mpr (whole.perm.mem_iff.mp (by simp)))
  · intro apart sorts each
    have cuts : ∀ m, limit ∣ m → 0 < m → m < rows.length → Cut ((arrange key descending rows).map key) m :=
      fun m multiple nonzero _ => cut_of_not_straddles sorted nonzero (apart m multiple nonzero)
    exact (walk_tiles positive each whole cuts 0 (Nat.dvd_zero limit)).trans whole.perm

end Paging
