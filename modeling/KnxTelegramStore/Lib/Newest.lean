import Mathlib.Data.List.Forall2
import Mathlib.Data.List.Induction
import Mathlib.Data.List.Nodup
import Mathlib.Order.Lattice

/-!
The newest element of each key. A list is absorbed element by element into
one that keeps, for every key, the element with the greatest stamp, and of
several the first. What is kept is a property of the whole list (`Wins`), so
it does not matter in which pieces the list is absorbed, or that a piece is
reduced to its own newest elements first (`absorbAll_absorbAll`).
-/
namespace Newest

variable {α β κ κ' τ τ' : Type*} [LinearOrder τ] [LinearOrder τ']
variable {key : α → κ} {stamp : α → τ} {key' : β → κ'} {stamp' : β → τ'} {R : α → β → Prop}
variable {kept xs : List α} {x y : α} {kept' zs : List β} {x' : β}

/-! ## The winners of a list -/

/-- No element before it of its key is as new, and none behind it newer. -/
def Wins (key : α → κ) (stamp : α → τ) (xs : List α) (x : α) : Prop :=
  ∃ before after, xs = before ++ x :: after ∧ (∀ y ∈ before, key y = key x → stamp y < stamp x) ∧
    ∀ y ∈ after, key y = key x → stamp y ≤ stamp x

theorem Wins.mem (wins : Wins key stamp xs x) : x ∈ xs := by
  obtain ⟨before, after, rfl, _, _⟩ := wins
  exact List.mem_append_right _ List.mem_cons_self

theorem Wins.le (wins : Wins key stamp xs x) (mem : y ∈ xs) (same : key y = key x) : stamp y ≤ stamp x := by
  obtain ⟨before, after, rfl, older, newest⟩ := wins
  rcases List.mem_append.mp mem with early | late
  · exact le_of_lt (older y early same)
  · rcases List.mem_cons.mp late with rfl | late
    · exact le_rfl
    · exact newest y late same

/-- One more element at the end. -/
theorem wins_snoc :
    Wins key stamp (xs ++ [y]) x ↔
      (Wins key stamp xs x ∧ (key y = key x → stamp y ≤ stamp x)) ∨
        (x = y ∧ ∀ z ∈ xs, key z = key y → stamp z < stamp y) := by
  constructor
  · rintro ⟨before, after, split, older, newest⟩
    rcases List.eq_nil_or_concat after with rfl | ⟨after, last, rfl⟩
    · obtain ⟨rfl, same⟩ := List.append_inj' split rfl
      cases same
      exact .inr ⟨rfl, older⟩
    · rw [List.concat_eq_append] at split newest
      rw [← List.cons_append, ← List.append_assoc] at split
      obtain ⟨rfl, same⟩ := List.append_inj' split rfl
      cases same
      exact .inl ⟨⟨before, after, rfl, older, fun z mem => newest z (List.mem_append_left _ mem)⟩,
        newest y (List.mem_append_right _ (List.mem_singleton_self _))⟩
  · rintro (⟨⟨before, after, rfl, older, newest⟩, last⟩ | ⟨rfl, older⟩)
    · refine ⟨before, after ++ [y], by simp, older, fun z mem same => ?_⟩
      rcases List.mem_append.mp mem with early | late
      · exact newest z early same
      · rw [List.mem_singleton.mp late] at same ⊢
        exact last same
    · exact ⟨xs, [], rfl, older, fun _ mem => nomatch mem⟩

/-! ## Lists that correspond -/

/-- Corresponding elements have their keys and stamps in the same relation. -/
def Agree (R : α → β → Prop) (key : α → κ) (stamp : α → τ) (key' : β → κ') (stamp' : β → τ') : Prop :=
  ∀ x x' y y', R x x' → R y y' → (key x = key y ↔ key' x' = key' y') ∧ (stamp x < stamp y ↔ stamp' x' < stamp' y')

theorem Agree.keys (agree : Agree R key stamp key' stamp') (held : List.Forall₂ R kept kept') (related : R x x') :
    key x ∈ kept.map key ↔ key' x' ∈ kept'.map key' := by
  induction held with
  | nil => exact iff_of_false List.not_mem_nil List.not_mem_nil
  | cons first _ ih =>
    rw [List.map_cons, List.map_cons, List.mem_cons, List.mem_cons, ih, (agree _ _ _ _ related first).1]

/-! ## Absorbing -/

variable [DecidableEq κ] [DecidableEq κ']

/-- The newer of two elements of one key. -/
def newer (key : α → κ) (stamp : α → τ) (x old : α) : α := if key old = key x ∧ stamp old < stamp x then x else old

/-- An element is new, or replaces an older one of its key. -/
def absorb (key : α → κ) (stamp : α → τ) (kept : List α) (x : α) : List α :=
  if key x ∈ kept.map key then kept.map (newer key stamp x) else kept ++ [x]

def absorbAll (key : α → κ) (stamp : α → τ) (kept xs : List α) : List α := xs.foldl (absorb key stamp) kept

theorem key_newer (x old : α) : key (newer key stamp x old) = key old := by
  unfold newer
  split
  · rename_i replaced
    exact replaced.1.symm
  · rfl

theorem newer_of_ne {old : α} (apart : key old ≠ key x) : newer key stamp x old = old :=
  if_neg fun both => apart both.1

theorem keys_newer (kept : List α) (x : α) : (kept.map (newer key stamp x)).map key = kept.map key := by
  rw [List.map_map]
  exact List.map_congr_left fun old _ => key_newer x old

theorem keys_absorb (kept : List α) (x : α) :
    (absorb key stamp kept x).map key = if key x ∈ kept.map key then kept.map key else kept.map key ++ [key x] := by
  unfold absorb
  split
  · exact keys_newer kept x
  · rw [List.map_append, List.map_singleton]

theorem absorb_of_mem (known : key x ∈ kept.map key) : absorb key stamp kept x = kept.map (newer key stamp x) :=
  if_pos known

theorem keys_kept {k : κ} (x : α) (known : k ∈ kept.map key) : k ∈ (absorb key stamp kept x).map key := by
  rw [keys_absorb]
  split
  · exact known
  · exact List.mem_append_left _ known

theorem mem_keys_absorb (kept : List α) (x : α) : key x ∈ (absorb key stamp kept x).map key := by
  rw [keys_absorb]
  split
  · assumption
  · exact List.mem_append_right _ (List.mem_singleton_self _)

theorem absorb_unique (unique : (kept.map key).Nodup) (x : α) : ((absorb key stamp kept x).map key).Nodup := by
  rw [keys_absorb]
  split
  · exact unique
  · rename_i fresh
    exact unique.append (List.nodup_singleton _) (List.disjoint_singleton.mpr fresh)

theorem absorbAll_unique (unique : (kept.map key).Nodup) (xs : List α) :
    ((absorbAll key stamp kept xs).map key).Nodup := by
  induction xs generalizing kept with
  | nil => exact unique
  | cons x xs ih => exact ih (absorb_unique unique x)

/-- What is kept of another key. -/
theorem find_absorb {k : κ} (kept : List α) (apart : key x ≠ k) :
    (absorb key stamp kept x).find? (key · = k) = kept.find? (key · = k) := by
  unfold absorb
  split
  · rw [List.find?_map]
    have keeps : ((fun old => decide (key old = k)) ∘ newer key stamp x) = fun old => decide (key old = k) :=
      funext fun old => congrArg (fun own => decide (own = k)) (key_newer x old)
    rw [keeps]
    cases found : kept.find? (key · = k) with
    | none => rfl
    | some old =>
      have own : key old = k := by simpa using List.find?_some found
      exact congrArg some (newer_of_ne fun same => apart (same.symm.trans own))
  · rw [List.find?_append, List.find?_singleton]
    simp [apart]

theorem find_absorbAll {k : κ} (kept : List α) (apart : ∀ x ∈ xs, key x ≠ k) :
    (absorbAll key stamp kept xs).find? (key · = k) = kept.find? (key · = k) := by
  induction xs generalizing kept with
  | nil => rfl
  | cons x xs ih =>
    exact (ih _ fun y mem => apart y (List.mem_cons_of_mem _ mem)).trans (find_absorb kept (apart x List.mem_cons_self))

/-- A dictionary that looks the key up before it assigns absorbs. -/
theorem assign_eq {assigned : Option (List α)} (unique : (kept.map key).Nodup)
    (fresh : kept.find? (key · = key x) = none → assigned = some (kept ++ [x]))
    (known : ∀ current ∈ kept, key current = key x → kept.find? (key · = key x) = some current →
      assigned = some (if stamp current < stamp x then kept.map fun old => if key old = key x then x else old
        else kept)) :
    assigned = some (absorb key stamp kept x) := by
  cases found : kept.find? (key · = key x) with
  | none =>
    refine (fresh found).trans (congrArg some (if_neg fun mem => ?_).symm)
    obtain ⟨old, held, same⟩ := List.mem_map.mp mem
    simpa [same] using List.find?_eq_none.mp found old held
  | some current =>
    have held := List.mem_of_find?_eq_some found
    have same : key current = key x := by simpa using List.find?_some found
    have only : ∀ old ∈ kept, key old = key x → old = current := fun old mem own =>
      List.inj_on_of_nodup_map unique mem held (own.trans same.symm)
    rw [absorb_of_mem (List.mem_map.mpr ⟨current, held, same⟩), known current held same found]
    refine congrArg some ?_
    split
    · rename_i late
      refine List.map_congr_left fun old mem => ?_
      by_cases own : key old = key x
      · rw [if_pos own, only old mem own]
        exact (if_pos ⟨same, late⟩).symm
      · rw [newer_of_ne own, if_neg own]
    · rename_i early
      refine (List.map_id _).symm.trans (List.map_congr_left fun old mem => (if_neg fun both => early ?_).symm)
      rw [← only old mem both.1]
      exact both.2

theorem mem_absorb (unique : (kept.map key).Nodup) :
    y ∈ absorb key stamp kept x ↔
      (y ∈ kept ∧ (key x = key y → stamp x ≤ stamp y)) ∨
        (y = x ∧ ∀ old ∈ kept, key old = key x → stamp old < stamp x) := by
  unfold absorb
  split
  · rename_i known
    obtain ⟨current, held, same⟩ := List.mem_map.mp known
    have only : ∀ old ∈ kept, key old = key x → old = current := fun old mem own =>
      List.inj_on_of_nodup_map unique mem held (own.trans same.symm)
    rw [List.mem_map]
    constructor
    · rintro ⟨old, mem, rfl⟩
      unfold newer
      split
      · rename_i replaced
        refine .inr ⟨rfl, fun other mem' own => ?_⟩
        rw [only other mem' own, ← only old mem replaced.1]
        exact replaced.2
      · rename_i stays
        exact .inl ⟨mem, fun own => le_of_not_gt fun late => stays ⟨own.symm, late⟩⟩
    · rintro (⟨mem, early⟩ | ⟨rfl, newest⟩)
      · exact ⟨y, mem, if_neg fun both => absurd both.2 (not_lt.mpr (early both.1.symm))⟩
      · exact ⟨current, held, if_pos ⟨same, newest current held same⟩⟩
  · rename_i fresh
    have other : ∀ old ∈ kept, key old ≠ key x := fun old mem same => fresh (List.mem_map.mpr ⟨old, mem, same⟩)
    rw [List.mem_append, List.mem_singleton]
    constructor
    · rintro (mem | rfl)
      · exact .inl ⟨mem, fun same => absurd same.symm (other y mem)⟩
      · exact .inr ⟨rfl, fun old mem same => absurd same (other old mem)⟩
    · exact Or.imp And.left And.left

/-- A loop whose every turn absorbs an element. -/
theorem foldlM_absorb {turn : List α → α → Option (List α)} {P : α → Prop}
    (each : ∀ kept x, (kept.map key).Nodup → (∀ old ∈ kept, P old) → P x → turn kept x = some (absorb key stamp kept x))
    (unique : (kept.map key).Nodup) (held : ∀ old ∈ kept, P old) (all : ∀ x ∈ xs, P x) :
    xs.foldlM turn kept = some (absorbAll key stamp kept xs) := by
  induction xs generalizing kept with
  | nil => rfl
  | cons x xs ih =>
    have own := all x List.mem_cons_self
    rw [List.foldlM_cons, each kept x unique held own]
    refine ih (absorb_unique unique x) (fun old mem => ?_) fun y mem => all y (List.mem_cons_of_mem _ mem)
    rcases (mem_absorb unique).mp mem with ⟨before, _⟩ | ⟨rfl, _⟩
    · exact held old before
    · exact own

theorem absorbAll_snoc (kept xs : List α) (x : α) :
    absorbAll key stamp kept (xs ++ [x]) = absorb key stamp (absorbAll key stamp kept xs) x := by
  rw [absorbAll, List.foldl_append]
  rfl

theorem absorb_dominates (kept : List α) (mem : y ∈ kept ∨ y = x) :
    ∃ z ∈ absorb key stamp kept x, key z = key y ∧ stamp y ≤ stamp z := by
  have newest : ∀ old, stamp old ≤ stamp (newer key stamp x old) := by
    intro old
    unfold newer
    split
    · rename_i late
      exact le_of_lt late.2
    · exact le_rfl
  by_cases known : key x ∈ kept.map key
  · rw [absorb_of_mem known]
    rcases mem with old | rfl
    · exact ⟨_, List.mem_map_of_mem old, key_newer x y, newest y⟩
    · obtain ⟨old, held, same⟩ := List.mem_map.mp known
      refine ⟨_, List.mem_map_of_mem held, (key_newer y old).trans same, ?_⟩
      unfold newer
      split
      · exact le_rfl
      · rename_i early
        exact not_lt.mp fun late => early ⟨same, late⟩
  · have appended : absorb key stamp kept x = kept ++ [x] := if_neg known
    rw [appended]
    refine ⟨y, ?_, rfl, le_rfl⟩
    rcases mem with old | rfl
    · exact List.mem_append_left _ old
    · exact List.mem_append_right _ (List.mem_singleton_self _)

/-- No key is lost, and nothing is newer than what is kept of its key. -/
theorem absorbAll_dominates (kept xs : List α) :
    ∀ y ∈ kept ++ xs, ∃ x ∈ absorbAll key stamp kept xs, key x = key y ∧ stamp y ≤ stamp x := by
  induction xs generalizing kept with
  | nil => exact fun y mem => ⟨y, List.append_nil kept ▸ mem, rfl, le_rfl⟩
  | cons x xs ih =>
    have first : ∀ y, (y ∈ kept ∨ y = x) → ∃ z ∈ absorbAll key stamp kept (x :: xs), key z = key y ∧
      stamp y ≤ stamp z := by
      intro y mem
      obtain ⟨z, held, same, least⟩ : ∃ z ∈ absorb key stamp kept x, key z = key y ∧ stamp y ≤ stamp z :=
        absorb_dominates kept mem
      obtain ⟨z', held', same', least'⟩ := ih _ z (List.mem_append_left _ held)
      exact ⟨z', held', same'.trans same, le_trans least least'⟩
    intro y mem
    rcases List.mem_append.mp mem with old | new
    · exact first y (.inl old)
    · rcases List.mem_cons.mp new with rfl | later
      · exact first y (.inr rfl)
      · exact ih _ y (List.mem_append_right _ later)

/-- **What is kept after a list** was kept before and no newer element came, or
is a winner of the list that is newer than what was kept. -/
theorem mem_absorbAll (unique : (kept.map key).Nodup) (xs : List α) (x : α) :
    x ∈ absorbAll key stamp kept xs ↔
      (x ∈ kept ∧ ∀ y ∈ xs, key y = key x → stamp y ≤ stamp x) ∨
        (Wins key stamp xs x ∧ ∀ old ∈ kept, key old = key x → stamp old < stamp x) := by
  induction xs using List.reverseRecOn generalizing x with
  | nil =>
    refine ⟨fun mem => .inl ⟨mem, nofun⟩, ?_⟩
    rintro (⟨mem, _⟩ | ⟨wins, _⟩)
    · exact mem
    · cases wins.mem
  | append_singleton xs y ih =>
    -- to be newer than all that is kept of a key is to be newer than all of it
    have late : (∀ old ∈ absorbAll key stamp kept xs, key old = key y → stamp old < stamp y) ↔
        (∀ z ∈ xs, key z = key y → stamp z < stamp y) ∧ ∀ old ∈ kept, key old = key y → stamp old < stamp y := by
      have all : ∀ z ∈ kept ++ xs, (∀ old ∈ absorbAll key stamp kept xs, key old = key y → stamp old < stamp y) →
          key z = key y → stamp z < stamp y := by
        intro z mem late same
        obtain ⟨x, held, own, least⟩ : ∃ x ∈ absorbAll key stamp kept xs, key x = key z ∧ stamp z ≤ stamp x :=
          absorbAll_dominates kept xs z mem
        exact lt_of_le_of_lt least (late x held (own.trans same))
      refine ⟨fun late => ⟨fun z mem => all z (List.mem_append_right _ mem) late,
        fun old mem => all old (List.mem_append_left _ mem) late⟩, fun both old mem => ?_⟩
      rcases (ih old).mp mem with ⟨before, _⟩ | ⟨wins, _⟩
      · exact both.2 old before
      · exact both.1 old wins.mem
    rw [absorbAll_snoc, mem_absorb (absorbAll_unique unique xs), wins_snoc, ih, late]
    simp only [List.mem_append, List.mem_singleton, or_imp, forall_and, forall_eq]
    constructor
    · rintro (⟨⟨before, older⟩ | ⟨wins, newest⟩, early⟩ | ⟨rfl, older, newest⟩)
      · exact .inl ⟨before, older, early⟩
      · exact .inr ⟨.inl ⟨wins, early⟩, newest⟩
      · exact .inr ⟨.inr ⟨rfl, older⟩, newest⟩
    · rintro (⟨before, older, early⟩ | ⟨⟨wins, early⟩ | ⟨rfl, older⟩, newest⟩)
      · exact .inl ⟨.inl ⟨before, older⟩, early⟩
      · exact .inl ⟨.inr ⟨wins, newest⟩, early⟩
      · exact .inr ⟨rfl, older, newest⟩

/-- **What is kept of a list are its winners**, and every key has one. -/
theorem mem_newest (key : α → κ) (stamp : α → τ) (xs : List α) :
    (∀ x, x ∈ absorbAll key stamp [] xs ↔ Wins key stamp xs x) ∧
      ∀ y ∈ xs, ∃ x ∈ absorbAll key stamp [] xs, key x = key y := by
  refine ⟨fun x => ?_, fun y mem => ?_⟩
  · rw [mem_absorbAll (by simp)]
    simp
  · obtain ⟨x, held, same, _⟩ : ∃ x ∈ absorbAll key stamp [] xs, key x = key y ∧ stamp y ≤ stamp x :=
      absorbAll_dominates [] xs y mem
    exact ⟨x, held, same⟩

/-! ## Piece by piece -/

theorem newer_newer {old : α} (own : key old = key x) (same : key x = key y) :
    newer key stamp y (newer key stamp x old) = newer key stamp (newer key stamp y x) old := by
  by_cases late : stamp x < stamp y
  · have last : newer key stamp y x = y := if_pos ⟨same, late⟩
    rw [last]
    by_cases early : stamp old < stamp x
    · have next : newer key stamp x old = x := if_pos ⟨own, early⟩
      rw [next, last]
      exact (if_pos ⟨own.trans same, lt_trans early late⟩).symm
    · have next : newer key stamp x old = old := if_neg fun both => early both.2
      rw [next]
  · have last : newer key stamp y x = x := if_neg fun both => late both.2
    rw [last]
    by_cases early : stamp old < stamp x
    · have next : newer key stamp x old = x := if_pos ⟨own, early⟩
      rw [next, last]
    · have next : newer key stamp x old = old := if_neg fun both => early both.2
      rw [next]
      exact if_neg fun both => early (lt_of_lt_of_le both.2 (not_lt.mp late))

/-- Two elements of one key, the newer of which is enough. -/
theorem absorb_absorb (kept : List α) (same : key x = key y) :
    absorb key stamp (absorb key stamp kept x) y = absorb key stamp kept (newer key stamp y x) := by
  rw [absorb_of_mem (same ▸ mem_keys_absorb kept x)]
  have own : key (newer key stamp y x) = key x := key_newer y x
  unfold absorb
  rw [own]
  split
  · rw [List.map_map]
    refine List.map_congr_left fun old _ => ?_
    simp only [Function.comp_apply]
    by_cases own : key old = key x
    · exact newer_newer own same
    · rw [newer_of_ne own, newer_of_ne fun equal => own (equal.trans same.symm),
        newer_of_ne fun equal => own (equal.trans (key_newer y x))]
  · rename_i fresh
    rw [List.map_append, List.map_singleton]
    refine congrArg (· ++ _)
      ((List.map_congr_left fun old mem => newer_of_ne fun equal => fresh ?_).trans (List.map_id _))
    exact List.mem_map.mpr ⟨old, mem, equal.trans same.symm⟩

/-- Elements of two keys may change places if the later one is known. -/
theorem absorb_comm (known : key y ∈ kept.map key) (apart : key x ≠ key y) :
    absorb key stamp (absorb key stamp kept x) y = absorb key stamp (absorb key stamp kept y) x := by
  rw [absorb_of_mem (keys_kept x known), absorb_of_mem known]
  unfold absorb
  rw [keys_newer]
  split
  · rw [List.map_map, List.map_map]
    refine List.map_congr_left fun old _ => ?_
    simp only [Function.comp_apply]
    by_cases own : key old = key x
    · have other : key old ≠ key y := fun equal => apart (own.symm.trans equal)
      rw [newer_of_ne other, newer_of_ne fun equal => other ((key_newer x old).symm.trans equal)]
    · rw [newer_of_ne own, newer_of_ne fun equal => own ((key_newer y old).symm.trans equal)]
  · rw [List.map_append, List.map_singleton, newer_of_ne apart]

/-- An element of a known key may be absorbed ahead of others. -/
theorem absorb_past (known : key x ∈ kept.map key) (apart : key x ∉ xs.map key) :
    absorb key stamp (absorbAll key stamp kept xs) x = absorbAll key stamp (absorb key stamp kept x) xs := by
  induction xs generalizing kept with
  | nil => rfl
  | cons y xs ih =>
    have different : key y ≠ key x := fun same => apart (same ▸ List.mem_cons_self)
    have known' : key x ∈ (absorb key stamp kept y).map key := keys_kept y known
    have moved := ih known' fun mem => apart (List.mem_cons_of_mem _ mem)
    rw [absorb_comm known different] at moved
    exact moved

theorem absorb_absorbAll (unique : (xs.map key).Nodup) (kept : List α) (x : α) :
    absorb key stamp (absorbAll key stamp kept xs) x = absorbAll key stamp kept (absorb key stamp xs x) := by
  by_cases known : key x ∈ xs.map key
  · rw [absorb_of_mem known]
    induction xs generalizing kept with
    | nil => cases known
    | cons y xs ih =>
      obtain ⟨apart, unique⟩ := List.nodup_cons.mp unique
      by_cases same : key y = key x
      · have rest : xs.map (newer key stamp x) = xs := by
          refine (List.map_congr_left fun old mem => newer_of_ne fun equal => apart ?_).trans (List.map_id _)
          exact List.mem_map.mpr ⟨old, mem, equal.trans same.symm⟩
        have known' : key x ∈ (absorb key stamp kept y).map key := same ▸ mem_keys_absorb kept y
        rw [List.map_cons, rest]
        refine (absorb_past known' (same ▸ apart)).trans ?_
        rw [absorb_absorb kept same]
        rfl
      · have later : key x ∈ xs.map key := (List.mem_cons.mp known).resolve_left (Ne.symm same)
        rw [List.map_cons, newer_of_ne same]
        exact ih unique (absorb key stamp kept y) later
  · have appended : absorb key stamp xs x = xs ++ [x] := if_neg known
    rw [appended, absorbAll_snoc]

/-- A piece may be reduced to its winners before it is absorbed. -/
theorem absorbAll_absorbAll (kept xs : List α) :
    absorbAll key stamp kept (absorbAll key stamp [] xs) = absorbAll key stamp kept xs := by
  induction xs using List.reverseRecOn with
  | nil => rfl
  | append_singleton xs y ih =>
    have unique : ((absorbAll key stamp [] xs).map key).Nodup := absorbAll_unique (by simp) xs
    rw [absorbAll_snoc, ← absorb_absorbAll unique, ih, absorbAll_snoc]

theorem Agree.absorb (agree : Agree R key stamp key' stamp') (held : List.Forall₂ R kept kept') (related : R x x') :
    List.Forall₂ R (absorb key stamp kept x) (absorb key' stamp' kept' x') := by
  by_cases known : key x ∈ kept.map key
  · rw [absorb_of_mem known, absorb_of_mem ((agree.keys held related).mp known)]
    rw [List.forall₂_map_left_iff, List.forall₂_map_right_iff]
    refine held.imp fun old old' pair => ?_
    obtain ⟨same, older⟩ := agree _ _ _ _ pair related
    by_cases replaced : key old = key x ∧ stamp old < stamp x
    · rw [newer, newer, if_pos replaced, if_pos ⟨same.mp replaced.1, older.mp replaced.2⟩]
      exact related
    · rw [newer, newer, if_neg replaced, if_neg fun both => replaced ⟨same.mpr both.1, older.mpr both.2⟩]
      exact pair
  · rw [Newest.absorb, Newest.absorb, if_neg known, if_neg fun mem => known ((agree.keys held related).mpr mem)]
    exact List.rel_append held (.cons related .nil)

/-- What is kept corresponds as well. -/
theorem Agree.absorbAll (agree : Agree R key stamp key' stamp') (held : List.Forall₂ R kept kept')
    (related : List.Forall₂ R xs zs) :
    List.Forall₂ R (absorbAll key stamp kept xs) (absorbAll key' stamp' kept' zs) := by
  induction related generalizing kept kept' with
  | nil => exact held
  | cons first _ ih => exact ih (agree.absorb held first)

end Newest
