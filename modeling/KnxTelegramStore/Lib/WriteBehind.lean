import Mathlib.Data.List.Perm.Basic
import Mathlib.Logic.Relation

/-!
A write-behind buffer as a ledger of items. An accepted item waits in the
buffer, is detached with a batch, and ends up stored or given up for a reason;
a failed batch goes back in front of the buffer. `Move` lists the ways items
change place. The laws are that no move but `double` creates or loses an item
(`moves_conserve`), that even with it every accepted item stays somewhere
(`moves_cover`), and that what is pending keeps the order of acceptance
(`moves_pending`).
-/
namespace WriteBehind

variable {α ρ : Type*}

structure Ledger (α ρ : Type*) where
  /-- every item ever accepted, in order -/
  accepted : List α
  buffer : List α
  /-- what is being written -/
  batch : List α
  stored : List α
  dropped : List (α × ρ)

namespace Ledger

/-- Everything the ledger can account for. -/
def holdings (l : Ledger α ρ) : List α :=
  l.buffer ++ l.batch ++ l.stored ++ l.dropped.map Prod.fst

/-- What has still to be written. -/
def pending (l : Ledger α ρ) : List α := l.batch ++ l.buffer

def discard (l : Ledger α ρ) (items : List α) (reason : ρ) : Ledger α ρ :=
  { l with dropped := l.dropped ++ items.map fun item => (item, reason) }

end Ledger

/-- The ways items change place. A write whose outcome is unknown may have
stored what stays in the batch: `double`, where it is allowed. -/
inductive Move (doubling : Prop) : Ledger α ρ → Ledger α ρ → Prop where
  | accept (l : Ledger α ρ) (item : α) :
      Move doubling l { l with accepted := l.accepted ++ [item], buffer := l.buffer ++ [item] }
  | detach (l : Ledger α ρ) : l.batch = [] →
      Move doubling l { l with batch := l.buffer, buffer := [] }
  | commit (l : Ledger α ρ) (n : ℕ) :
      Move doubling l { l with batch := l.batch.drop n, stored := l.stored ++ l.batch.take n }
  | reject (l : Ledger α ρ) (n : ℕ) (reason : ρ) :
      Move doubling l { l.discard (l.batch.take n) reason with batch := l.batch.drop n }
  | requeue (l : Ledger α ρ) :
      Move doubling l { l with batch := [], buffer := l.batch ++ l.buffer }
  | trim (l : Ledger α ρ) (n : ℕ) (reason : ρ) :
      Move doubling l { l.discard (l.buffer.take n) reason with buffer := l.buffer.drop n }
  | sift (l : Ledger α ρ) (p : α → Bool) (reason : ρ) :
      Move doubling l { l.discard (l.buffer.filter p) reason with buffer := l.buffer.filter (!p ·) }
  | expire (l : Ledger α ρ) (p : α → Bool) (reason : ρ) :
      Move doubling l { l.discard (l.stored.filter p) reason with stored := l.stored.filter (!p ·) }
  | double (l : Ledger α ρ) (n : ℕ) : doubling →
      Move doubling l { l with stored := l.stored ++ l.batch.take n }

abbrev Moves (doubling : Prop) : Ledger α ρ → Ledger α ρ → Prop :=
  Relation.ReflTransGen (Move doubling)

variable {doubling doubling' : Prop} {before after : Ledger α ρ}

theorem Move.mono (weaker : doubling → doubling') (move : Move doubling before after) :
    Move doubling' before after := by
  cases move with
  | accept => exact .accept _ _
  | detach free => exact .detach _ free
  | commit => exact .commit _ _
  | reject => exact .reject _ _ _
  | requeue => exact .requeue _
  | trim => exact .trim _ _ _
  | sift => exact .sift _ _ _
  | expire => exact .expire _ _ _
  | double _ allowed => exact .double _ _ (weaker allowed)

theorem Moves.mono (weaker : doubling → doubling') (moves : Moves doubling before after) :
    Moves doubling' before after := by
  induction moves with
  | refl => exact .refl
  | tail _ move ih => exact ih.tail (move.mono weaker)

/-- How often an item is found in the ledger, place by place. -/
theorem count_holdings [DecidableEq α] (l : Ledger α ρ) (item : α) :
    l.holdings.count item = l.buffer.count item + l.batch.count item + l.stored.count item +
      (l.dropped.map Prod.fst).count item := by
  simp [Ledger.holdings, Nat.add_assoc]

private theorem count_take_drop [DecidableEq α] (items : List α) (n : ℕ) (item : α) :
    (items.take n).count item + (items.drop n).count item = items.count item := by
  rw [← List.count_append, List.take_append_drop]

private theorem count_filter_split [DecidableEq α] (items : List α) (p : α → Bool) (item : α) :
    (items.filter p).count item + (items.filter (!p ·)).count item = items.count item := by
  rw [← List.count_append]
  exact (List.filter_append_perm p items).count_eq item

/-- A move that doubles nothing keeps every item, once. -/
theorem move_conserves (move : Move False before after)
    (conserved : before.holdings.Perm before.accepted) : after.holdings.Perm after.accepted := by
  classical
  rw [List.perm_iff_count] at conserved ⊢
  intro item
  have counted := conserved item
  rw [count_holdings] at counted ⊢
  cases move with
  | accept new => simp only [List.count_append]; omega
  | detach free => simp only [free, List.count_nil] at counted ⊢; omega
  | commit n =>
    have split := count_take_drop before.batch n item
    simp only [List.count_append]
    omega
  | reject n reason =>
    have split := count_take_drop before.batch n item
    simp only [Ledger.discard, List.map_append, List.map_map, Function.comp_def, List.map_id',
      List.count_append]
    omega
  | requeue => simp only [List.count_append, List.count_nil]; omega
  | trim n reason =>
    have split := count_take_drop before.buffer n item
    simp only [Ledger.discard, List.map_append, List.map_map, Function.comp_def, List.map_id',
      List.count_append]
    omega
  | sift p reason =>
    have split := count_filter_split before.buffer p item
    simp only [Ledger.discard, List.map_append, List.map_map, Function.comp_def, List.map_id',
      List.count_append]
    omega
  | expire p reason =>
    have split := count_filter_split before.stored p item
    simp only [Ledger.discard, List.map_append, List.map_map, Function.comp_def, List.map_id',
      List.count_append]
    omega
  | double n impossible => exact impossible.elim

/-- **Conservation.** As long as no write is doubled, the ledger holds exactly
the accepted items. -/
theorem moves_conserve (moves : Moves False before after)
    (conserved : before.holdings.Perm before.accepted) : after.holdings.Perm after.accepted := by
  induction moves with
  | refl => exact conserved
  | tail _ move ih => exact move_conserves move ih

/-- A move never leaves an item without a place. -/
theorem move_keeps (move : Move doubling before after) {item : α}
    (held : item ∈ before.holdings) : item ∈ after.holdings := by
  have cut (items : List α) (n : ℕ) (mem : item ∈ items) : item ∈ items.take n ∨ item ∈ items.drop n := by
    rwa [← List.mem_append, List.take_append_drop]
  have parted (items : List α) (p : α → Bool) (mem : item ∈ items) :
      item ∈ items.filter p ∨ item ∈ items.filter (!p ·) := by
    cases found : p item <;> simp [mem, found]
  simp only [Ledger.holdings, List.mem_append] at held ⊢
  cases move with
  | accept new => simp only [List.mem_append]; tauto
  | detach free => simp only [free, List.not_mem_nil, or_false, false_or] at held ⊢; tauto
  | commit n =>
    have := cut before.batch n
    simp only [List.mem_append]
    tauto
  | reject n reason =>
    have := cut before.batch n
    simp only [Ledger.discard, List.map_append, List.map_map, Function.comp_def, List.map_id',
      List.mem_append]
    tauto
  | requeue => simp only [List.mem_append, List.not_mem_nil, or_false]; tauto
  | trim n reason =>
    have := cut before.buffer n
    simp only [Ledger.discard, List.map_append, List.map_map, Function.comp_def, List.map_id',
      List.mem_append]
    tauto
  | sift p reason =>
    have := parted before.buffer p
    simp only [Ledger.discard, List.map_append, List.map_map, Function.comp_def, List.map_id',
      List.mem_append]
    tauto
  | expire p reason =>
    have := parted before.stored p
    simp only [Ledger.discard, List.map_append, List.map_map, Function.comp_def, List.map_id',
      List.mem_append]
    tauto
  | double n _ => simp only [List.mem_append]; tauto

/-- What a move may accept goes into the buffer. -/
theorem move_accepted (move : Move doubling before after) :
    after.accepted = before.accepted ∨
      ∃ item, after.accepted = before.accepted ++ [item] ∧ item ∈ after.buffer := by
  cases move with
  | accept item => exact .inr ⟨item, rfl, by simp⟩
  | _ => exact .inl rfl

/-- Every accepted item has a place, doubled writes or not. -/
theorem moves_cover (moves : Moves doubling before after)
    (covered : ∀ item ∈ before.accepted, item ∈ before.holdings) :
    ∀ item ∈ after.accepted, item ∈ after.holdings := by
  induction moves with
  | refl => exact covered
  | tail _ move ih =>
    intro item mem
    rcases move_accepted move with same | ⟨new, grown, buffered⟩
    · rw [same] at mem
      exact move_keeps move (ih item mem)
    · rw [grown, List.mem_append] at mem
      rcases mem with old | fresh
      · exact move_keeps move (ih item old)
      · rw [List.mem_singleton.mp fresh]
        simp [Ledger.holdings, buffered]

/-- **Order.** What is pending is in the order it was accepted in. -/
theorem moves_pending (moves : Moves doubling before after)
    (ordered : before.pending.Sublist before.accepted) : after.pending.Sublist after.accepted := by
  induction moves with
  | refl => exact ordered
  | tail _ move ih =>
    cases move with
    | accept new =>
      simpa [Ledger.pending, List.append_assoc] using ih.append (List.Sublist.refl [new])
    | detach free => simpa [Ledger.pending, free] using ih
    | commit n => exact ((List.drop_sublist n _).append_right _).trans ih
    | reject n reason => exact ((List.drop_sublist n _).append_right _).trans ih
    | requeue => simpa [Ledger.pending] using ih
    | trim n reason => exact ((List.drop_sublist n _).append_left _).trans ih
    | sift p reason => exact (List.filter_sublist.append_left _).trans ih
    | expire p reason => exact ih
    | double n _ => exact ih

/-- As long as no write is doubled, what is stored is in that order too, and
before all that is pending. -/
theorem moves_in_order (moves : Moves False before after)
    (ordered : (before.stored ++ before.pending).Sublist before.accepted) :
    (after.stored ++ after.pending).Sublist after.accepted := by
  induction moves with
  | refl => exact ordered
  | tail _ move ih =>
    cases move with
    | accept new =>
      simpa [Ledger.pending, List.append_assoc] using ih.append (List.Sublist.refl [new])
    | detach free => simpa [Ledger.pending, free] using ih
    | commit n =>
      simp only [Ledger.pending, List.append_assoc] at ih ⊢
      rwa [← List.append_assoc (List.take n _), List.take_append_drop]
    | reject n reason => exact (((List.drop_sublist n _).append_right _).append_left _).trans ih
    | requeue => simpa [Ledger.pending] using ih
    | trim n reason => exact (((List.drop_sublist n _).append_left _).append_left _).trans ih
    | sift p reason => exact ((List.filter_sublist.append_left _).append_left _).trans ih
    | expire p reason => exact (List.filter_sublist.append_right _).trans ih
    | double n impossible => exact impossible.elim

theorem moves_accepted (moves : Moves doubling before after) : before.accepted <+: after.accepted := by
  induction moves with
  | refl => exact List.prefix_refl _
  | tail _ move ih =>
    rcases move_accepted move with same | ⟨new, grown, _⟩
    · rwa [same]
    · exact ih.trans (grown ▸ List.prefix_append _ _)

/-- A move that accepts nothing leaves a drained ledger drained. -/
theorem move_drained (move : Move doubling before after) (same : after.accepted = before.accepted)
    (drained : before.pending = []) : after.pending = [] := by
  simp only [Ledger.pending, List.append_eq_nil_iff] at drained ⊢
  obtain ⟨batch, buffer⟩ := drained
  cases move with
  | accept new => simp at same
  | _ => simp [batch, buffer, Ledger.discard]

/-- Nothing becomes pending again while nothing is accepted. -/
theorem moves_drained (moves : Moves doubling before after)
    (same : after.accepted = before.accepted) (drained : before.pending = []) :
    after.pending = [] := by
  induction moves with
  | refl => exact drained
  | tail moves move ih =>
    have earlier := moves_accepted moves
    have later := moves_accepted (.single move)
    rw [same] at later
    have middle := later.eq_of_length_le earlier.length_le
    exact move_drained move (same.trans middle.symm) (ih middle)

/-! ## Nothing comes back -/

/-- What is not there to stay given up: pending or stored. -/
def Ledger.live (l : Ledger α ρ) : List α := l.pending ++ l.stored

variable {item : α}

/-- What has been accepted since. -/
def newer (before after : Ledger α ρ) : List α := after.accepted.drop before.accepted.length

theorem newer_trans {middle : Ledger α ρ} (first : before.accepted <+: middle.accepted)
    (second : middle.accepted <+: after.accepted)
    (mem : item ∈ newer before middle ∨ item ∈ newer middle after) : item ∈ newer before after := by
  obtain ⟨more, grown⟩ := first
  obtain ⟨rest, grown'⟩ := second
  rw [← grown] at grown'
  simp only [newer, ← grown, ← grown', List.append_assoc, List.drop_left] at mem ⊢
  rcases mem with mem | mem
  · exact List.mem_append_left _ mem
  · rw [← List.append_assoc, List.drop_left] at mem
    exact List.mem_append_right _ mem

theorem move_pending (move : Move doubling before after) (mem : item ∈ after.pending) :
    item ∈ before.pending ∨ item ∈ newer before after := by
  simp only [Ledger.pending, List.mem_append] at mem ⊢
  cases move with
  | accept new =>
    rw [newer, List.drop_left]
    simpa [or_assoc] using mem
  | detach free => exact .inl (.inr (by simpa using mem))
  | commit n => exact .inl (mem.imp_left List.mem_of_mem_drop)
  | reject n reason => exact .inl (mem.imp_left List.mem_of_mem_drop)
  | requeue => exact .inl (by simpa using mem)
  | trim n reason => exact .inl (mem.imp_right List.mem_of_mem_drop)
  | sift p reason => exact .inl (mem.imp_right List.mem_of_mem_filter)
  | expire p reason => exact .inl mem
  | double n _ => exact .inl mem

theorem move_live (move : Move doubling before after) (mem : item ∈ after.live) :
    item ∈ before.live ∨ item ∈ newer before after := by
  rcases List.mem_append.mp mem with pending | stored
  · exact (move_pending move pending).imp_left fun pending => List.mem_append_left _ pending
  · refine .inl ?_
    have taken {n : ℕ} (mem : item ∈ before.stored ++ before.batch.take n) : item ∈ before.live := by
      rcases List.mem_append.mp mem with stored | written
      · exact List.mem_append_right _ stored
      · exact List.mem_append_left _ (List.mem_append_left _ (List.mem_of_mem_take written))
    cases move with
    | commit n => exact taken stored
    | double n _ => exact taken stored
    | expire p reason => exact List.mem_append_right _ (List.mem_of_mem_filter stored)
    | _ => exact List.mem_append_right _ stored

/-- What is pending was pending, or has been accepted since. -/
theorem moves_recent (moves : Moves doubling before after) (mem : item ∈ after.pending) :
    item ∈ before.pending ∨ item ∈ newer before after := by
  induction moves with
  | refl => exact .inl mem
  | tail moves move ih =>
    have earlier := moves_accepted moves
    have later := moves_accepted (.single move)
    rcases move_pending move mem with pending | accepted
    · exact (ih pending).imp_right fun accepted => newer_trans earlier later (.inl accepted)
    · exact .inr (newer_trans earlier later (.inr accepted))

/-- **Nothing comes back.** What is pending or stored was, or has been accepted
since. -/
theorem moves_live (moves : Moves doubling before after) (mem : item ∈ after.live) :
    item ∈ before.live ∨ item ∈ newer before after := by
  induction moves with
  | refl => exact .inl mem
  | tail moves move ih =>
    have earlier := moves_accepted moves
    have later := moves_accepted (.single move)
    rcases move_live move mem with live | accepted
    · exact (ih live).imp_right fun accepted => newer_trans earlier later (.inl accepted)
    · exact .inr (newer_trans earlier later (.inr accepted))

end WriteBehind
