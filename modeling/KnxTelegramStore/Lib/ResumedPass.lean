import Mathlib.Data.List.Basic

/-!
A pass that updates the pending rows of a table one by one and records at its
end that it is done. A start may cut the pass off after any number of updates,
and may run it although it is recorded. Each update makes a row smaller, so
that a row updated twice differs from one updated once: in a run all rows are
updated once exactly if no start updates a row that the pass would update
again (`once_or_more`).
-/
namespace ResumedPass

variable {ι α : Type*} [DecidableEq ι] {pending : α → Bool} {update : α → α} {weight : α → ℕ}

structure State (ι α : Type*) where
  rows : ι → α
  recorded : Bool

inductive Start where
  | complete
  /-- completes, and does not find a record there may be -/
  | unread
  /-- is cut off after some updates -/
  | cut (updates : ℕ)

/-- The rows a start updates, those of the table being `ids`. -/
def State.reached (pending : α → Bool) (ids : List ι) (s : State ι α) : Start → List ι
  | .complete => if s.recorded then [] else ids.filter fun id => pending (s.rows id)
  | .unread => ids.filter fun id => pending (s.rows id)
  | .cut updates => if s.recorded then [] else (ids.filter fun id => pending (s.rows id)).take updates

def State.step (pending : α → Bool) (update : α → α) (ids : List ι) (s : State ι α) (start : Start) :
    State ι α where
  rows := fun id => if id ∈ s.reached pending ids start then update (s.rows id) else s.rows id
  recorded := s.recorded || match start with
    | .complete | .unread => true
    | .cut _ => false

/-- A start that finds a record updates nothing, and one that leaves none no
row that it leaves pending. -/
def Careful (pending : α → Bool) (update : α → α) (ids : List ι) (s : State ι α) (start : Start) : Prop :=
  if s.recorded then s.reached pending ids start = []
  else
    match start with
    | .complete | .unread => True
    | .cut _ => ∀ id ∈ s.reached pending ids start, pending (update (s.rows id)) = false

/-- The pass, for one row. -/
def once (pending : α → Bool) (update : α → α) (row : α) : α := if pending row then update row else row

/-! ## One row -/

/-- What one start makes of a row and the record. -/
inductive RowStep (pending : α → Bool) (update : α → α) : Bool → α → Bool → α → Prop where
  | kept (recorded : Bool) (row : α) : RowStep pending update recorded row recorded row
  | completed (recorded : Bool) (row : α) : RowStep pending update recorded row true (once pending update row)
  | reached {row : α} (due : pending row = true) : RowStep pending update false row false (update row)

/-- A row that has been updated as often as the pass is to. -/
def OnTrack (pending : α → Bool) (update : α → α) (recorded : Bool) (origin row : α) : Prop :=
  row = origin ∧ (recorded = true → pending origin = false) ∨
    pending origin = true ∧ row = update origin ∧ (recorded = true ∨ pending row = false)

/-- A row that has been updated more often, or will be. -/
def OffTrack (pending : α → Bool) (update : α → α) (weight : α → ℕ) (recorded : Bool) (origin row : α) : Prop :=
  pending origin = true ∧
    (weight row < weight (update origin) ∨ recorded = false ∧ row = update origin ∧ pending row = true)

variable {recorded recorded' : Bool} {origin row row' : α}

theorem OnTrack.once (track : OnTrack pending update true origin row) : row = once pending update origin := by
  rcases track with ⟨same, idle⟩ | ⟨due, updated, _⟩
  · rw [ResumedPass.once, if_neg (Bool.eq_false_iff.mp (idle rfl)), same]
  · rw [ResumedPass.once, if_pos due, updated]

theorem OnTrack.step (track : OnTrack pending update recorded origin row)
    (careful : row' = row ∨ recorded = false ∧ (recorded' = true ∨ pending row' = false))
    (stepped : RowStep pending update recorded row recorded' row') : OnTrack pending update recorded' origin row' := by
  cases stepped with
  | kept => exact track
  | completed =>
    unfold ResumedPass.once at careful ⊢
    by_cases due : pending row = true
    · rw [if_pos due] at careful ⊢
      rcases track with ⟨same, idle⟩ | ⟨before, updated, settled⟩
      · subst same
        exact .inr ⟨due, rfl, .inl rfl⟩
      · rcases careful with unchanged | ⟨unrecorded, _⟩
        · rw [unchanged]
          exact .inr ⟨before, updated, .inl rfl⟩
        · rcases settled with set | idle
          · rw [unrecorded] at set
            cases set
          · rw [due] at idle
            cases idle
    · rw [if_neg due]
      rcases track with ⟨same, _⟩ | ⟨before, updated, _⟩
      · exact .inl ⟨same, fun _ => same ▸ Bool.eq_false_iff.mpr due⟩
      · exact .inr ⟨before, updated, .inl rfl⟩
  | reached due =>
    rcases track with ⟨same, _⟩ | ⟨before, updated, settled⟩
    · subst same
      rcases careful with unchanged | ⟨_, settled⟩
      · rw [unchanged]
        exact .inl ⟨rfl, nofun⟩
      · exact .inr ⟨due, rfl, settled⟩
    · rcases settled with set | idle
      · cases set
      · rw [due] at idle
        cases idle

theorem OffTrack.step (lighter : ∀ row, pending row = true → weight (update row) < weight row)
    (track : OffTrack pending update weight recorded origin row)
    (stepped : RowStep pending update recorded row recorded' row') :
    OffTrack pending update weight recorded' origin row' := by
  obtain ⟨before, light | ⟨unrecorded, updated, due⟩⟩ := track
  · refine ⟨before, .inl ?_⟩
    cases stepped with
    | kept => exact light
    | completed =>
      unfold ResumedPass.once
      split
      · rename_i due
        exact Nat.lt_trans (lighter row due) light
      · exact light
    | reached due => exact Nat.lt_trans (lighter row due) light
  · cases stepped with
    | kept => exact ⟨before, .inr ⟨unrecorded, updated, due⟩⟩
    | completed =>
      refine ⟨before, .inl ?_⟩
      rw [ResumedPass.once, if_pos due, ← updated]
      exact lighter row due
    | reached =>
      refine ⟨before, .inl ?_⟩
      rw [← updated]
      exact lighter row due

/-- An update that is not careful takes the row off its track. -/
theorem OnTrack.leave (lighter : ∀ row, pending row = true → weight (update row) < weight row)
    (track : OnTrack pending update recorded origin row) (due : pending row = true)
    (careless : recorded = true ∨ recorded' = false ∧ pending (update row) = true) :
    OffTrack pending update weight recorded' origin (update row) := by
  rcases track with ⟨same, idle⟩ | ⟨before, updated, settled⟩
  · subst same
    rcases careless with set | ⟨unset, again⟩
    · rw [idle set] at due
      cases due
    · exact ⟨due, .inr ⟨unset, rfl, again⟩⟩
  · refine ⟨before, .inl ?_⟩
    rw [← updated]
    exact lighter row due

/-! ## The table -/

variable {ids : List ι} {s : State ι α} {start : Start} {id : ι}

theorem rows_reached (touched : id ∈ s.reached pending ids start) :
    (s.step pending update ids start).rows id = update (s.rows id) := if_pos touched

theorem rows_kept (untouched : id ∉ s.reached pending ids start) :
    (s.step pending update ids start).rows id = s.rows id := if_neg untouched

omit [DecidableEq ι] in
theorem mem_reached (mem : id ∈ s.reached pending ids start) : id ∈ ids ∧ pending (s.rows id) = true := by
  have due : id ∈ ids.filter fun id => pending (s.rows id) := by
    cases start with
    | complete =>
      simp only [State.reached] at mem
      split at mem
      · cases mem
      · exact mem
    | unread => exact mem
    | cut updates =>
      simp only [State.reached] at mem
      split at mem
      · cases mem
      · exact List.mem_of_mem_take mem
  exact List.mem_filter.mp due

theorem rowStep (mem : id ∈ ids) : RowStep pending update s.recorded (s.rows id)
    (s.step pending update ids start).recorded
    ((s.step pending update ids start).rows id) := by
  by_cases touched : id ∈ s.reached pending ids start
  · have due := (mem_reached touched).2
    have whole : once pending update (s.rows id) = update (s.rows id) := if_pos due
    rw [rows_reached touched]
    cases start with
    | complete | unread =>
      rw [← whole]
      simp only [State.step, Bool.or_true]
      exact .completed _ _
    | cut updates =>
      have unrecorded : s.recorded = false := by
        refine Bool.eq_false_iff.mpr fun set => ?_
        simp only [State.reached, set, if_true, List.not_mem_nil] at touched
      simp only [State.step, unrecorded, Bool.or_self]
      exact .reached due
  · rw [rows_kept touched]
    have idle (all : s.reached pending ids start = ids.filter fun id => pending (s.rows id)) :
        once pending update (s.rows id) = s.rows id := by
      refine if_neg fun due => touched ?_
      rw [all]
      exact List.mem_filter.mpr ⟨mem, due⟩
    have done (set : (s.step pending update ids start).recorded = true)
        (all : s.reached pending ids start = ids.filter fun id => pending (s.rows id)) :
        RowStep pending update s.recorded (s.rows id) (s.step pending update ids start).recorded (s.rows id) := by
      have step : RowStep pending update s.recorded (s.rows id) true (once pending update (s.rows id)) := .completed _ _
      rw [idle all] at step
      rwa [set]
    cases start with
    | complete =>
      by_cases set : s.recorded = true
      · simp only [State.step, set, Bool.true_or]
        exact .kept _ _
      · exact done (Bool.or_true _) (if_neg set)
    | unread => exact done (Bool.or_true _) rfl
    | cut updates =>
      simp only [State.step, Bool.or_false]
      exact .kept _ _

/-- Every row of the table is on its track. -/
def Tracked (pending : α → Bool) (update : α → α) (ids : List ι) (origin : ι → α) (s : State ι α) : Prop :=
  ∀ id ∈ ids, OnTrack pending update s.recorded (origin id) (s.rows id)

variable {origins : ι → α}

theorem Tracked.step (tracked : Tracked pending update ids origins s) (careful : Careful pending update ids s start) :
    Tracked pending update ids origins (s.step pending update ids start) := by
  intro id mem
  refine (tracked id mem).step ?_ (rowStep mem)
  by_cases touched : id ∈ s.reached pending ids start
  · right
    unfold Careful at careful
    split at careful
    · rw [careful] at touched
      cases touched
    · rename_i unset
      have unrecorded := Bool.eq_false_iff.mpr unset
      refine ⟨unrecorded, ?_⟩
      cases start with
      | complete | unread => exact .inl (Bool.or_true _)
      | cut updates =>
        right
        rw [rows_reached touched]
        exact careful id touched
  · exact .inl (rows_kept touched)

/-- A start that is not careful takes a row off its track. -/
theorem Tracked.leave (lighter : ∀ row, pending row = true → weight (update row) < weight row)
    (tracked : Tracked pending update ids origins s) (careless : ¬ Careful pending update ids s start) :
    ∃ id ∈ ids, OffTrack pending update weight (s.step pending update ids start).recorded (origins id)
      ((s.step pending update ids start).rows id) := by
  obtain ⟨id, touched, wrong⟩ : ∃ id ∈ s.reached pending ids start, s.recorded = true ∨
      (s.step pending update ids start).recorded = false ∧ pending (update (s.rows id)) = true := by
    unfold Careful at careless
    split at careless
    · rename_i set
      obtain ⟨id, touched⟩ := List.exists_mem_of_ne_nil _ careless
      exact ⟨id, touched, .inl set⟩
    · rename_i unset
      cases start with
      | complete | unread => exact absurd trivial careless
      | cut updates =>
        simp only [not_forall, Bool.not_eq_false] at careless
        obtain ⟨id, touched, again⟩ := careless
        exact ⟨id, touched, .inr ⟨by simp only [State.step, Bool.or_false, Bool.eq_false_iff.mpr unset], again⟩⟩
  obtain ⟨mem, due⟩ := mem_reached touched
  refine ⟨id, mem, ?_⟩
  rw [rows_reached touched]
  exact (tracked id mem).leave lighter due wrong

/-- The state after some starts. -/
def State.after (pending : α → Bool) (update : α → α) (ids : List ι) (s : State ι α)
    (starts : List Start) : State ι α :=
  starts.foldl (State.step pending update ids) s

/-- All of them are careful. -/
def AllCareful (pending : α → Bool) (update : α → α) (ids : List ι) : State ι α → List Start → Prop
  | _, [] => True
  | s, start :: starts =>
    Careful pending update ids s start ∧ AllCareful pending update ids (s.step pending update ids start) starts

theorem offTrack_after (lighter : ∀ row, pending row = true → weight (update row) < weight row) (mem : id ∈ ids)
    (starts : List Start) (s : State ι α) (track : OffTrack pending update weight s.recorded (origins id) (s.rows id)) :
    OffTrack pending update weight (s.after pending update ids starts).recorded (origins id)
      ((s.after pending update ids starts).rows id) := by
  induction starts generalizing s with
  | nil => exact track
  | cons start starts ih => exact ih _ (track.step lighter (rowStep mem))

/-- **Once, or more than once.** When the pass is recorded, either all starts
were careful and it has been made once, or some row is lighter than that. -/
theorem once_or_more (lighter : ∀ row, pending row = true → weight (update row) < weight row) (starts : List Start)
    (s : State ι α) (tracked : Tracked pending update ids origins s)
    (recorded : (s.after pending update ids starts).recorded = true) :
    (AllCareful pending update ids s starts ∧
        ∀ id ∈ ids, (s.after pending update ids starts).rows id = once pending update (origins id)) ∨
      ¬ AllCareful pending update ids s starts ∧ ∃ id ∈ ids, pending (origins id) = true ∧
        weight ((s.after pending update ids starts).rows id) < weight (update (origins id)) := by
  induction starts generalizing s with
  | nil =>
    refine .inl ⟨trivial, fun id mem => OnTrack.once ?_⟩
    rw [← recorded]
    exact tracked id mem
  | cons start starts ih =>
    by_cases careful : Careful pending update ids s start
    · rcases ih _ (tracked.step careful) recorded with ⟨all, rows⟩ | ⟨careless, strayed⟩
      · exact .inl ⟨⟨careful, all⟩, rows⟩
      · exact .inr ⟨fun all => careless all.2, strayed⟩
    · obtain ⟨id, mem, track⟩ := tracked.leave lighter careful
      obtain ⟨due, light | ⟨unrecorded, _⟩⟩ := offTrack_after lighter mem starts _ track
      · exact .inr ⟨fun all => careful all.1, id, mem, due, light⟩
      · cases recorded.symm.trans unrecorded

end ResumedPass
