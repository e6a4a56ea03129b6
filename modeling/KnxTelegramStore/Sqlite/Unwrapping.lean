import KnxTelegramStore.JsonColumn
import KnxTelegramStore.Lib.ResumedPass

/-!
The last pass of `SqliteStore._upgrade_schema` (`backends/sqlite.py`), which
takes the `{"value": ...}` wrappers of older versions off the columns `value`
and `payload`. It updates row by row, and an exception ends it without undoing
the rows before. `wrappers_removed_iff` says in which runs of starts every
wrapper is removed once.

A number is stored as a number (`JsonColumn`), so that the UPDATE of a row
writes the text of one again, also in a column that had no wrapper. Any other
text is what `json.loads` reads in it here.
-/
namespace KnxTelegramStore.Sqlite
open ResumedPass

/-! ## JSON columns -/

inductive JsonCell where
  | null
  | number (value : SqlNumber)
  | text (json : PyValue) (textual : json.Textual)

/-- The cell that is read as this value. -/
def JsonCell.holding : PyValue → JsonCell
  | .int n => .number (.integer n)
  | .float (.number x) => .number (.real (.number x))
  | .float .nan => .text (.float .nan) trivial
  | .float (.infinity negative) => .text (.float (.infinity negative)) trivial
  | .bool b => .text (.bool b) trivial
  | .str s => .text (.str s) trivial
  | .null => .text .null trivial
  | .list items => .text (.list items) trivial
  | .tuple items => .text (.tuple items) trivial
  | .dict entries => .text (.dict entries) trivial

/-- What the column holds of `json.dumps(json)`. -/
def JsonCell.bind (real : Reals) (json : PyValue) : JsonCell :=
  match json.stored real with
  | some value => .number value
  | none => .holding json

/-- What is read in a cell that is not NULL. -/
def JsonCell.json : JsonCell → Option PyValue
  | .null => none
  | .number value => some value.read
  | .text json _ => some json

/-! ## The pass -/

/-- `LIKE '{"value":%'`, which does not tell upper from lower case. -/
def JsonCell.likeWrapped : JsonCell → Bool
  | .text (.dict ((key, _) :: _)) _ => key.toList.map Char.toLower = "value".toList
  | _ => false

/-- What an object with the one key `value` holds. -/
def wrapped : PyValue → Option PyValue
  | .dict [(key, held)] => if key = "value" then some held else none
  | _ => none

/-- `unwrap`; a number is no text that `json.loads` takes. -/
def JsonCell.unwrap : JsonCell → Option PyValue
  | .text json _ => wrapped json
  | _ => none

/-- `to_json_str`, stored. -/
def JsonCell.toJsonStr (real : Reals) (cell : JsonCell) : JsonCell :=
  match cell.unwrap with
  | some held => .bind real held
  | none =>
    match cell with
    | .null => .null
    | .number value => .bind real value.read
    | .text json _ => .bind real json

structure DataCells where
  value : JsonCell
  payload : JsonCell

def DataCells.selected (row : DataCells) : Bool := row.value.likeWrapped || row.payload.likeWrapped

def DataCells.needsUpdate (row : DataCells) : Bool := row.value.unwrap.isSome || row.payload.unwrap.isSome

/-- What the UPDATE sets. -/
def DataCells.update (real : Reals) (row : DataCells) : DataCells :=
  ⟨row.value.toJsonStr real, row.payload.toJsonStr real⟩

/-- The rows by rowid, and the flag `data_unwrapped`. -/
structure Legacy where
  rows : ℕ → DataCells
  dataUnwrapped : Bool

/-- The rowids of the UPDATEs, one after the other. -/
def Legacy.updates (rowids : List ℕ) (s : Legacy) : List ℕ :=
  (rowids.filter fun rowid => (s.rows rowid).selected).filter fun rowid => (s.rows rowid).needsUpdate

/-- `UPDATE telegrams SET value = :value, payload = :payload WHERE rowid = :rowid`,
for rows that were fetched before the first. -/
def Legacy.updateRows (real : Reals) (s : Legacy) (updates : List ℕ) : ℕ → DataCells :=
  updates.foldl (fun rows rowid => Function.update rows rowid ((s.rows rowid).update real)) s.rows

/-- The one statement of a pass that fails. -/
inductive FailingStatement where
  /-- the look at the flag, which then reads as not set -/
  | flag
  | select
  | update (index : ℕ)
  | setFlag
  deriving DecidableEq

/-- A start. -/
def Legacy.start (real : Reals) (rowids : List ℕ) (s : Legacy) (failing : Option FailingStatement) : Legacy :=
  let updates := s.updates rowids
  let completed : Legacy := ⟨s.updateRows real updates, true⟩
  if s.dataUnwrapped ∧ failing ≠ some .flag then s
  else
    match failing with
    | none | some .flag => completed
    | some .select => s
    | some (.update index) => if index < updates.length then
      { s with rows := s.updateRows real (updates.take index) } else completed
    | some .setFlag => { s with rows := s.updateRows real updates }

def Legacy.starts (real : Reals) (rowids : List ℕ) (s : Legacy)
    (failings : List (Option FailingStatement)) : Legacy :=
  failings.foldl (Legacy.start real rowids) s

/-- One wrapper has been taken off, if there was one, and nothing else. -/
def TakenOff (before after : JsonCell) : Prop :=
  after.json.map PyValue.numeric = before.json.map fun json => ((wrapped json).getD json).numeric

/-- Of all cells. -/
def UnwrappedOnce (rowids : List ℕ) (origin : ℕ → DataCells) (s : Legacy) : Prop :=
  ∀ rowid ∈ rowids, TakenOff (origin rowid).value (s.rows rowid).value ∧
    TakenOff (origin rowid).payload (s.rows rowid).payload

/-- A wrapper in a wrapper. -/
def JsonCell.nested (cell : JsonCell) : Bool := (cell.unwrap.bind wrapped).isSome

def DataCells.nested (row : DataCells) : Bool := row.value.nested || row.payload.nested

/-- A start whose pass fails has not updated a row with nested wrappers, and
one that does not find the flag set finds nothing to update. -/
def Careful (rowids : List ℕ) (s : Legacy) : Option FailingStatement → Prop
  | none | some .select => True
  | some .flag => s.dataUnwrapped = true → s.updates rowids = []
  | some (.update index) => s.dataUnwrapped = false → index < (s.updates rowids).length →
      ∀ rowid ∈ (s.updates rowids).take index, (s.rows rowid).nested = false
  | some .setFlag => s.dataUnwrapped = false → ∀ rowid ∈ s.updates rowids, (s.rows rowid).nested = false

def CarefulStarts (real : Reals) (rowids : List ℕ) : Legacy → List (Option FailingStatement) → Prop
  | _, [] => True
  | s, failing :: failings => Careful rowids s failing ∧
      CarefulStarts real rowids (s.start real rowids failing) failings

/-- What an UPDATE of its row puts into a cell. -/
def JsonCell.written (cell : JsonCell) : Option PyValue := cell.json.map fun json => (wrapped json).getD json

/-! ## As a resumed pass -/

def Legacy.state (s : Legacy) : State ℕ DataCells := ⟨s.rows, s.dataUnwrapped⟩

/-- A start that is cut off, or not. -/
def Legacy.asStart (rowids : List ℕ) (s : Legacy) : Option FailingStatement → Start
  | none => .complete
  | some .flag => .unread
  | some .select => .cut 0
  | some (.update index) => if index < (s.updates rowids).length then .cut index else .complete
  | some .setFlag => .cut (s.updates rowids).length

variable {real : Reals} {rowids : List ℕ} {s : Legacy} {cell : JsonCell} {row : DataCells} {json held : PyValue}

theorem wrapped_some (found : wrapped json = some held) : json = .dict [("value", held)] := by
  unfold wrapped at found
  split at found
  · split at found
    · rename_i key
      cases found
      rw [key]
    · cases found
  · cases found

theorem likeWrapped_of_unwrap (found : cell.unwrap = some held) : cell.likeWrapped = true := by
  cases cell with
  | null | number => cases found
  | text json textual =>
    cases wrapped_some found
    have lower : "value".toList.map Char.toLower = "value".toList := by decide
    exact decide_eq_true lower

theorem selected_of_needsUpdate (due : row.needsUpdate = true) : row.selected = true := by
  unfold DataCells.needsUpdate at due
  unfold DataCells.selected
  rw [Bool.or_eq_true_iff] at due ⊢
  refine due.imp (fun some_ => ?_) fun some_ => ?_
  · obtain ⟨held, found⟩ := Option.isSome_iff_exists.mp some_
    exact likeWrapped_of_unwrap found
  · obtain ⟨held, found⟩ := Option.isSome_iff_exists.mp some_
    exact likeWrapped_of_unwrap found

/-- The selection misses no row that needs an update. -/
theorem updates_eq : s.updates rowids = rowids.filter fun rowid => (s.rows rowid).needsUpdate := by
  rw [Legacy.updates, List.filter_filter]
  refine List.filter_congr fun rowid _ => ?_
  cases due : (s.rows rowid).needsUpdate with
  | true => rw [selected_of_needsUpdate due, Bool.and_self]
  | false => rw [Bool.false_and]

theorem updateRows_eq (updates : List ℕ) :
    s.updateRows real updates = fun rowid => if rowid ∈ updates then (s.rows rowid).update real else s.rows rowid := by
  have general (rows : ℕ → DataCells) :
      updates.foldl (fun rows rowid => Function.update rows rowid ((s.rows rowid).update real)) rows =
        fun rowid => if rowid ∈ updates then (s.rows rowid).update real else rows rowid := by
    induction updates generalizing rows with
    | nil => simp only [List.foldl_nil, List.not_mem_nil, if_false]
    | cons first updates ih =>
      rw [List.foldl_cons, ih]
      funext rowid
      by_cases later : rowid ∈ updates
      · simp only [later, List.mem_cons, or_true, if_true]
      · by_cases here : rowid = first
        · subst here
          simp only [later, List.mem_cons, true_or, if_true, if_false, Function.update_self]
        · simp only [later, here, List.mem_cons, or_self, if_false, Function.update_of_ne here]
  exact general s.rows

theorem state_eq {start : Start} {updates : List ℕ} {flag : Bool}
    (reached : s.state.reached DataCells.needsUpdate rowids start = updates)
    (recorded : (s.state.step DataCells.needsUpdate (DataCells.update real) rowids start).recorded = flag) :
    Legacy.state ⟨s.updateRows real updates, flag⟩ =
      s.state.step DataCells.needsUpdate (DataCells.update real) rowids start := by
  subst reached recorded
  rw [updateRows_eq]
  rfl

/-- A start is one of the resumed pass. -/
theorem start_eq (failing : Option FailingStatement) :
    (s.start real rowids failing).state =
      s.state.step DataCells.needsUpdate (DataCells.update real) rowids (s.asStart rowids failing) := by
  have all : (rowids.filter fun rowid => (s.state.rows rowid).needsUpdate) = s.updates rowids := updates_eq.symm
  by_cases skipped : s.dataUnwrapped = true ∧ failing ≠ some .flag
  · have found : s.state.recorded = true := skipped.1
    have same : Legacy.state s = Legacy.state ⟨s.updateRows real [], s.dataUnwrapped⟩ := rfl
    have untouched (start : Start) (other : start ≠ .unread) :
        s.state.reached DataCells.needsUpdate rowids start = [] := by
      cases start with
      | complete => exact if_pos found
      | unread => exact absurd rfl other
      | cut updates => exact if_pos found
    simp only [Legacy.start]
    rw [if_pos skipped, same]
    refine state_eq (untouched _ ?_) ?_
    · intro unread
      rcases failing with _ | (_ | _ | index | _)
      · cases unread
      · exact skipped.2 rfl
      · cases unread
      · simp only [Legacy.asStart] at unread
        split at unread <;> cases unread
      · cases unread
    · simp only [State.step, found, Bool.true_or, skipped.1]
  · have completes {start : Start} (whole : start = .complete ∧ s.dataUnwrapped = false ∨ start = .unread) :
        Legacy.state ⟨s.updateRows real (s.updates rowids), true⟩ =
          s.state.step DataCells.needsUpdate (DataCells.update real) rowids start := by
      rcases whole with ⟨rfl, unset⟩ | rfl
      · exact state_eq ((if_neg (Bool.eq_false_iff.mp unset)).trans all) (Bool.or_true _)
      · exact state_eq all (Bool.or_true _)
    have unset (other : failing ≠ some .flag) : s.dataUnwrapped = false :=
      Bool.eq_false_iff.mpr fun set => skipped ⟨set, other⟩
    have cut (other : failing ≠ some .flag) (index : ℕ) :
        Legacy.state { s with rows := s.updateRows real ((s.updates rowids).take index) } =
          s.state.step DataCells.needsUpdate (DataCells.update real) rowids (.cut index) := by
      refine state_eq ?_ (Bool.or_false _)
      rw [State.reached, all]
      exact if_neg (Bool.eq_false_iff.mp (unset other))
    simp only [Legacy.start]
    rw [if_neg skipped]
    rcases failing with _ | (_ | _ | index | _)
    · exact completes (.inl ⟨rfl, unset (by rintro ⟨⟩)⟩)
    · exact completes (.inr rfl)
    · exact cut (by rintro ⟨⟩) 0
    · simp only [Legacy.asStart]
      split
      · exact cut (by rintro ⟨⟩) index
      · exact completes (.inl ⟨rfl, unset (by rintro ⟨⟩)⟩)
    · have whole := cut (by rintro ⟨⟩) (s.updates rowids).length
      rw [List.take_length] at whole
      exact whole

/-! ## One cell -/

/-- How many wrappers are around each other. -/
def wrapperDepth : PyValue → ℕ
  | .dict [(key, held)] => if key = "value" then wrapperDepth held + 1 else 0
  | _ => 0

theorem depth_wrapped (found : wrapped json = some held) : wrapperDepth json = wrapperDepth held + 1 := by
  cases wrapped_some found
  simp only [wrapperDepth, if_true]

theorem depth_bare (bare : wrapped json = none) : wrapperDepth json = 0 := by
  unfold wrapped at bare
  unfold wrapperDepth
  split at bare
  · split at bare
    · cases bare
    · rename_i other
      exact if_neg other
  · rfl

theorem depth_numeric (json : PyValue) : wrapperDepth json.numeric = wrapperDepth json := by cases json <;> rfl

theorem json_holding (json : PyValue) : (JsonCell.holding json).json = some json := by
  cases json with
  | float x => cases x <;> rfl
  | int | bool | str | null | list | tuple | dict => rfl

/-- What is read of what was bound. -/
theorem json_bind (real : Reals) (json : PyValue) :
    ∃ read, (JsonCell.bind real json).json = some read ∧ wrapperDepth read = wrapperDepth json ∧
      (read.numeric = json.numeric ↔ json.HeldExactly real) := by
  unfold JsonCell.bind PyValue.HeldExactly
  cases stored : json.stored real with
  | none => exact ⟨json, json_holding json, rfl, iff_of_true rfl fun _ found => nomatch found⟩
  | some number =>
    refine ⟨number.read, rfl, ?_, ?_⟩
    · have bare : wrapperDepth json = 0 := by
        cases json with
        | int | float => rfl
        | bool | str | null | list | tuple | dict => cases stored
      rw [bare]
      cases number <;> rfl
    · simp only [Option.some.injEq, forall_eq']

theorem unwrap_eq (cell : JsonCell) : cell.unwrap = cell.json.bind wrapped := by
  cases cell with
  | null | text => rfl
  | number value => cases value <;> rfl

theorem toJsonStr_eq (real : Reals) (cell : JsonCell) :
    cell.toJsonStr real = cell.written.elim .null (JsonCell.bind real) := by
  unfold JsonCell.toJsonStr JsonCell.written
  rw [unwrap_eq]
  cases cell with
  | null => rfl
  | number value => cases value <;> rfl
  | text json textual =>
    simp only [JsonCell.json, Option.bind_some, Option.map_some, Option.elim_some]
    cases found : wrapped json with
    | none => rfl
    | some held => rfl

theorem takenOff_self (bare : cell.unwrap = none) : TakenOff cell cell := by
  unfold TakenOff
  cases read : cell.json with
  | none => rfl
  | some json =>
    rw [unwrap_eq, read, Option.bind_some] at bare
    simp only [Option.map_some, bare, Option.getD_none]

/-- An UPDATE takes the wrapper off exactly if the column holds what is written
then. -/
theorem takenOff_iff (real : Reals) : TakenOff cell (cell.toJsonStr real) ↔ ∀ json, cell.written = some json →
    json.HeldExactly real := by
  rw [toJsonStr_eq, TakenOff, JsonCell.written]
  cases cell.json with
  | none => exact iff_of_true rfl fun _ found => nomatch found
  | some json =>
    obtain ⟨read, made, _, exact_⟩ := json_bind real ((wrapped json).getD json)
    simp only [Option.map_some, Option.elim_some, made, Option.some.injEq, exact_, forall_eq']

/-- The wrappers around what is read. -/
def JsonCell.depth (cell : JsonCell) : ℕ := (cell.json.map wrapperDepth).getD 0

theorem TakenOff.depth {before after : JsonCell} (taken : TakenOff before after) : after.depth = before.depth - 1 := by
  have depths := congrArg (Option.map wrapperDepth) taken
  simp only [Option.map_map, Function.comp_def, depth_numeric] at depths
  rw [JsonCell.depth, depths, JsonCell.depth]
  cases before.json with
  | none => rfl
  | some json =>
    cases found : wrapped json with
    | none => simp only [Option.map_some, found, Option.getD_none, Option.getD_some, depth_bare found, Nat.zero_sub]
    | some held => simp only [Option.map_some, found, Option.getD_some, depth_wrapped found, Nat.add_sub_cancel]

theorem depth_toJsonStr (real : Reals) (cell : JsonCell) : (cell.toJsonStr real).depth = cell.depth - 1 := by
  rw [toJsonStr_eq, JsonCell.written, JsonCell.depth, JsonCell.depth]
  cases cell.json with
  | none => rfl
  | some json =>
    obtain ⟨read, made, depth, _⟩ := json_bind real ((wrapped json).getD json)
    simp only [Option.map_some, Option.elim_some, made, Option.getD_some, depth]
    cases found : wrapped json with
    | none => rw [Option.getD_none, depth_bare found]
    | some held => rw [Option.getD_some, depth_wrapped found, Nat.add_sub_cancel]

theorem depth_pos (found : cell.unwrap.isSome = true) : 0 < cell.depth := by
  obtain ⟨held, found⟩ := Option.isSome_iff_exists.mp found
  rw [unwrap_eq] at found
  obtain ⟨json, own, inside⟩ := Option.bind_eq_some_iff.mp found
  simp only [JsonCell.depth, own, Option.map_some, Option.getD_some, depth_wrapped inside, Nat.succ_pos]

theorem unwrap_bind (real : Reals) (json : PyValue) : (JsonCell.bind real json).unwrap = wrapped json := by
  unfold JsonCell.bind
  cases stored : json.stored real with
  | none => rw [unwrap_eq, json_holding, Option.bind_some]
  | some number =>
    cases json with
    | int | float => rfl
    | bool | str | null | list | tuple | dict => cases stored

/-- A cell that is a wrapper after the update was a nested one. -/
theorem unwrap_toJsonStr : (cell.toJsonStr real).unwrap.isSome = cell.nested := by
  rw [toJsonStr_eq, JsonCell.written, JsonCell.nested, unwrap_eq cell]
  cases cell.json with
  | none => rfl
  | some json =>
    simp only [Option.map_some, Option.elim_some, unwrap_bind, Option.bind_some]
    cases found : wrapped json with
    | none => rw [Option.getD_none, found, Option.bind_none]
    | some held => rw [Option.getD_some, Option.bind_some]

/-! ## The run -/

def DataCells.depth (row : DataCells) : ℕ := row.value.depth + row.payload.depth

theorem needsUpdate_update : (row.update real).needsUpdate = row.nested := by
  simp only [DataCells.needsUpdate, DataCells.update, unwrap_toJsonStr, DataCells.nested]

theorem depth_update (row : DataCells) (due : row.needsUpdate = true) : (row.update real).depth < row.depth := by
  have value := depth_toJsonStr real row.value
  have payload := depth_toJsonStr real row.payload
  have some_ : 0 < row.value.depth ∨ 0 < row.payload.depth := (Bool.or_eq_true_iff.mp due).imp depth_pos depth_pos
  simp only [DataCells.depth, DataCells.update, value, payload]
  omega

theorem careful_iff (real : Reals) (failing : Option FailingStatement) :
    Careful rowids s failing ↔
      ResumedPass.Careful DataCells.needsUpdate (DataCells.update real) rowids s.state (s.asStart rowids failing) := by
  have all : (rowids.filter fun rowid => (s.state.rows rowid).needsUpdate) = s.updates rowids := updates_eq.symm
  have complete : ResumedPass.Careful DataCells.needsUpdate (DataCells.update real) rowids s.state .complete := by
    unfold ResumedPass.Careful
    split
    · rename_i set
      exact if_pos set
    · trivial
  have cut (index : ℕ) :
      (s.dataUnwrapped = false → ∀ rowid ∈ (s.updates rowids).take index, (s.rows rowid).nested = false) ↔
        ResumedPass.Careful DataCells.needsUpdate (DataCells.update real) rowids s.state (.cut index) := by
    unfold ResumedPass.Careful
    cases set : s.dataUnwrapped with
    | true => exact iff_of_true nofun ((if_pos set).mpr (if_pos set))
    | false =>
      have unset : ¬ s.state.recorded = true := Bool.eq_false_iff.mp set
      simp only [unset, State.reached, all, forall_const, needsUpdate_update]
      exact Iff.rfl
  rcases failing with _ | (_ | _ | index | _)
  · exact iff_of_true trivial complete
  · unfold ResumedPass.Careful
    simp only [Careful, Legacy.asStart, State.reached, all]
    cases set : s.dataUnwrapped with
    | true =>
      have recorded : s.state.recorded = true := set
      simp only [recorded, if_true, forall_const]
    | false =>
      have unset : ¬ s.state.recorded = true := Bool.eq_false_iff.mp set
      simp only [unset, if_false, Bool.false_eq_true, false_imp_iff]
  · refine iff_of_true trivial ((cut 0).mp fun _ => ?_)
    rw [List.take_zero]
    exact List.forall_mem_nil _
  · simp only [Legacy.asStart, Careful]
    split
    · rename_i inside
      rw [← cut index]
      simp only [inside, forall_const]
    · rename_i outside
      exact iff_of_true (fun _ inside => absurd inside outside) complete
  · have whole := cut (s.updates rowids).length
    rw [List.take_length] at whole
    exact whole

theorem carefulStarts_iff (real : Reals) (rowids : List ℕ) (failings : List (Option FailingStatement))
    (s : Legacy) :
    ∃ starts, (s.starts real rowids failings).state =
        s.state.after DataCells.needsUpdate (DataCells.update real) rowids starts ∧
      (CarefulStarts real rowids s failings ↔
        AllCareful DataCells.needsUpdate (DataCells.update real) rowids s.state starts) := by
  induction failings generalizing s with
  | nil => exact ⟨[], rfl, Iff.rfl⟩
  | cons failing failings ih =>
    obtain ⟨starts, after, careful⟩ := ih (s.start real rowids failing)
    refine ⟨s.asStart rowids failing :: starts, ?_, ?_⟩
    · rw [State.after, List.foldl_cons, ← start_eq]
      exact after
    · rw [CarefulStarts, AllCareful, careful, start_eq, careful_iff real]

variable {origin : ℕ → DataCells} {failings : List (Option FailingStatement)}

/-- The columns hold exactly what the UPDATE of a row writes into both of
them. -/
def DataCells.Held (real : Reals) (row : DataCells) : Prop :=
  ∀ json, row.value.written = some json ∨ row.payload.written = some json → json.HeldExactly real

theorem takenOff_update :
    TakenOff row.value (row.update real).value ∧ TakenOff row.payload (row.update real).payload ↔ row.Held real := by
  simp only [DataCells.Held, or_imp, forall_and, ← takenOff_iff real]
  exact Iff.rfl

/-- **Wrappers are removed once.** When a start has completed the pass, one
wrapper is off every cell that had one and no cell is otherwise changed,
exactly if no start that failed had updated a row with nested wrappers, none
after the first success missed the flag and found one, and the columns hold
what the rows that are updated are given. -/
theorem wrappers_removed_iff (completed : (Legacy.starts real rowids ⟨origin, false⟩ failings).dataUnwrapped = true) :
    UnwrappedOnce rowids origin (Legacy.starts real rowids ⟨origin, false⟩ failings) ↔
      CarefulStarts real rowids ⟨origin, false⟩ failings ∧
        ∀ rowid ∈ rowids, (origin rowid).needsUpdate = true → (origin rowid).Held real := by
  obtain ⟨starts, after, careful⟩ := carefulStarts_iff real rowids failings ⟨origin, false⟩
  have tracked : Tracked DataCells.needsUpdate (DataCells.update real) rowids origin (Legacy.state ⟨origin, false⟩) :=
    fun rowid _ => .inl ⟨rfl, by rintro ⟨⟩⟩
  rw [careful]
  generalize Legacy.starts real rowids ⟨origin, false⟩ failings = s at completed after ⊢
  have recorded := congrArg State.recorded after
  have rows := congrArg State.rows after
  rcases once_or_more depth_update starts _ tracked (recorded.symm.trans completed) with
    ⟨all, final⟩ | ⟨careless, rowid, mem, due, light⟩
  · have cells (rowid : ℕ) (mem : rowid ∈ rowids) :
        TakenOff (origin rowid).value (s.rows rowid).value ∧ TakenOff (origin rowid).payload (s.rows rowid).payload ↔
          ((origin rowid).needsUpdate = true → (origin rowid).Held real) := by
      have same : s.rows rowid = once DataCells.needsUpdate (DataCells.update real) (origin rowid) :=
        (congrFun rows rowid).trans (final rowid mem)
      cases due : (origin rowid).needsUpdate with
      | true =>
        rw [once, if_pos due] at same
        rw [same, takenOff_update]
        exact ⟨fun held _ => held, fun held => held rfl⟩
      | false =>
        rw [once, if_neg (Bool.eq_false_iff.mp due)] at same
        obtain ⟨value, payload⟩ := Bool.or_eq_false_iff.mp due
        have value := Option.isSome_eq_false_iff.mp value
        have payload := Option.isSome_eq_false_iff.mp payload
        rw [Option.isNone_iff_eq_none] at value payload
        rw [same]
        exact iff_of_true ⟨takenOff_self value, takenOff_self payload⟩ (by rintro ⟨⟩)
    simp only [UnwrappedOnce, all, true_and]
    exact forall₂_congr cells
  · refine iff_of_false (fun once => ?_) fun both => careless both.1
    obtain ⟨value, payload⟩ := once rowid mem
    rw [← congrFun rows rowid] at light
    have depths : (s.rows rowid).depth = ((origin rowid).update real).depth := by
      simp only [DataCells.depth, DataCells.update, depth_toJsonStr, value.depth, payload.depth]
    have equal : (s.state.rows rowid).depth = ((origin rowid).update real).depth := depths
    omega

/-! ## A pass that fails at its second row -/

def wrapper (held : PyValue) : PyValue := .dict [("value", held)]

def wrappedCell (held : PyValue) : JsonCell := .text (wrapper held) trivial

/-- Two rows, each with a wrapped value. -/
def wrappedRows (first second : PyValue) (rowid : ℕ) : DataCells :=
  if rowid = 1 then ⟨wrappedCell first, .null⟩ else ⟨wrappedCell second, .number (.integer 1)⟩

/-- The second UPDATE fails, and the next start completes the pass. -/
def failsOnce : List (Option FailingStatement) := [some (.update 1), none]

theorem wrappers_removed_after_failure :
    UnwrappedOnce [1, 2] (wrappedRows (.float (.number 21)) (.str "on"))
      (Legacy.starts sampleReals [1, 2] ⟨wrappedRows (.float (.number 21)) (.str "on"), false⟩ failsOnce) := by
  refine (wrappers_removed_iff rfl).mpr
    ⟨⟨fun _ _ rowid mem => ?_, trivial, trivial⟩, fun rowid mem _ json written => ?_⟩
  · have first : rowid = 1 := by
      have listed : rowid ∈ [1] := mem
      exact List.mem_singleton.mp listed
    rw [first]
    rfl
  · rcases List.mem_cons.mp mem with rfl | later
    · rcases written with found | found <;> cases found
      intro number stored
      cases stored
      rfl
    · rw [List.mem_singleton.mp later] at written
      rcases written with found | found <;> cases found
      · intro number stored
        cases stored
      · intro number stored
        cases stored
        rfl

/-- An object that is wrapped twice loses both wrappers, and a float of 16
digits is rounded when its wrapper is taken off. -/
theorem wrapper_removed_twice :
    ((Legacy.starts sampleReals [1, 2] ⟨wrappedRows (wrapper (.int 5)) (.int 6), false⟩ failsOnce).dataUnwrapped =
        true ∧
      ((Legacy.starts sampleReals [1, 2] ⟨wrappedRows (wrapper (.int 5)) (.int 6), false⟩ failsOnce).rows 1).value =
        .number (.integer 5) ∧
      ¬ UnwrappedOnce [1, 2] (wrappedRows (wrapper (.int 5)) (.int 6))
        (Legacy.starts sampleReals [1, 2] ⟨wrappedRows (wrapper (.int 5)) (.int 6), false⟩ failsOnce)) ∧
    ((Legacy.start sampleReals [1] ⟨wrappedRows (.float (.number longFloat)) .null, false⟩ none).rows 1).value =
      .number (.real (.number longFloatRead)) := by
  refine ⟨⟨rfl, rfl, fun once => ?_⟩, rfl⟩
  have first := (once 1 (by decide)).1
  cases first

end KnxTelegramStore.Sqlite
