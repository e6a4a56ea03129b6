import KnxTelegramStore.Query.Meaning
import KnxTelegramStore.Sql.Results

/-!
What a query depends on in a timestamp column. Apart from its time bounds no
filter looks at the timestamp, and neither do the joins; so the same rows with
their timestamps in another form are the same result in another form, as long
as that form keeps the order (`fetchPage_map`).
-/
namespace KnxTelegramStore.Sql
open Relational Paging

variable {τ τ' : Type} [LinearOrder τ] [LinearOrder τ'] {f : τ → τ'} {lookup : StringLookup} {q : TelegramQuery}
variable {start stop : Option τ} {rows : List (TelegramRow τ)}

/-- The row passes the filters, the time bounds apart. -/
def Passes (lookup : StringLookup) (q : TelegramQuery) (row : Columns τ) : Prop :=
  Holds (conjunction (filters lookup q none none) row)

instance (row : Columns τ) : Decidable (Passes lookup q row) :=
  inferInstanceAs (Decidable (Holds (conjunction (filters lookup q none none) row)))

theorem holds_bounds (row : Columns τ) :
    Holds (conjunction (filters lookup q start stop) row) ↔
      Passes lookup q row ∧ (∀ bound ∈ start, bound ≤ row.timestamp) ∧ ∀ bound ∈ stop, row.timestamp ≤ bound := by
  have split (start stop : Option τ) : filters lookup q start stop = filters lookup q none none ++
      ((start.toList.map fun bound (row : Columns τ) => some (decide (bound ≤ row.timestamp))) ++
        stop.toList.map fun bound (row : Columns τ) => some (decide (row.timestamp ≤ bound))) := by
    simp [filters]
  rw [split, Passes, conjunction, conjunction, holds_all, holds_all, List.map_append, List.forall_mem_append,
    List.map_append, List.forall_mem_append]
  refine and_congr_right fun _ => and_congr ?_ ?_
  · cases start <;> simp
  · cases stop <;> simp

theorem passes_map (row : TelegramRow τ) :
    Passes lookup q (row.map f).toColumns ↔ Passes lookup q row.toColumns := by
  have ids (category : Category) (values : List String) (column : Columns τ → ℕ) (column' : Columns τ' → ℕ)
      (same : column' (row.map f).toColumns = column row.toColumns) :
      (idFilter lookup category values column').map (· (row.map f).toColumns) =
        (idFilter lookup category values column).map (· row.toColumns) := by
    unfold idFilter
    split
    · rfl
    · simp [same]
  have dpts : (dptConds q).map (· (row.map f).toColumns) = (dptConds q).map (· row.toColumns) := by
    unfold dptConds
    split <;> simp [TelegramRow.map]
  have any_ : (if dptConds (τ := τ') q = [] then []
        else [fun row => any ((dptConds q).map (· row))]).map (· (row.map f).toColumns) =
      (if dptConds (τ := τ) q = [] then []
        else [fun row => any ((dptConds q).map (· row))]).map (· row.toColumns) := by
    have none : dptConds (τ := τ') q = [] ↔ dptConds (τ := τ) q = [] := by
      rw [← List.map_eq_nil_iff (f := (· (row.map f).toColumns)), dpts, List.map_eq_nil_iff]
    simp only [none]
    split
    · rfl
    · simp [dpts]
  have same : (filters lookup q none none).map (· (row.map f).toColumns) =
      (filters lookup q none none).map (· row.toColumns) := by
    simp only [filters, List.map_append, any_, ids .source q.sources Columns.sourceId Columns.sourceId rfl,
      ids .destination q.destinations Columns.destinationId Columns.destinationId rfl,
      ids .telegramtype q.telegramTypes Columns.telegramtypeId Columns.telegramtypeId rfl,
      ids .direction q.directions Columns.directionId Columns.directionId rfl]
    rfl
  rw [Passes, Passes, conjunction, conjunction, same]

/-- Without a context window the WHERE clause is the conjunction. -/
theorem selected_bare (bare : ¬ q.HasWindow) (pivots : List (TelegramRow τ)) (window : τ → τ → Truth) :
    selected rows (whereClause lookup pivots q start stop window) =
      rows.filter fun row => Holds (conjunction (filters lookup q start stop) row.toColumns) := by
  unfold whereClause
  dsimp only
  rw [if_neg fun both => bare both.1]
  split_ifs with free
  · rw [free, selected]
    exact (List.filter_eq_self.mpr fun row _ => rfl).symm
  · rfl

open Classical in
/-- A row is selected with the pivots whose window it is in, or for itself. -/
theorem selected_whereClause (pivots : List (TelegramRow τ)) (window : τ → τ → Truth) :
    selected rows (whereClause lookup pivots q start stop window) = rows.filter fun row =>
      if q.HasWindow ∧ filters lookup q start stop ≠ [] then
        ∃ pivot ∈ pivots, Holds (conjunction (filters lookup q start stop) pivot.toColumns) ∧
          Holds (window row.timestamp pivot.timestamp)
      else Holds (conjunction (filters lookup q start stop) row.toColumns) := by
  by_cases windowed : q.HasWindow ∧ filters lookup q start stop ≠ []
  · have clause : (0 < q.deltaBeforeMs ∨ 0 < q.deltaAfterMs) ∧ filters lookup q start stop ≠ [] := windowed
    simp only [whereClause, if_pos clause, if_pos windowed, selected]
    refine List.filter_congr fun row _ => decide_eq_decide.mpr ?_
    simp only [holds_some, List.any_eq_true, List.mem_filter, decide_eq_true_eq, and_assoc]
  · simp only [if_neg windowed]
    by_cases bare : q.HasWindow
    · have free : filters lookup q start stop = [] := by
        by_contra filtered
        exact windowed ⟨bare, filtered⟩
      simp only [whereClause, free, ne_eq, not_true_eq_false, and_false, if_false, if_true, selected]
      exact (List.filter_eq_self.mpr fun row _ => decide_eq_true rfl).symm
    · rw [selected_bare bare]

/-- Something restricts the query. -/
theorem filters_ne_nil : filters lookup q start stop ≠ [] ↔
    q.sources ≠ [] ∨ q.destinations ≠ [] ∨ q.telegramTypes ≠ [] ∨ q.directions ≠ [] ∨ q.dptMains ≠ [] ∨
      q.dpts ≠ [] ∨ start.isSome ∨ stop.isSome := by
  have ids (category : Category) (values : List String) (column : Columns τ → ℕ) :
      idFilter lookup category values column = [] ↔ values = [] := by
    unfold idFilter
    split <;> simp [*]
  have dpts : dptConds (τ := τ) q = [] ↔ q.dptMains = [] ∧ q.dpts = [] := by
    unfold dptConds
    split <;> simp [*]
  have bound (bound : Option τ) (condition : τ → Columns τ → Truth) : bound.toList.map condition = [] ↔
    ¬ bound.isSome := by
    cases bound <;> simp
  have any_ : (if dptConds (τ := τ) q = [] then [] else [fun row : Columns τ => any ((dptConds q).map (· row))]) = [] ↔
      q.dptMains = [] ∧ q.dpts = [] := by
    rw [← dpts]
    split
    · exact iff_of_true rfl ‹_›
    · exact iff_of_false (List.cons_ne_nil _ _) ‹_›
  simp only [ne_eq, filters, List.append_eq_nil_iff, ids, any_, bound]
  tauto

omit [LinearOrder τ] in
theorem selected_sublist {clause : Option (Columns τ → Truth)} : (selected rows clause).Sublist rows := by
  cases clause with
  | none => exact List.Sublist.refl rows
  | some condition => exact List.filter_sublist

omit [LinearOrder τ] in
theorem mem_selected {clause : Option (Columns τ → Truth)} {row : TelegramRow τ} (mem : row ∈ selected rows clause) :
    row ∈ rows :=
  selected_sublist.subset mem

/-- A row of the page with its timestamp in another form. -/
def Fetched.map (f : τ → τ') (fetched : Fetched τ) : Fetched τ' := { fetched with row := fetched.row.map f }

omit [LinearOrder τ] [LinearOrder τ'] in
theorem fetchRow_map (row : TelegramRow τ) :
    fetchRow lookup (row.map f) = (fetchRow lookup row).map (Fetched.map f) := by
  simp only [fetchRow, List.bind_eq_flatMap, List.map_flatMap]
  rfl

/-- Every row of the page is one of the selected rows. -/
theorem mem_fetchPage {sorting : Sorting τ} {fetched : Fetched τ} (mem : fetched ∈ fetchPage lookup rows q sorting) :
    fetched.row ∈ rows ∧ fetched ∈ fetchRow lookup fetched.row := by
  obtain ⟨row, held, made⟩ := List.mem_flatMap.mp ((sorting.result_arranges _ _).perm.mem_iff.mp mem)
  have image := List.mem_map_of_mem (f := Fetched.row) made
  rw [fetchRow_row, List.mem_singleton] at image
  rw [image]
  exact ⟨(sorting.page_arranges _ _).perm.mem_iff.mp (mem_slice held), made⟩

/-- The same page, in another form that keeps the order of its rows. -/
theorem fetchPage_map (f : τ → τ') (sorting : Sorting τ)
    (keeps : ∀ a ∈ rows, ∀ b ∈ rows, a.timestamp ≤ b.timestamp → f a.timestamp ≤ f b.timestamp) :
    ∃ sorting' : Sorting τ', fetchPage lookup (rows.map (TelegramRow.map f)) q sorting' =
      (fetchPage lookup rows q sorting).map (Fetched.map f) := by
  have page := sorting.page_arranges q.orderDescending rows
  have kept {a b : τ} (mem : ∃ row ∈ rows, row.timestamp = a) (mem' : ∃ row ∈ rows, row.timestamp = b)
      (before : Before q.orderDescending a b) : Before q.orderDescending (f a) (f b) := by
    obtain ⟨row, own, rfl⟩ := mem
    obtain ⟨row', own', rfl⟩ := mem'
    unfold Before at before ⊢
    split at before
    · rename_i descending
      rw [if_pos descending]
      exact keeps row' own' row own before
    · rename_i ascending
      rw [if_neg ascending]
      exact keeps row own row' own' before
  have page' : Arranges (fun row : TelegramRow τ' => row.timestamp) q.orderDescending
      (rows.map (TelegramRow.map f)) ((sorting.page q.orderDescending rows).map (TelegramRow.map f)) := by
    refine Arranges.map ⟨page.perm, page.sorted.imp_of_mem fun mem mem' before => ?_⟩
    exact kept ⟨_, page.perm.mem_iff.mp mem, rfl⟩ ⟨_, page.perm.mem_iff.mp mem', rfl⟩ before
  let joined := (slice q.offset q.limit (sorting.page q.orderDescending rows)).flatMap (fetchRow lookup)
  have result := sorting.result_arranges q.orderDescending joined
  have own {fetched : Fetched τ} (mem : fetched ∈ fetchPage lookup rows q sorting) :
      ∃ row ∈ rows, row.timestamp = fetched.row.timestamp := ⟨fetched.row, (mem_fetchPage mem).1, rfl⟩
  have result' : Arranges (fun fetched : Fetched τ' => fetched.row.timestamp) q.orderDescending
      (joined.map (Fetched.map f)) ((sorting.result q.orderDescending joined).map (Fetched.map f)) :=
    Arranges.map ⟨result.perm, result.sorted.imp_of_mem fun mem mem' before => kept (own mem) (own mem') before⟩
  refine ⟨.choosing page' result', ?_⟩
  have rows' : (slice q.offset q.limit ((sorting.page q.orderDescending rows).map (TelegramRow.map f))).flatMap
      (fetchRow lookup) = joined.map (Fetched.map f) := by
    rw [slice_map, List.flatMap_map, List.map_flatMap]
    exact List.flatMap_congr fun row _ => fetchRow_map row
  simp only [fetchPage, Sorting.choosing, and_self, if_true, rows']
  rfl

/-- What a page that can be read has been read from. -/
theorem fetchPage_reads {decode : τ → Option DateTime} {sorting : Sorting τ} {telegrams : List StoredTelegram}
    (read : (fetchPage lookup rows q sorting).mapM (Fetched.readAs decode) = some telegrams) :
    ∃ arranged, Arranges (fun row => row.timestamp) q.orderDescending rows arranged ∧
      List.Forall₂ (fun row t => decode row.timestamp = some t.timestamp) (slice q.offset q.limit arranged)
        telegrams := by
  have whole := sorting.page_arranges q.orderDescending rows
  have result := sorting.result_arranges q.orderDescending
    ((slice q.offset q.limit (sorting.page q.orderDescending rows)).flatMap (fetchRow lookup))
  have again : Arranges (fun row : TelegramRow τ => row.timestamp) q.orderDescending
      (slice q.offset q.limit (sorting.page q.orderDescending rows))
      ((fetchPage lookup rows q sorting).map Fetched.row) := by
    have image : Arranges (fun row : TelegramRow τ => row.timestamp) _ _ _ := Arranges.map (f := Fetched.row) result
    rw [List.map_flatMap] at image
    simp only [fetchRow_row, List.flatMap_singleton'] at image
    exact image
  obtain ⟨arranged, arranges, same⟩ := whole.resort again
  refine ⟨arranged, arranges, ?_⟩
  rw [same, List.forall₂_map_left_iff]
  refine (mapM_some_iff.mp read).imp fun fetched t made => ?_
  obtain ⟨timestamp, instant, made⟩ := Option.bind_eq_some_iff.mp made
  obtain ⟨_, _, made⟩ := Option.bind_eq_some_iff.mp made
  obtain ⟨_, _, made⟩ := Option.bind_eq_some_iff.mp made
  obtain ⟨_, _, made⟩ := Option.bind_eq_some_iff.mp made
  obtain ⟨_, _, made⟩ := Option.bind_eq_some_iff.mp made
  cases made
  exact instant

end KnxTelegramStore.Sql
