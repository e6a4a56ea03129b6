import KnxTelegramStore.Sql.Results

/-!
Walking the pages of a query. Each page is a statement of its own, ordered by
`timestamp` alone, so that two of them may arrange equal timestamps
differently. `pages_tile_iff` says for which contents of the table the pages
tile the result all the same.
-/
namespace KnxTelegramStore.Sql
open Paging

variable {tzdb : TzDb} {db : Db} {q : TelegramQuery}

/-- The rows one page returns, of a query that binds (`Binds`) and rows whose
instants can be read. -/
def pageRows (tzdb : TzDb) (db : Db) (q : TelegramQuery) (sorting : Sorting ℤ) : List (TelegramRow ℤ) :=
  (fetchPage db.lookup (matching tzdb db q) q sorting).map Fetched.row

/-- `query_telegrams` (`mcp/tools.py`): where the next page begins. -/
def nextOffset (tzdb : TzDb) (db : Db) (q : TelegramQuery) : Option ℕ :=
  if limitReached tzdb db q then some (q.offset + q.limit) else none

/-- What `query` answers with is the rows of its page, read one by one, and
where the next page begins. -/
theorem query_page {engine : Engine} {sorting : Sorting ℤ} {result : TelegramQueryResult}
    (answered : query engine db q sorting = some result) :
    ∃ fetched, pageRows engine.tzdb db q sorting = fetched.map Fetched.row ∧
      List.Forall₂ (fun row t => Fetched.read row = some t) fetched result.telegrams ∧
      nextOffset engine.tzdb db q = if result.limitReached then some (q.offset + q.limit) else none := by
  obtain ⟨_, answered⟩ := Option.ite_none_right_eq_some.mp answered
  obtain ⟨telegrams, read, made⟩ := Option.bind_eq_some_iff.mp answered
  cases made
  exact ⟨_, rfl, mapM_some_iff.mp read, rfl⟩

theorem nextOffset_eq_some {next : ℕ} (more : nextOffset tzdb db q = some next) :
    next = q.offset + q.limit ∧ next < (matching tzdb db q).length := by
  unfold nextOffset limitReached at more
  split at more
  · rename_i reached
    cases more
    exact ⟨rfl, of_decide_eq_true reached⟩
  · cases more

/-- The rows of all pages from `offset` on. The database sorts anew for each
of them. -/
def walkPages (tzdb : TzDb) (db : Db) (q : TelegramQuery) (positive : 0 < q.limit)
    (sortings : ℕ → Sorting ℤ) (offset : ℕ) : List (TelegramRow ℤ) :=
  pageRows tzdb db { q with offset } (sortings offset) ++
    match _more : nextOffset tzdb db { q with offset } with
    | some next => walkPages tzdb db q positive sortings next
    | none => []
termination_by (matching tzdb db q).length - offset
decreasing_by
  obtain ⟨next_eq, inside⟩ := nextOffset_eq_some _more
  have inside' : next < (matching tzdb db q).length := inside
  have next_eq' : next = offset + q.limit := next_eq
  omega

theorem walkPages_eq (positive : 0 < q.limit) (sortings : ℕ → Sorting ℤ) (offset : ℕ) :
    walkPages tzdb db q positive sortings offset =
      walk (matching tzdb db q).length q.limit positive
        (fun offset => pageRows tzdb db { q with offset } (sortings offset)) offset := by
  rw [walkPages, walk]
  congr 1
  by_cases reached : offset + q.limit < (matching tzdb db q).length
  · have more : nextOffset tzdb db { q with offset } = some (offset + q.limit) := if_pos (decide_eq_true reached)
    rw [if_pos reached]
    split
    · rename_i next found
      rw [more] at found
      cases found
      exact walkPages_eq positive sortings (offset + q.limit)
    · rename_i last
      rw [more] at last
      cases last
  · have last : nextOffset tzdb db { q with offset } = none :=
      if_neg fun more => reached (of_decide_eq_true more)
    rw [if_neg reached]
    split
    · rename_i next found
      rw [last] at found
      cases found
    · rfl
termination_by (matching tzdb db q).length - offset

/-- A page has the rows of its slice, whatever the joins and the last sort
do. -/
theorem pageRows_perm (sorting : Sorting ℤ) :
    (pageRows tzdb db q sorting).Perm
      (slice q.offset q.limit (sorting.page q.orderDescending (matching tzdb db q))) := by
  have sorted := (sorting.result_arranges q.orderDescending
    ((slice q.offset q.limit (sorting.page q.orderDescending (matching tzdb db q))).flatMap
      (fetchRow db.lookup))).perm.map Fetched.row
  have rows (page : List (TelegramRow ℤ)) : (page.flatMap (fetchRow db.lookup)).map Fetched.row = page := by
    rw [List.map_flatMap]
    simp only [fetchRow_row]
    exact List.flatMap_singleton' page
  rwa [rows] at sorted

theorem rows_distinct (db : Db) (q : TelegramQuery) : (matching tzdb db q).Nodup := by
  have distinct : db.telegrams.Nodup := db.rowids_unique.of_map
  unfold matching selected
  split
  · exact distinct
  · exact distinct.filter _

/-- **Pages tile the result** for every behaviour of the database exactly if
no page boundary falls between two matching rows of the same timestamp. -/
theorem pages_tile_iff (tzdb : TzDb) (db : Db) (q : TelegramQuery) (positive : 0 < q.limit) :
    (∀ sortings : ℕ → Sorting ℤ,
        (walkPages tzdb db q positive sortings 0).Perm (matching tzdb db q)) ↔
      ∀ m, q.limit ∣ m → 0 < m → ¬ Straddles ((arrange (fun row => row.timestamp) q.orderDescending
        (matching tzdb db q)).map fun row => row.timestamp) m := by
  rw [← walk_tiles_iff positive (rows_distinct db q)]
  have pages (sortings : ℕ → Sorting ℤ) : (walkPages tzdb db q positive sortings 0).Perm
      (walk (matching tzdb db q).length q.limit positive (fun offset => slice offset q.limit
        ((sortings offset).page q.orderDescending (matching tzdb db q))) 0) := by
    rw [walkPages_eq]
    exact walk_perm positive (fun offset => pageRows_perm (q := { q with offset }) (sortings offset)) 0
  constructor
  · intro tiles sorts each
    have walked := (pages fun offset => Sorting.choosing (each offset)
      ⟨.refl _, .nil⟩).symm.trans (tiles _)
    simpa [Sorting.choosing] using walked
  · intro tiles sortings
    exact (pages sortings).trans (tiles _ fun offset => (sortings offset).page_arranges _ _)

/-! ## Two rows of one timestamp -/

private def twin (rowid : ℕ) : TelegramRow ℤ where
  rowid := rowid
  timestamp := 0
  sourceId := 1
  destinationId := 2
  telegramtypeId := 3
  directionId := 4
  sourceNameId := some 5
  destinationNameId := some 6
  payload := none
  dptMain := none
  dptSub := none
  value := .null
  valueNumeric := none
  rawData := none
  dataSecure := none

private def twins : Db := { telegrams := [twin 1, twin 2], rowids_unique := by decide }

private theorem matching_twins (tzdb : TzDb) (q : TelegramQuery) (free : q.Unrestricted) :
    matching tzdb twins q = [twin 1, twin 2] := by
  rw [matching_unrestricted free]
  rfl

/-- On one page together, they cannot be mixed up. -/
theorem twins_on_one_page :
    (walkPages (fun _ _ _ => 0) twins { limit := 2 } (by decide) (fun _ => .stable) 0).Perm
      (matching (fun _ _ _ => 0) twins { limit := 2 }) := by
  refine (pages_tile_iff (fun _ _ _ => 0) twins { limit := 2 } (by decide)).mpr ?_ fun _ => .stable
  rintro m ⟨page, rfl⟩ nonzero ⟨k, _, after⟩
  have high := (List.getElem?_eq_some_iff.mp after).1
  rw [List.length_map, (arranges_arrange _ _ _).perm.length_eq,
    matching_twins _ _ ⟨rfl, rfl, rfl, rfl, rfl, rfl, rfl, rfl, rfl⟩] at high
  simp only [List.length_cons, List.length_nil] at high nonzero
  omega

/-- Reads equal timestamps from the newest row on where `reversed`. -/
private def eitherWay (reversed : Bool) : Sorting ℤ :=
  { Sorting.stable with
    page := fun descending rows => arrange (fun row => row.timestamp) descending
      (if reversed then rows.reverse else rows)
    page_arranges := fun descending rows => by
      refine ⟨(arranges_arrange _ _ _).perm.trans ?_, (arranges_arrange _ _ _).sorted⟩
      split
      · exact List.reverse_perm rows
      · exact .refl _ }

/-- The page before the boundary and the page after it return the same one of
two rows, and no page the other. -/
theorem twins_on_two_pages :
    ∃ sortings, ¬ (walkPages (fun _ _ _ => 0) twins { limit := 1 } (by decide) sortings 0).Perm
      (matching (fun _ _ _ => 0) twins { limit := 1 }) := by
  refine ⟨fun offset => eitherWay (offset = 1), fun tiles => ?_⟩
  have all := matching_twins (fun _ _ _ => 0) { limit := 1 } ⟨rfl, rfl, rfl, rfl, rfl, rfl, rfl, rfl, rfl⟩
  have page (offset : ℕ) (inside : offset < 2) :
      pageRows (fun _ _ _ => 0) twins { limit := 1, offset } (eitherWay (offset = 1)) = [twin 1] := by
    have ordered (a b : TelegramRow ℤ) (equal : a.timestamp = b.timestamp) :
        arrange (fun row => row.timestamp) true [a, b] = [a, b] :=
      arrange_sorted (by simp [Before, equal])
    have rows : matching (fun _ _ _ => 0) twins { limit := 1, offset } = [twin 1, twin 2] := all
    refine List.perm_singleton.mp ((pageRows_perm _).trans ?_)
    rw [rows]
    have cases : offset = 0 ∨ offset = 1 := by omega
    rcases cases with rfl | rfl
    · show (slice 0 1 (arrange _ true [twin 1, twin 2])).Perm [twin 1]
      rw [ordered (twin 1) (twin 2) rfl]
      exact .refl _
    · show (slice 1 1 (arrange _ true [twin 2, twin 1])).Perm [twin 1]
      rw [ordered (twin 2) (twin 1) rfl]
      exact .refl _
  have walked : walkPages (fun _ _ _ => 0) twins { limit := 1 } (by decide)
      (fun offset => eitherWay (offset = 1)) 0 = [twin 1, twin 1] := by
    rw [walkPages_eq, all, walk, if_pos (by decide), walk, if_neg (by decide), page 0 (by decide)]
    exact congrArg (fun rest => [twin 1] ++ (rest ++ [])) (page 1 (by decide))
  rw [walked, all] at tiles
  have other := tiles.mem_iff.mpr (List.mem_cons_of_mem _ (List.mem_singleton_self (twin 2)))
  simp [twin] at other

end KnxTelegramStore.Sql
