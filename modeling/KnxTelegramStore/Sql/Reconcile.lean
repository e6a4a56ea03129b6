import KnxTelegramStore.Sql.LastValues
import Mathlib.Data.List.Lex
import Mathlib.Data.Set.Finite.Lemmas
import Mathlib.Data.String.Basic
import Mathlib.Order.WithBot

/-!
What `_reconcile_last_ga_telegrams` (`base_sql.py`) makes of any two tables,
with summaries that are stale, missing, ahead of every telegram, or of a
destination that has no telegrams. Where telegrams tie, the texts of their
columns decide, and where these are the same too, the database.
-/
namespace KnxTelegramStore.Sql

/-- `CAST(... AS TEXT)` of each type of column, in a type with the order the
database sorts texts in; `none` is NULL. -/
structure TextCasts (T : Type) where
  integer : ℤ → T
  payload : Option Payload → Option T
  value : PyValue → Option T
  double : PyFloat → T
  string : String → T
  boolean : Bool → T

/-- `ASC NULLS FIRST`. -/
def nullsFirst {T : Type} (text : Option T) : WithBot T := text.elim ⊥ WithBot.some

/-- `tie_breaker`. -/
def TextCasts.tieBreaker {T : Type} (casts : TextCasts T) (row : Columns ℤ) : List (WithBot T) :=
  [some (casts.integer row.sourceId), some (casts.integer row.telegramtypeId), some (casts.integer row.directionId),
    row.sourceNameId.map fun id => casts.integer id, row.destinationNameId.map fun id => casts.integer id,
    casts.payload row.payload, row.dptMain.map casts.integer, row.dptSub.map casts.integer, casts.value row.value,
    row.valueNumeric.map casts.double, row.rawData.map casts.string, row.dataSecure.map casts.boolean].map nullsFirst

variable {T : Type} [LinearOrder T] {casts : TextCasts T} {db db' : Db} {reconciled reconciled' : Bool}
variable {summary : Columns ℤ}

/-- `row_number()` over the candidates of a destination. Which of several with
the same texts comes first is the database's choice. -/
structure RowNumber (casts : TextCasts T) extends TieBreaker where
  least : ∀ {rows row}, first rows = some row → ∀ other ∈ rows, casts.tieBreaker row ≤ casts.tieBreaker other
  total : ∀ {rows}, rows ≠ [] → (first rows).isSome

/-- Equal texts in the order of the rows. -/
def RowNumber.stable (casts : TextCasts T) : RowNumber casts where
  first rows := rows.find? fun row => rows.all fun other => casts.tieBreaker row ≤ casts.tieBreaker other
  first_mem found := List.mem_of_find?_eq_some found
  least := by
    intro rows row found other mem
    have all : rows.all fun other => casts.tieBreaker row ≤ casts.tieBreaker other := by
      simpa only using List.find?_some found
    exact of_decide_eq_true (List.all_eq_true.mp all other mem)
  total := by
    intro rows nonempty
    obtain ⟨row, mem, least⟩ := Set.exists_min_image {row | row ∈ rows} casts.tieBreaker rows.finite_toSet
      (List.exists_mem_of_ne_nil rows nonempty)
    rw [List.find?_isSome]
    exact ⟨row, mem, List.all_eq_true.mpr fun other own => decide_eq_true (least other own)⟩

variable {rank rank' : RowNumber casts}

/-- No telegram of its destination is newer. -/
def Db.UpToDate (db : Db) (summary : Columns ℤ) : Prop :=
  ∀ row ∈ db.telegrams, row.destinationId = summary.destinationId → row.timestamp ≤ summary.timestamp

/-- One of the telegrams with the greatest timestamp of their destination, and
among these with the least texts. -/
structure Fallback (casts : TextCasts T) (db : Db) (summary : Columns ℤ) : Prop where
  stored : summary ∈ db.telegrams.map TelegramRow.toColumns
  latest : db.UpToDate summary
  least : ∀ row ∈ db.telegrams, row.destinationId = summary.destinationId → row.timestamp = summary.timestamp →
    casts.tieBreaker summary ≤ casts.tieBreaker row.toColumns

/-- Every destination has one summary: the one it had, if that was up to date,
and else a telegram. -/
structure Reconciled (casts : TextCasts T) (db after : Db) : Prop where
  lookup : after.lookup = db.lookup
  telegrams : after.telegrams = db.telegrams
  unique : (after.lastGa.map Columns.destinationId).Nodup
  destinations : ∀ destinationId, destinationId ∈ after.lastGa.map Columns.destinationId ↔
    destinationId ∈ db.telegrams.map (fun row => row.destinationId) ∨
      destinationId ∈ db.lastGa.map Columns.destinationId
  kept : ∀ summary ∈ db.lastGa, db.UpToDate summary → summary ∈ after.lastGa
  made : ∀ summary ∈ after.lastGa, summary ∈ db.lastGa ∧ db.UpToDate summary ∨
    (∀ old ∈ db.lastGa, old.destinationId = summary.destinationId → ¬ db.UpToDate old) ∧ Fallback casts db summary

/-! ## What is inserted -/

omit [LinearOrder T] in
theorem upToDate_iff : db.newerTelegram summary = false ↔ db.UpToDate summary := by
  rw [Db.newerTelegram, List.any_eq_false]
  refine forall₂_congr fun row _ => ?_
  simp only [decide_eq_true_eq, not_and, not_lt]

theorem fallback_of_ranked (mem : summary ∈ db.ranked rank.toTieBreaker) : Fallback casts db summary := by
  obtain ⟨destinationId, _, found⟩ := List.mem_filterMap.mp mem
  have own := List.mem_filter.mp (rank.first_mem found)
  have candidate := List.mem_filter.mp own.1
  have same : summary.destinationId = destinationId := of_decide_eq_true own.2
  have latest : db.UpToDate summary := by
    intro row held sameRow
    have all := List.all_eq_true.mp candidate.2 row held
    exact of_decide_eq_true all sameRow
  refine ⟨candidate.1, latest, fun row held sameRow tied => ?_⟩
  refine rank.least found row.toColumns (List.mem_filter.mpr ⟨List.mem_filter.mpr ⟨List.mem_map_of_mem held, ?_⟩, ?_⟩)
  · refine List.all_eq_true.mpr fun other own' => decide_eq_true fun sameOther => ?_
    rw [tied]
    exact latest other own' (sameOther.trans sameRow)
  · exact decide_eq_true (sameRow.trans same)

/-- The destination of a telegram has a candidate. -/
theorem exists_candidate {row : TelegramRow ℤ} (mem : row ∈ db.telegrams) :
    ∃ candidate ∈ db.candidates, candidate.destinationId = row.destinationId := by
  obtain ⟨winners, present⟩ := Newest.mem_newest Columns.destinationId Columns.timestamp
    (db.telegrams.map TelegramRow.toColumns)
  obtain ⟨winner, held, same⟩ := present row.toColumns (List.mem_map_of_mem mem)
  have wins := (winners winner).mp held
  refine ⟨winner, List.mem_filter.mpr ⟨wins.mem, List.all_eq_true.mpr fun other own => ?_⟩, same⟩
  exact decide_eq_true fun sameOther => wins.le (List.mem_map_of_mem own) sameOther

theorem exists_ranked (rank : RowNumber casts) {row : TelegramRow ℤ} (mem : row ∈ db.telegrams) :
    ∃ ranked ∈ db.ranked rank.toTieBreaker, ranked.destinationId = row.destinationId := by
  obtain ⟨candidate, held, same⟩ := exists_candidate mem
  have own : candidate ∈ db.candidates.filter (·.destinationId = row.destinationId) :=
    List.mem_filter.mpr ⟨held, decide_eq_true same⟩
  obtain ⟨ranked, found⟩ := Option.isSome_iff_exists.mp (rank.total (List.ne_nil_of_mem own))
  refine ⟨ranked, List.mem_filterMap.mpr ⟨row.destinationId, ?_, found⟩, ?_⟩
  · rw [List.mem_dedup, ← same]
    exact List.mem_map_of_mem held
  · exact of_decide_eq_true (List.mem_filter.mp (rank.first_mem found)).2

theorem ranked_unique (tieBreaker : TieBreaker) : ((db.ranked tieBreaker).map Columns.destinationId).Nodup := by
  have each : ∀ destinationId row, tieBreaker.first
    (db.candidates.filter (·.destinationId = destinationId)) = some row →
      row.destinationId = destinationId := fun destinationId row found =>
    of_decide_eq_true (List.mem_filter.mp (tieBreaker.first_mem found)).2
  have all : ∀ ids : List ℕ, ids.Nodup → ((ids.filterMap fun destinationId =>
      tieBreaker.first (db.candidates.filter (·.destinationId = destinationId))).map Columns.destinationId).Nodup := by
    intro ids distinct
    refine (distinct.sublist ?_)
    induction ids with
    | nil => exact List.Sublist.refl _
    | cons id ids ih =>
      rw [List.filterMap_cons]
      split
      · exact (ih distinct.of_cons).cons _
      · rename_i row found
        rw [List.map_cons, each id row found]
        exact (ih distinct.of_cons).cons_cons _
  exact all _ (List.nodup_dedup _)

/-- Of rows of different destinations, those are inserted whose destination has
no summary. -/
theorem foldl_insertMissing {rows summaries : List (Columns ℤ)} (distinct : (rows.map Columns.destinationId).Nodup) :
    rows.foldl insertMissing summaries =
      summaries ++ rows.filter fun row => row.destinationId ∉ summaries.map Columns.destinationId := by
  induction rows generalizing summaries with
  | nil => rw [List.foldl_nil, List.filter_nil, List.append_nil]
  | cons row rows ih =>
    rw [List.map_cons, List.nodup_cons] at distinct
    rw [List.foldl_cons, ih distinct.2, insertMissing, List.filter_cons]
    by_cases known : row.destinationId ∈ summaries.map Columns.destinationId
    · simp only [known, if_true, not_true_eq_false, decide_false, Bool.false_eq_true, if_false]
    · simp only [known, if_false, not_false_eq_true, decide_true, if_true, List.append_assoc, List.singleton_append]
      refine congrArg (summaries ++ row :: ·) (List.filter_congr fun other mem => decide_eq_decide.mpr ?_)
      have differ : other.destinationId ≠ row.destinationId := fun same =>
        distinct.1 (same ▸ List.mem_map_of_mem mem)
      simp [differ]

/-! ## What a reconcile leaves -/

theorem lastGa_reconcile (due : reconciled = false ∨ db.lastGa = []) (tieBreaker : TieBreaker) :
    (db.reconcile tieBreaker reconciled).lastGa = db.lastGa.filter (fun summary => !db.newerTelegram summary) ++
      (db.ranked tieBreaker).filter fun row =>
        row.destinationId ∉ (db.lastGa.filter fun summary => !db.newerTelegram summary).map Columns.destinationId := by
  have pass : ¬ (!db.lastGa.isEmpty && reconciled) = true := by
    rcases due with unset | empty
    · rw [unset, Bool.and_false]
      exact Bool.false_ne_true
    · rw [empty]
      exact Bool.false_ne_true
  rw [Db.reconcile, if_neg pass]
  exact foldl_insertMissing (ranked_unique tieBreaker)

omit [LinearOrder T] in
theorem mem_upToDate : summary ∈ db.lastGa.filter (fun summary => !db.newerTelegram summary) ↔
    summary ∈ db.lastGa ∧ db.UpToDate summary := by
  rw [List.mem_filter, Bool.not_eq_true', upToDate_iff]

theorem reconciled_reconcile (due : reconciled = false ∨ db.lastGa = []) :
    Reconciled casts db (db.reconcile rank.toTieBreaker reconciled) where
  lookup := (reconcile_frame db _ _).1
  telegrams := (reconcile_frame db _ _).2
  unique := Db.destinations_unique _
  destinations := by
    intro destinationId
    rw [lastGa_reconcile due, List.map_append, List.mem_append]
    constructor
    · rintro (kept | made)
      · obtain ⟨summary, mem, rfl⟩ := List.mem_map.mp kept
        exact .inr (List.mem_map_of_mem (mem_upToDate.mp mem).1)
      · obtain ⟨row, mem, rfl⟩ := List.mem_map.mp made
        obtain ⟨stored, held, rfl⟩ := List.mem_map.mp (fallback_of_ranked (List.mem_of_mem_filter mem)).stored
        exact .inl (List.mem_map_of_mem held)
    · intro present
      -- a destination whose summary is not kept has a telegram
      by_cases kept : destinationId ∈
          (db.lastGa.filter fun summary => !db.newerTelegram summary).map Columns.destinationId
      · exact .inl kept
      have stored : ∃ row ∈ db.telegrams, row.destinationId = destinationId := by
        rcases present with telegram | summarised
        · exact List.mem_map.mp telegram
        · obtain ⟨summary, mem, rfl⟩ := List.mem_map.mp summarised
          by_contra absent
          have current : db.UpToDate summary := fun row held same => absurd ⟨row, held, same⟩ absent
          exact kept (List.mem_map_of_mem (mem_upToDate.mpr ⟨mem, current⟩))
      obtain ⟨row, held, rfl⟩ := stored
      obtain ⟨ranked, mem, same⟩ := exists_ranked rank held
      refine .inr (List.mem_map.mpr ⟨ranked, List.mem_filter.mpr ⟨mem, decide_eq_true ?_⟩, same⟩)
      rwa [same]
  kept := by
    intro summary mem current
    rw [lastGa_reconcile due, List.mem_append]
    exact .inl (mem_upToDate.mpr ⟨mem, current⟩)
  made := by
    intro summary mem
    rw [lastGa_reconcile due, List.mem_append] at mem
    rcases mem with kept | made
    · exact .inl (mem_upToDate.mp kept)
    · obtain ⟨ranked, fresh⟩ := List.mem_filter.mp made
      refine .inr ⟨fun old own same current => ?_, fallback_of_ranked ranked⟩
      refine of_decide_eq_true fresh ?_
      rw [← same]
      exact List.mem_map_of_mem (mem_upToDate.mpr ⟨own, current⟩)

/-- What is reconciled is left alone from then on, whatever the flag says. -/
theorem Reconciled.again (done : Reconciled casts db db') : db'.reconcile rank.toTieBreaker reconciled = db' := by
  have current : ∀ summary ∈ db'.lastGa, db'.UpToDate summary := by
    intro summary mem
    rw [Db.UpToDate, done.telegrams]
    rcases done.made summary mem with ⟨_, current⟩ | ⟨_, fallback⟩
    · exact current
    · exact fallback.latest
  have kept : db'.lastGa.filter (fun summary => !db'.newerTelegram summary) = db'.lastGa := by
    refine List.filter_eq_self.mpr fun summary mem => ?_
    rw [Bool.not_eq_true', upToDate_iff]
    exact current summary mem
  have known : ∀ row ∈ db'.ranked rank.toTieBreaker, row.destinationId ∈ db'.lastGa.map Columns.destinationId := by
    intro row mem
    have stored := (fallback_of_ranked mem).stored
    rw [done.telegrams] at stored
    obtain ⟨telegram, held, rfl⟩ := List.mem_map.mp stored
    exact (done.destinations _).mpr (.inl (List.mem_map_of_mem held))
  unfold Db.reconcile
  split
  · rfl
  · simp only [kept, insertMissing_known known]

/-- The same rows and summaries, in any order. -/
structure SameContent (db db' : Db) : Prop where
  rows : (db'.telegrams.map TelegramRow.toColumns).Perm (db.telegrams.map TelegramRow.toColumns)
  lastGa : db'.lastGa.Perm db.lastGa

omit [LinearOrder T] in
theorem SameContent.symm (same : SameContent db db') : SameContent db' db := ⟨same.rows.symm, same.lastGa.symm⟩

omit [LinearOrder T] in
theorem upToDate_columns : db.UpToDate summary ↔ ∀ row ∈ db.telegrams.map TelegramRow.toColumns,
    row.destinationId = summary.destinationId → row.timestamp ≤ summary.timestamp := by
  rw [List.forall_mem_map]
  exact Iff.rfl

omit [LinearOrder T] in
theorem SameContent.upToDate (same : SameContent db db') : db'.UpToDate summary ↔ db.UpToDate summary := by
  simp only [upToDate_columns, same.rows.mem_iff]

theorem SameContent.fallback (same : SameContent db db') (fallback : Fallback casts db summary) :
    Fallback casts db' summary where
  stored := same.rows.mem_iff.mpr fallback.stored
  latest := same.upToDate.mpr fallback.latest
  least := by
    intro row mem
    obtain ⟨row', mem', equal⟩ := List.mem_map.mp (same.rows.mem_iff.mp (List.mem_map_of_mem mem))
    rw [← equal]
    exact fallback.least row' mem'

/-- Two fallbacks of a destination tie. -/
theorem Fallback.ties {summary' : Columns ℤ} (fallback : Fallback casts db summary)
    (fallback' : Fallback casts db summary') (same : summary'.destinationId = summary.destinationId) :
    summary'.timestamp = summary.timestamp ∧ casts.tieBreaker summary' = casts.tieBreaker summary := by
  obtain ⟨row, mem, rfl⟩ := List.mem_map.mp fallback.stored
  obtain ⟨row', mem', rfl⟩ := List.mem_map.mp fallback'.stored
  have tied := le_antisymm (fallback.latest row' mem' same) (fallback'.latest row mem same.symm)
  exact ⟨tied, le_antisymm (fallback'.least row mem same.symm tied.symm) (fallback.least row' mem' same tied)⟩

/-- Row order decides at most between telegrams with the same texts. -/
theorem Reconciled.agree {after after' : Db} (done : Reconciled casts db after) (done' : Reconciled casts db' after')
    (same : SameContent db db') (mem : summary ∈ after.lastGa) :
    ∃ summary' ∈ after'.lastGa, summary'.destinationId = summary.destinationId ∧ (summary' = summary ∨
      Fallback casts db summary ∧ Fallback casts db summary' ∧ summary'.timestamp = summary.timestamp ∧
        casts.tieBreaker summary' = casts.tieBreaker summary) := by
  rcases done.made summary mem with ⟨own, current⟩ | ⟨stale, fallback⟩
  · exact ⟨summary, done'.kept summary (same.lastGa.mem_iff.mpr own) (same.upToDate.mpr current), rfl, .inl rfl⟩
  · obtain ⟨row, held, equal⟩ := List.mem_map.mp (same.rows.mem_iff.mpr fallback.stored)
    obtain ⟨summary', mem', destination⟩ := List.mem_map.mp ((done'.destinations summary.destinationId).mpr
      (.inl (List.mem_map.mpr ⟨row, held, congrArg Columns.destinationId equal⟩)))
    refine ⟨summary', mem', destination, .inr ⟨fallback, ?_⟩⟩
    rcases done'.made summary' mem' with ⟨own', current'⟩ | ⟨_, fallback'⟩
    · exact absurd (same.upToDate.mp current') (stale summary' (same.lastGa.mem_iff.mp own') destination)
    · exact ⟨same.symm.fallback fallback', fallback.ties (same.symm.fallback fallback') destination⟩

/-- The texts of its columns tell every telegram from the others of its
destination and timestamp. -/
def Distinguishes (casts : TextCasts T) (db : Db) : Prop :=
  ∀ a ∈ db.telegrams.map TelegramRow.toColumns, ∀ b ∈ db.telegrams.map TelegramRow.toColumns,
    a.destinationId = b.destinationId → a.timestamp = b.timestamp → casts.tieBreaker a = casts.tieBreaker b → a = b

theorem Reconciled.subset {after after' : Db} (done : Reconciled casts db after) (done' : Reconciled casts db' after')
    (same : SameContent db db') (distinguishes : Distinguishes casts db) : after.lastGa ⊆ after'.lastGa := by
  intro summary mem
  obtain ⟨summary', mem', destination, equal | ⟨fallback, fallback', tied, texts⟩⟩ := done.agree done' same mem
  · exact equal ▸ mem'
  · exact distinguishes summary' fallback'.stored summary fallback.stored destination tied texts ▸ mem'

/-- **A reconcile is exact, conservative and idempotent**, whatever the two
tables hold. The order of their rows decides at most between telegrams that tie
in their texts, and not at all where the texts tell telegrams apart. -/
theorem reconcile_exact (rank : RowNumber casts) (db : Db) (due : reconciled = false ∨ db.lastGa = []) :
    Reconciled casts db (db.reconcile rank.toTieBreaker reconciled) ∧
      (∀ (rank' : RowNumber casts) reconciled', (db.reconcile rank.toTieBreaker reconciled).reconcile rank'.toTieBreaker
        reconciled' = db.reconcile rank.toTieBreaker reconciled) ∧
      ∀ db' (rank' : RowNumber casts) reconciled', SameContent db db' → (reconciled' = false ∨ db'.lastGa = []) →
        (∀ summary ∈ (db.reconcile rank.toTieBreaker reconciled).lastGa,
          ∃ summary' ∈ (db'.reconcile rank'.toTieBreaker reconciled').lastGa,
            summary'.destinationId = summary.destinationId ∧ summary'.timestamp = summary.timestamp ∧
              casts.tieBreaker summary' = casts.tieBreaker summary) ∧
        (Distinguishes casts db → (db'.reconcile rank'.toTieBreaker reconciled').lastGa.Perm
          (db.reconcile rank.toTieBreaker reconciled).lastGa) := by
  have done : Reconciled casts db (db.reconcile rank.toTieBreaker reconciled) := reconciled_reconcile due
  refine ⟨done, fun rank' reconciled' => done.again, fun db' rank' reconciled' same due' => ?_⟩
  have done' : Reconciled casts db' (db'.reconcile rank'.toTieBreaker reconciled') := reconciled_reconcile due'
  refine ⟨fun summary mem => ?_, fun distinguishes => ?_⟩
  · obtain ⟨summary', mem', destination, rfl | ⟨_, _, tied, texts⟩⟩ := done.agree done' same mem
    · exact ⟨summary', mem', rfl, rfl, rfl⟩
    · exact ⟨summary', mem', destination, tied, texts⟩
  · have distinguishes' : Distinguishes casts db' := fun a mem b mem' =>
      distinguishes a (same.rows.mem_iff.mp mem) b (same.rows.mem_iff.mp mem')
    rw [List.perm_ext_iff_of_nodup (List.Nodup.of_map _ done'.unique) (List.Nodup.of_map _ done.unique)]
    exact fun summary => ⟨fun mem => done'.subset done same.symm distinguishes' mem,
      fun mem => done.subset done' same distinguishes mem⟩

/-! ## Two numbers that print alike -/

/-- `CAST(... AS TEXT)` of a REAL from 0.1 up to 1: SQLite prints fifteen
digits, without the zeros at their end. -/
def sqliteReal (x : ℚ) : String :=
  "0." ++ String.ofList ((Nat.toDigits 10 (x * 10 ^ 15 + 1 / 2).floor.toNat).reverse.dropWhile (· = '0')).reverse

/-- SQLite's texts, of JSON columns those of a number or of nothing. -/
def sqliteCasts : TextCasts String where
  integer := toString
  payload
    | none => some "null"
    | some (.int n) => some (toString n)
    | some _ => none
  value
    | .float (.number x) => some (sqliteReal x)
    | _ => none
  double
    | .number x => sqliteReal x
    | _ => "Inf"
  string text := text
  boolean
    | true => "1"
    | false => "0"

/-- A telegram at the epoch. -/
def measured (x : ℚ) : Columns ℤ where
  timestamp := 0
  sourceId := 1
  destinationId := 2
  telegramtypeId := 3
  directionId := 4
  sourceNameId := none
  destinationNameId := none
  payload := none
  dptMain := some 14
  dptSub := none
  value := .float (.number x)
  valueNumeric := some (.number x)
  rawData := none
  dataSecure := none

/-- The floats `0.3` and `0.1 + 0.2`. -/
def threeTenths : ℚ := 5404319552844595 / 18014398509481984
def oneAndTwoTenths : ℚ := 5404319552844596 / 18014398509481984

/-- Two telegrams that tie, and no summaries. -/
def tied (x y : ℚ) : Db where
  telegrams := [⟨measured x, 1⟩, ⟨measured y, 2⟩]
  rowids_unique := by
    show [1, 2].Nodup
    decide

theorem texts_alike : sqliteCasts.tieBreaker (measured threeTenths) = sqliteCasts.tieBreaker
    (measured oneAndTwoTenths) := by
  have same : sqliteReal threeTenths = sqliteReal oneAndTwoTenths := by decide +kernel
  simp only [TextCasts.tieBreaker, measured, sqliteCasts, Option.map_some, same]

/-- Of rows with the same texts the first one is taken. -/
theorem reconcile_tied {x y : ℚ} (alike : sqliteCasts.tieBreaker (measured x) = sqliteCasts.tieBreaker (measured y)) :
    ((tied x y).reconcile (RowNumber.stable sqliteCasts).toTieBreaker false).lastGa = [measured x] := by
  have candidates : (tied x y).candidates = [measured x, measured y] := rfl
  have first : (RowNumber.stable sqliteCasts).first [measured x, measured y] = some (measured x) := by
    have all : [measured x, measured y].all fun other =>
        sqliteCasts.tieBreaker (measured x) ≤ sqliteCasts.tieBreaker other := by
      simp only [List.all_cons, le_refl, alike.le, decide_true, List.all_nil, Bool.and_self]
    simp only [RowNumber.stable, List.find?_cons, all]
  have ranked : (tied x y).ranked (RowNumber.stable sqliteCasts).toTieBreaker = [measured x] := by
    rw [Db.ranked, candidates]
    have filtered : [measured x, measured y].filter (·.destinationId = 2) = [measured x, measured y] := rfl
    have ids : ([measured x, measured y].map Columns.destinationId).dedup = [2] := rfl
    rw [ids, List.filterMap_cons_some (by rw [filtered]; exact first), List.filterMap_nil]
  rw [lastGa_reconcile (.inl rfl), ranked]
  rfl

/-- Two telegrams whose values print alike: the order of the rows decides. -/
theorem order_decides :
    SameContent (tied threeTenths oneAndTwoTenths) (tied oneAndTwoTenths threeTenths) ∧
      ((tied threeTenths oneAndTwoTenths).reconcile (RowNumber.stable sqliteCasts).toTieBreaker false).lastGa =
        [measured threeTenths] ∧
      ((tied oneAndTwoTenths threeTenths).reconcile (RowNumber.stable sqliteCasts).toTieBreaker false).lastGa =
        [measured oneAndTwoTenths] ∧
      measured threeTenths ≠ measured oneAndTwoTenths := by
  refine ⟨⟨List.Perm.swap _ _ _, List.Perm.nil⟩, reconcile_tied texts_alike, reconcile_tied texts_alike.symm,
    fun same => ?_⟩
  have value := congrArg Columns.valueNumeric same
  simp only [measured, Option.some.injEq, PyFloat.number.injEq] at value
  exact absurd value (by decide +kernel)

/-- A quarter and a half print differently: the quarter is taken in both orders. -/
theorem quarter_before_half :
    ((tied (1 / 2) (1 / 4)).reconcile (RowNumber.stable sqliteCasts).toTieBreaker false).lastGa.Perm
      ((tied (1 / 4) (1 / 2)).reconcile (RowNumber.stable sqliteCasts).toTieBreaker false).lastGa := by
  have same : SameContent (tied (1 / 4) (1 / 2)) (tied (1 / 2) (1 / 4)) := ⟨List.Perm.swap _ _ _, List.Perm.nil⟩
  obtain ⟨_, _, order⟩ := reconcile_exact (RowNumber.stable sqliteCasts) (tied (1 / 4) (1 / 2)) (.inl rfl)
  refine (order _ (RowNumber.stable sqliteCasts) false same (.inl rfl)).2 fun a mem b mem' _ _ texts => ?_
  have differ : sqliteCasts.tieBreaker (measured (1 / 4)) ≠ sqliteCasts.tieBreaker (measured (1 / 2)) := by
    decide +kernel
  rcases List.mem_pair.mp mem with rfl | rfl
  · rcases List.mem_pair.mp mem' with rfl | rfl
    · rfl
    · exact absurd texts differ
  · rcases List.mem_pair.mp mem' with rfl | rfl
    · exact absurd texts.symm differ
    · rfl

end KnxTelegramStore.Sql
