import KnxTelegramStore.Query.Memory
import KnxTelegramStore.Sql.Results

/-!
The SQL engine answers the same queries as the memory store. On the rows of an
interned store a filter on ids is a filter on strings, and under three-valued
logic a NULL selects nothing, so that the WHERE clause says what the query
means (`holds_filters`, `matching_means`); `engines_agree` puts the two
engines side by side.
-/
namespace KnxTelegramStore.Sql
open Relational Paging

variable {engine : Engine} {lookup : StringLookup} {t : StoredTelegram} {s : Store} {q : TelegramQuery}

theorem holds_idFilter {category : Category} {value : String} {values : List String} {column : Columns ℤ → ℕ}
    {row : Columns ℤ} (named : lookup.Names (category, value) (column row)) :
    (∀ condition ∈ idFilter lookup category values column, Holds (condition row)) ↔
      values = [] ∨ value ∈ values := by
  unfold idFilter
  split
  · rename_i free
    simp [free]
  · rename_i restricted
    simp only [List.mem_singleton, forall_eq, holds_isIn, idsOf, List.mem_map, List.mem_filter, decide_eq_true_eq,
      Option.some.injEq, exists_eq_right', restricted, false_or]
    constructor
    · rintro ⟨other, ⟨mem, category_eq, selected⟩, same⟩
      have equal := StringLookup.eq_of_id mem named same
      rw [equal] at selected
      exact selected
    · intro selected
      exact ⟨_, ⟨named, rfl, selected⟩, rfl⟩

theorem holds_dptConds (row : Columns ℤ) :
    (∃ condition ∈ dptConds q, Holds (condition row)) ↔
      (∃ main ∈ q.dptMains, row.dptMain = some main) ∨
        ∃ entry ∈ q.dpts, row.dptMain = some entry.1 ∧ ∀ sub ∈ entry.2, row.dptSub = some sub := by
  have mains : (∃ condition ∈ (if q.dptMains = [] then []
      else [fun row : Columns ℤ => isIn row.dptMain q.dptMains]), Holds (condition row)) ↔
      ∃ main ∈ q.dptMains, row.dptMain = some main := by
    split
    · rename_i free
      simp [free]
    · simp
  simp only [dptConds, List.mem_append, or_and_right, exists_or, mains, List.mem_map, exists_exists_and_eq_and]
  refine or_congr .rfl (exists_congr fun entry => and_congr_right fun _ => ?_)
  obtain ⟨main, _ | sub⟩ := entry <;> simp

theorem dptConds_nil : dptConds (τ := ℤ) q = [] ↔ q.dptMains = [] ∧ q.dpts = [] := by
  unfold dptConds
  split <;> simp_all

/-- The base filters hold of a row exactly if the query selects its telegram. -/
theorem holds_filters {row : Columns ℤ} (stores : Stores engine lookup row t) :
    Holds (conjunction (filters lookup q (q.startTime.map (DateTime.toMicros engine.tzdb))
      (q.endTime.map (DateTime.toMicros engine.tzdb))) row) ↔ q.Selects engine.tzdb t := by
  have labels := stores.labels
  have dpts : (∀ condition ∈ (if dptConds (τ := ℤ) q = [] then []
      else [fun row : Columns ℤ => any ((dptConds q).map (· row))]), Holds (condition row)) ↔
      (q.dptMains = [] ∧ q.dpts = []) ∨ q.SelectsDpt t := by
    rw [← dptConds_nil, TelegramQuery.SelectsDpt, ← stores.dptMain, ← stores.dptSub, ← holds_dptConds]
    split
    · rename_i free
      simp [free]
    · rename_i restricted
      simp [restricted]
  have bounds : (∀ condition ∈ (q.startTime.map (DateTime.toMicros engine.tzdb)).toList.map
        fun bound (row : Columns ℤ) => (some (decide (bound ≤ row.timestamp)) : Truth), Holds (condition row)) ↔
      ∀ start ∈ q.startTime, start.toMicros engine.tzdb ≤ t.instant engine.tzdb := by
    cases q.startTime <;> simp [stores.timestamp, StoredTelegram.instant]
  have bounds' : (∀ condition ∈ (q.endTime.map (DateTime.toMicros engine.tzdb)).toList.map
        fun bound (row : Columns ℤ) => (some (decide (row.timestamp ≤ bound)) : Truth), Holds (condition row)) ↔
      ∀ stop ∈ q.endTime, t.instant engine.tzdb ≤ stop.toMicros engine.tzdb := by
    cases q.endTime <;> simp [stores.timestamp, StoredTelegram.instant]
  rw [conjunction, holds_all, List.forall_mem_map]
  simp only [filters, List.forall_mem_append, dpts, bounds, bounds', holds_idFilter labels.source,
    holds_idFilter labels.destination, holds_idFilter labels.telegramtype, holds_idFilter labels.direction]
  constructor
  · rintro ⟨⟨⟨⟨⟨⟨sources, destinations⟩, telegramTypes⟩, directions⟩, dpts⟩, start⟩, stop⟩
    exact ⟨sources, destinations, telegramTypes, directions, dpts, start, stop⟩
  · rintro ⟨sources, destinations, telegramTypes, directions, dpts, start, stop⟩
    exact ⟨⟨⟨⟨⟨⟨sources, destinations⟩, telegramTypes⟩, directions⟩, dpts⟩, start⟩, stop⟩

/-- No condition at all: the query selects everything. -/
theorem selects_of_nil {row : Columns ℤ} (stores : Stores engine lookup row t)
    (free : filters (τ := ℤ) lookup q (q.startTime.map (DateTime.toMicros engine.tzdb))
      (q.endTime.map (DateTime.toMicros engine.tzdb)) = []) : q.Selects engine.tzdb t := by
  refine (holds_filters stores).mp ?_
  rw [free]
  rfl

open Classical in
/-- The WHERE clause says what the query means. -/
theorem matching_means {written : List (TelegramRow ℤ × StoredTelegram)} (rows : written.map Prod.fst = s.db.telegrams)
    (stores : ∀ entry ∈ written, Stores engine s.db.lookup entry.1.toColumns entry.2)
    (deltaBefore : 0 ≤ q.deltaBeforeMs) (deltaAfter : 0 ≤ q.deltaAfterMs) :
    matching engine.tzdb s.db q =
      (written.filter fun entry => q.Means engine.tzdb (written.map Prod.snd) entry.2).map Prod.fst := by
  have instant {entry : TelegramRow ℤ × StoredTelegram} (mem : entry ∈ written) :
      entry.1.timestamp = entry.2.instant engine.tzdb := (stores entry mem).timestamp
  have keep {condition : Columns ℤ → Truth}
      (means : ∀ entry ∈ written, Holds (condition entry.1.toColumns) ↔
        q.Means engine.tzdb (written.map Prod.snd) entry.2) :
      selected s.db.telegrams (some condition) =
        (written.filter fun entry => q.Means engine.tzdb (written.map Prod.snd) entry.2).map Prod.fst := by
    rw [selected, ← rows, List.filter_map]
    refine congrArg (List.map Prod.fst) (List.filter_congr fun entry mem => ?_)
    simp only [Function.comp_apply, means entry mem]
  unfold matching whereClause
  dsimp only
  split_ifs with window free
  · -- the rows with a pivot near them
    refine keep fun entry mem => ?_
    have positive : q.HasWindow := window.1
    simp only [TelegramQuery.Means, if_pos positive, holds_some, List.any_eq_true, List.mem_filter,
      decide_eq_true_eq, ← rows, List.mem_map, exists_exists_and_eq_and, Sql.window, holds_and]
    constructor
    · rintro ⟨_, ⟨⟨pivot, own, rfl⟩, selects⟩, before, after⟩
      refine ⟨pivot, own, (holds_filters (stores pivot own)).mp selects, ?_, ?_⟩
      · rwa [← instant own, ← instant mem]
      · rwa [← instant own, ← instant mem]
    · rintro ⟨pivot, own, selects, before, after⟩
      refine ⟨pivot.1, ⟨⟨pivot, own, rfl⟩, (holds_filters (stores pivot own)).mpr selects⟩, ?_, ?_⟩
      · rwa [instant own, instant mem]
      · rwa [instant own, instant mem]
  · -- without a condition every telegram is selected, and its own pivot
    rw [selected, ← rows]
    refine congrArg (List.map Prod.fst) (List.filter_eq_self.mpr fun entry mem => decide_eq_true ?_).symm
    have selects := selects_of_nil (stores entry mem) free
    unfold TelegramQuery.Means
    split
    · exact ⟨entry.2, List.mem_map_of_mem mem, selects, by omega, by omega⟩
    · exact selects
  · refine keep fun entry mem => ?_
    have bare : ¬ q.HasWindow := fun positive => window ⟨positive, free⟩
    rw [TelegramQuery.Means, if_neg bare]
    exact holds_filters (stores entry mem)

theorem readBack_instant (engine : Engine) (t : StoredTelegram) :
    (readBack engine t).instant engine.tzdb = t.instant engine.tzdb := DateTime.toMicros_ofMicros _

/-- **The SQL engine answers** every query that the driver takes on an interned
store. -/
theorem Interned.query_answers (interned : Interned engine s) (sorting : Sorting ℤ)
    (readable : ∀ t ∈ s.stored, Readable engine t) (deltaBefore : 0 ≤ q.deltaBeforeMs)
    (deltaAfter : 0 ≤ q.deltaAfterMs) (binds : Binds engine q) :
    ∃ result, query engine s.db q sorting = some result ∧
      Answers engine.tzdb q s.stored (readBack engine) result := by
  classical
  have matched := matching_means interned.rows interned.stores deltaBefore deltaAfter
  have own {entry : TelegramRow ℤ × StoredTelegram} (mem : entry ∈ s.written.filter fun entry =>
      q.Means engine.tzdb (s.written.map Prod.snd) entry.2) : entry ∈ s.written := List.mem_of_mem_filter mem
  obtain ⟨arranged, arranges, reads⟩ := answer_reads sorting matched
    (fun entry mem => interned.stores entry (own mem))
    fun entry mem => readable entry.2 (stored_of_written (own mem))
  have originals : (s.written.filter fun entry => q.Means engine.tzdb (s.written.map Prod.snd) entry.2).map Prod.snd =
      meant engine.tzdb q s.stored := by
    rw [meant, ← interned.originals, List.filter_map]
    rfl
  have images : Arranges (StoredTelegram.instant engine.tzdb) q.orderDescending (meant engine.tzdb q s.stored)
      (arranged.map Prod.snd) := by
    rw [← originals]
    refine Arranges.map ⟨arranges.perm, arranges.sorted.imp_of_mem fun mem mem' before => ?_⟩
    have instant {entry : TelegramRow ℤ × StoredTelegram} (mem : entry ∈ arranged) :
        entry.1.timestamp = entry.2.instant engine.tzdb :=
      (interned.stores entry (own (arranges.perm.mem_iff.mp mem))).timestamp
    rw [instant mem, instant mem'] at before
    exact before
  have answers := answers_page (readBack engine) images fun t _ => readBack_instant engine t
  refine ⟨_, (query_eq binds s.db sorting).trans reads, ?_⟩
  rw [← originals, List.length_map, slice_map, List.map_map] at answers
  exact answers

/-! ## Both engines -/

/-- Everything around the sample telegram. -/
private def aroundSample : TelegramQuery := { startTime := some (.ofMicros 0), deltaBeforeMs := 1000 }

private theorem comparable_around : Comparable sampleEngine.tzdb aroundSample [sampleTelegram] where
  aware t mem := by
    rw [List.mem_singleton.mp mem]
    rfl
  startTime d bound := by
    cases bound
    rfl
  endTime _ bound := nomatch bound
  deltaBefore := by decide
  deltaAfter := by decide
  timedeltas _ := ⟨rfl, rfl⟩
  range _ t mem := by
    rw [List.mem_singleton.mp mem]
    exact ⟨rfl, rfl⟩
  offsets a b first second _ := by
    have utc {d : DateTime} (involved : Involved aroundSample [sampleTelegram] d) :
      d.utcoffset sampleEngine.tzdb = 0 := by
      cases involved with
      | stored mem =>
        rw [List.mem_singleton.mp mem]
        rfl
      | startTime bound =>
        cases bound
        rfl
      | endTime bound => cases bound
      | lowBound _ mem moved | highBound _ mem moved =>
        rw [List.mem_singleton.mp mem] at moved
        cases moved
        rfl
    rw [utc first, utc second]

/-- A zone that sets its clocks back from 03:00 to 02:00 on 27 October 2024. -/
private def autumn : TzDb := fun _ wall fold =>
  if wall < 1729994400000000 then 7200000000
  else if wall < 1729998000000000 ∧ fold = false then 7200000000
  else 3600000000

private def inAutumn : Engine := ⟨.sqlite, autumn, sampleReals⟩

/-- 02:10 in the second pass of the repeated hour. -/
private def secondPass : StoredTelegram :=
  { sampleTelegram with timestamp := { wall := 1729995000000000, fold := true, tzinfo := some (.zone 0) } }

/-- From 02:30 in the first pass on. -/
private def fromFirstPass : TelegramQuery :=
  { startTime := some { wall := 1729996200000000, tzinfo := some (.zone 0) } }

private theorem part_in_repeated_hour :
    ∃ s fromMemory fromSql, Store.run inAutumn (storedOnce secondPass) = some s ∧
      s.stored = [secondPass] ∧
      ([[secondPass]].foldl MemoryStore.storeMany { maxTelegrams := 500 }).query autumn fromFirstPass =
        some fromMemory ∧
      query inAutumn s.db fromFirstPass .stable = some fromSql ∧
      fromMemory.totalCount = 0 ∧ fromSql.totalCount = 1 := by
  obtain ⟨s, ran, stored⟩ : ∃ s, Store.run inAutumn (storedOnce secondPass) = some s ∧
    s.stored = [secondPass] := ⟨_, rfl, rfl⟩
  have readable : ∀ t ∈ s.stored, Readable inAutumn t := by
    rw [stored]
    simp only [List.mem_singleton, forall_eq]
    rfl
  obtain ⟨fromSql, reads, answers⟩ := (run_interned ran).query_answers (q := fromFirstPass) .stable
    readable (by decide) (by decide) (by decide)
  have later : ([[secondPass]].foldl MemoryStore.storeMany { maxTelegrams := 500 }).query autumn fromFirstPass =
      some { telegrams := [], totalCount := 0, limitReached := false } := by
    have earlier : MemoryStore.inRange autumn fromFirstPass (MemoryStore.filtered fromFirstPass
      ([[secondPass]].foldl MemoryStore.storeMany { maxTelegrams := 500 }).telegrams) = some [] := rfl
    rw [MemoryStore.query, earlier]
    simp [MemoryStore.withContext, TelegramQuery.HasWindow, fromFirstPass, Fallible.sort?, slice]
  have selects : fromFirstPass.Means inAutumn.tzdb [secondPass] secondPass := by
    refine ⟨.inl rfl, .inl rfl, .inl rfl, .inl rfl, .inl ⟨rfl, rfl⟩, fun start bound => ?_,
      by rintro _ ⟨⟩⟩
    cases bound
    decide
  refine ⟨s, _, fromSql, ran, stored, later, reads, rfl, ?_⟩
  rw [answers.totalCount, meant, stored]
  simp [selects]

/-- A context of a thousand million days. -/
private def pastTimedelta : TelegramQuery := { deltaBeforeMs := 86400000000000000 }

/-- Without a telegram no datetime leaves its range, but the delta itself is
no `timedelta`. -/
private theorem part_past_timedelta :
    ∃ fromSql, MemoryStore.query autumn { maxTelegrams := 500 } pastTimedelta = none ∧
      query inAutumn {} pastTimedelta .stable = some fromSql ∧ fromSql.totalCount = 0 := by
  have overflow : DateTime.timedelta? 86400000000000000 = none := rfl
  have raises : MemoryStore.query autumn { maxTelegrams := 500 } pastTimedelta = none := by
    simp [MemoryStore.query, MemoryStore.inRange, MemoryStore.within, MemoryStore.withContext,
      MemoryStore.inContext, TelegramQuery.HasWindow, pastTimedelta, overflow]
  have ran : Store.run inAutumn [] = some {} := rfl
  obtain ⟨fromSql, reads, answers⟩ := (run_interned ran).query_answers (q := pastTimedelta) .stable
    (fun _ mem => absurd mem List.not_mem_nil) (by decide) (by decide) (by decide)
  exact ⟨fromSql, raises, reads, by rw [answers.totalCount]; rfl⟩

/-- An instant before the year 1 is kept in memory, and cannot be read back
from a column. -/
private theorem part_before_range :
    ∃ s fromMemory, Store.run sampleEngine (storedOnce beforeRange) = some s ∧ s.stored = [beforeRange] ∧
      ([[beforeRange]].foldl MemoryStore.storeMany { maxTelegrams := 500 }).query sampleEngine.tzdb {} =
        some fromMemory ∧
      fromMemory.totalCount = 1 ∧ query sampleEngine s.db {} .stable = none := by
  obtain ⟨s, ran, stored⟩ : ∃ s, Store.run sampleEngine (storedOnce beforeRange) = some s ∧
    s.stored = [beforeRange] := ⟨_, rfl, rfl⟩
  have unread := (run_interned ran).reads_none (t := beforeRange) (q := {}) .stable
    (by rw [stored]; exact List.mem_singleton_self _) rfl ⟨rfl, rfl, rfl, rfl, rfl, rfl, rfl, rfl, rfl⟩
    (by rw [stored]; decide)
  have kept : MemoryStore.inRange sampleEngine.tzdb {} (MemoryStore.filtered {}
    ([[beforeRange]].foldl MemoryStore.storeMany { maxTelegrams := 500 }).telegrams) = some [beforeRange] := rfl
  refine ⟨s, { telegrams := [beforeRange], totalCount := 1, limitReached := false }, ran, stored, ?_, rfl, unread⟩
  rw [MemoryStore.query, kept]
  simp [MemoryStore.withContext, TelegramQuery.HasWindow, Fallible.sort?, slice, beforeRange, DateTime.lt?]

/-- Nothing is stored, and SQLite does not take the parameters. -/
private def PartsUnbound (q : TelegramQuery) : Prop :=
  MemoryStore.query sampleEngine.tzdb { maxTelegrams := 500 } q =
      some { telegrams := [], totalCount := 0, limitReached := false } ∧
    query sampleEngine {} q .stable = none

private theorem parts_unbound :
    PartsUnbound { limit := 2 ^ 63 } ∧ PartsUnbound { dptMains := [2 ^ 63] } ∧
      PartsUnbound { sources := ["1.1.1"], deltaBeforeMs := 17280000000000000 } := by
  have valid : DateTime.timedelta? 17280000000000000 = some 17280000000000000000 := rfl
  have none_ : DateTime.timedelta? 0 = some 0 := rfl
  refine ⟨⟨?_, rfl⟩, ⟨?_, rfl⟩, ?_, rfl⟩ <;>
    simp [MemoryStore.query, MemoryStore.inRange, MemoryStore.within, MemoryStore.withContext, MemoryStore.inContext,
      MemoryStore.filtered_eq, Fallible.sort?, Fallible.filter?, TelegramQuery.HasWindow, valid, none_, slice]

end KnxTelegramStore.Sql
