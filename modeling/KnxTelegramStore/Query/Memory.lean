import KnxTelegramStore.Lib.Fallible
import KnxTelegramStore.Query.Meaning

/-!
`MemoryStore` (`backends/memory.py`): a bounded deque, and a query that
filters it, collects the context of every pivot by bisecting the sorted pivot
timestamps, sorts, and cuts out a page. Python compares and moves datetimes by
their digits within one `tzinfo`; `query_answers` is about queries where no
offset changes among the values at hand (`Comparable`).
-/
namespace KnxTelegramStore
open Paging Fallible

variable {tzdb : TzDb} {q : TelegramQuery} {telegrams : List StoredTelegram}

/-- `MemoryStore`, a deque that keeps at most `maxTelegrams`. -/
structure MemoryStore where
  maxTelegrams : ℕ
  telegrams : List StoredTelegram := []
  bounded : telegrams.length ≤ maxTelegrams := by simp

namespace MemoryStore

/-- `store_many`: the deque drops its oldest telegrams. -/
def storeMany (store : MemoryStore) (batch : List StoredTelegram) : MemoryStore where
  maxTelegrams := store.maxTelegrams
  telegrams := (store.telegrams ++ batch).drop ((store.telegrams ++ batch).length - store.maxTelegrams)
  bounded := by
    rw [List.length_drop]
    omega

/-- Batches that fit are all kept, in their order. -/
theorem storeMany_all {store : MemoryStore} {batches : List (List StoredTelegram)}
    (room : (store.telegrams ++ batches.flatten).length ≤ store.maxTelegrams) :
    (batches.foldl storeMany store).telegrams = store.telegrams ++ batches.flatten := by
  induction batches generalizing store with
  | nil => simp
  | cons batch batches ih =>
    simp only [List.flatten_cons, List.length_append] at room
    have kept : (store.storeMany batch).telegrams = store.telegrams ++ batch := by
      have none_dropped : (store.telegrams ++ batch).length - store.maxTelegrams = 0 := by
        rw [List.length_append]
        omega
      show (store.telegrams ++ batch).drop _ = _
      rw [none_dropped, List.drop_zero]
    have later : ((store.storeMany batch).telegrams ++ batches.flatten).length ≤ store.maxTelegrams := by
      rw [kept]
      simp only [List.length_append]
      omega
    rw [List.foldl_cons, ih later, kept, List.flatten_cons, List.append_assoc]

/-! ## `MemoryStore.query` -/

/-- A filter on one field, if the query restricts it. -/
def narrow (values : List String) (field : StoredTelegram → String) (results : List StoredTelegram) :
    List StoredTelegram :=
  if values = [] then results else results.filter fun t => field t ∈ values

def dptMatch (q : TelegramQuery) (t : StoredTelegram) : Bool :=
  if q.dptMains.any fun main => t.dptMain = some main then true
  else q.dpts.any fun entry => t.dptMain = some entry.1 ∧ (entry.2 = none ∨ entry.2 = t.dptSub)

/-- The multi-value filters. -/
def filtered (q : TelegramQuery) (telegrams : List StoredTelegram) : List StoredTelegram :=
  let results := narrow q.sources StoredTelegram.source telegrams
  let results := narrow q.destinations StoredTelegram.destination results
  let results := narrow q.telegramTypes StoredTelegram.telegramtype results
  let results := narrow q.directions StoredTelegram.direction results
  if q.dptMains ≠ [] ∨ q.dpts ≠ [] then results.filter (dptMatch q) else results

/-- One time bound, if the query has it. -/
def within (bound : Option DateTime) (keep : DateTime → StoredTelegram → Option Bool)
    (results : List StoredTelegram) : Option (List StoredTelegram) :=
  match bound with
  | none => some results
  | some bound => filter? (keep bound) results

/-- The time range. -/
def inRange (tzdb : TzDb) (q : TelegramQuery) (results : List StoredTelegram) : Option (List StoredTelegram) := do
  let results ← within q.startTime (fun start t => DateTime.le? tzdb start t.timestamp) results
  within q.endTime (fun stop t => DateTime.le? tzdb t.timestamp stop) results

/-- Whether a telegram is in the window of a pivot, read off the first pivot
not before its own lower bound. -/
def nearPivot (tzdb : TzDb) (pivotTimestamps : List DateTime) (deltaBefore deltaAfter : ℤ) (t : StoredTelegram) :
    Option Bool := do
  let lowBound ← t.timestamp.add? (-deltaAfter)
  let highBound ← t.timestamp.add? deltaBefore
  let idx ← bisectLeft? (fun pivot => DateTime.lt? tzdb pivot lowBound) pivotTimestamps 0 pivotTimestamps.length
  match pivotTimestamps[idx]? with
  | none => some false
  | some pivot => DateTime.le? tzdb pivot highBound

/-- Re-collects all telegrams within any pivot's window. -/
def inContext (tzdb : TzDb) (q : TelegramQuery) (telegrams results : List StoredTelegram) :
    Option (List StoredTelegram) := do
  let pivotTimestamps ← sort? (DateTime.lt? tzdb) false (results.map StoredTelegram.timestamp)
  let deltaBefore ← DateTime.timedelta? q.deltaBeforeMs
  let deltaAfter ← DateTime.timedelta? q.deltaAfterMs
  filter? (nearPivot tzdb pivotTimestamps deltaBefore deltaAfter) telegrams

/-- The time-delta context window. -/
def withContext (tzdb : TzDb) (q : TelegramQuery) (telegrams results : List StoredTelegram) :
    Option (List StoredTelegram) :=
  if q.HasWindow then inContext tzdb q telegrams results else some results

/-- `MemoryStore.query`; `none` is a `TypeError` or an `OverflowError`. -/
def query (tzdb : TzDb) (store : MemoryStore) (q : TelegramQuery) : Option TelegramQueryResult := do
  let results ← inRange tzdb q (filtered q store.telegrams)
  let results ← withContext tzdb q store.telegrams results
  let results ← sort? (fun a b => DateTime.lt? tzdb a.timestamp b.timestamp) q.orderDescending results
  return {
    telegrams := slice q.offset q.limit results
    totalCount := results.length
    limitReached := q.offset + q.limit < results.length }

end MemoryStore

/-! ## Datetimes that compare as instants -/

/-- The datetimes a query compares. -/
inductive Involved (q : TelegramQuery) (telegrams : List StoredTelegram) : DateTime → Prop where
  | stored {t : StoredTelegram} (mem : t ∈ telegrams) : Involved q telegrams t.timestamp
  | startTime {d : DateTime} (bound : q.startTime = some d) : Involved q telegrams d
  | endTime {d : DateTime} (bound : q.endTime = some d) : Involved q telegrams d
  | lowBound {t : StoredTelegram} {d : DateTime} (window : q.HasWindow) (mem : t ∈ telegrams)
      (moved : t.timestamp.add? (-(q.deltaAfterMs * 1000)) = some d) : Involved q telegrams d
  | highBound {t : StoredTelegram} {d : DateTime} (window : q.HasWindow) (mem : t ∈ telegrams)
      (moved : t.timestamp.add? (q.deltaBeforeMs * 1000) = some d) : Involved q telegrams d

/-- Aware datetimes, valid deltas that stay in range, and among the datetimes
that are compared one UTC offset for each `tzinfo`. -/
structure Comparable (tzdb : TzDb) (q : TelegramQuery) (telegrams : List StoredTelegram) : Prop where
  aware : ∀ t ∈ telegrams, t.timestamp.Aware
  startTime : ∀ start ∈ q.startTime, start.Aware
  endTime : ∀ stop ∈ q.endTime, stop.Aware
  deltaBefore : 0 ≤ q.deltaBeforeMs
  deltaAfter : 0 ≤ q.deltaAfterMs
  timedeltas : q.HasWindow → (DateTime.timedelta? q.deltaBeforeMs).isSome ∧
    (DateTime.timedelta? q.deltaAfterMs).isSome
  range : q.HasWindow → ∀ t ∈ telegrams, (t.timestamp.add? (-(q.deltaAfterMs * 1000))).isSome ∧
    (t.timestamp.add? (q.deltaBeforeMs * 1000)).isSome
  offsets : ∀ a b, Involved q telegrams a → Involved q telegrams b → a.tzinfo = b.tzinfo →
    a.utcoffset tzdb = b.utcoffset tzdb

namespace Comparable

variable (comparable : Comparable tzdb q telegrams)
include comparable

theorem aware_of_involved {d : DateTime} (involved : Involved q telegrams d) : d.Aware := by
  cases involved with
  | stored mem => exact comparable.aware _ mem
  | startTime bound => exact comparable.startTime d bound
  | endTime bound => exact comparable.endTime d bound
  | lowBound _ mem moved | highBound _ mem moved =>
    unfold DateTime.Aware
    rw [(DateTime.add?_tzinfo moved).1]
    exact comparable.aware _ mem

theorem lt {a b : DateTime} (first : Involved q telegrams a) (second : Involved q telegrams b) :
    DateTime.lt? tzdb a b = some (decide (a.toMicros tzdb < b.toMicros tzdb)) :=
  DateTime.lt?_of_offset (comparable.aware_of_involved first) (comparable.aware_of_involved second)
    (comparable.offsets a b first second)

theorem le {a b : DateTime} (first : Involved q telegrams a) (second : Involved q telegrams b) :
    DateTime.le? tzdb a b = some (decide (a.toMicros tzdb ≤ b.toMicros tzdb)) :=
  DateTime.le?_of_offset (comparable.aware_of_involved first) (comparable.aware_of_involved second)
    (comparable.offsets a b first second)

end Comparable

/-! ## The memory store answers -/

namespace MemoryStore

theorem narrow_eq (values : List String) (field : StoredTelegram → String) (results : List StoredTelegram) :
    narrow values field results = results.filter fun t => values = [] ∨ field t ∈ values := by
  unfold narrow
  split
  · rename_i free
    simp [free]
  · rename_i restricted
    simp [restricted]

theorem dptMatch_eq (q : TelegramQuery) (t : StoredTelegram) : dptMatch q t = true ↔ q.SelectsDpt t := by
  have subtype (sub : Option ℤ) : (sub = none ∨ sub = t.dptSub) ↔ ∀ s ∈ sub, t.dptSub = some s := by
    cases sub with
    | none => simp
    | some s => simp [eq_comm]
  simp only [dptMatch, TelegramQuery.SelectsDpt, ← subtype]
  split
  · rename_i main
    simp only [List.any_eq_true, decide_eq_true_eq] at main
    simp [main]
  · rename_i other
    simp only [List.any_eq_true, decide_eq_true_eq] at other
    simp [other]

open Classical in
/-- The multi-value filters, all at once. -/
theorem filtered_eq (q : TelegramQuery) (telegrams : List StoredTelegram) :
    filtered q telegrams = telegrams.filter fun t =>
      (q.sources = [] ∨ t.source ∈ q.sources) ∧ (q.destinations = [] ∨ t.destination ∈ q.destinations) ∧
        (q.telegramTypes = [] ∨ t.telegramtype ∈ q.telegramTypes) ∧
        (q.directions = [] ∨ t.direction ∈ q.directions) ∧ ((q.dptMains = [] ∧ q.dpts = []) ∨ q.SelectsDpt t) := by
  unfold filtered
  simp only [narrow_eq]
  split
  · rename_i grouped
    have some_dpt : ¬ (q.dptMains = [] ∧ q.dpts = []) := by
      rintro ⟨mains, dpts⟩
      simp [mains, dpts] at grouped
    simp only [List.filter_filter]
    refine List.filter_congr fun t _ => ?_
    rw [Bool.eq_iff_iff]
    simp only [Bool.and_eq_true, dptMatch_eq, decide_eq_true_eq, some_dpt, false_or]
    constructor
    · rintro ⟨dpt, direction, telegramtype, destination, source⟩
      exact ⟨source, destination, telegramtype, direction, dpt⟩
    · rintro ⟨source, destination, telegramtype, direction, dpt⟩
      exact ⟨dpt, direction, telegramtype, destination, source⟩
  · rename_i ungrouped
    have no_dpt : q.dptMains = [] ∧ q.dpts = [] := by
      simpa only [not_or, not_not] using ungrouped
    simp only [List.filter_filter]
    refine List.filter_congr fun t _ => ?_
    rw [Bool.eq_iff_iff]
    simp only [Bool.and_eq_true, decide_eq_true_eq, no_dpt, and_self, true_or, and_true]
    constructor
    · rintro ⟨direction, telegramtype, destination, source⟩
      exact ⟨source, destination, telegramtype, direction⟩
    · rintro ⟨source, destination, telegramtype, direction⟩
      exact ⟨direction, telegramtype, destination, source⟩

theorem within_eq {bound : Option DateTime} {keep : DateTime → StoredTelegram → Option Bool}
    {P : DateTime → StoredTelegram → Prop} [∀ d t, Decidable (P d t)] {results : List StoredTelegram}
    (each : ∀ d ∈ bound, ∀ t ∈ results, keep d t = some (decide (P d t))) :
    within bound keep results = some (results.filter fun t => ∀ d ∈ bound, P d t) := by
  cases bound with
  | none => simp [within]
  | some d =>
    refine filter?_decided fun t mem => ?_
    rw [each d rfl t mem]
    simp

open Classical in
/-- All filters: the telegrams the query selects, where the bounds compare as
instants. -/
theorem inRange_selects
    (started : ∀ start ∈ q.startTime, ∀ t ∈ telegrams,
      DateTime.le? tzdb start t.timestamp = some (decide (start.toMicros tzdb ≤ t.instant tzdb)))
    (ended : ∀ stop ∈ q.endTime, ∀ t ∈ telegrams,
      DateTime.le? tzdb t.timestamp stop = some (decide (t.instant tzdb ≤ stop.toMicros tzdb))) :
    inRange tzdb q (filtered q telegrams) = some (telegrams.filter fun t => q.Selects tzdb t) := by
  have own {t : StoredTelegram} (mem : t ∈ filtered q telegrams) : t ∈ telegrams := by
    rw [filtered_eq] at mem
    exact List.mem_of_mem_filter mem
  have after := within_eq (P := fun start t => start.toMicros tzdb ≤ t.instant tzdb)
    fun start bound t (mem : t ∈ filtered q telegrams) => started start bound t (own mem)
  have before (results : List StoredTelegram) (held : ∀ t ∈ results, t ∈ telegrams) :=
    within_eq (P := fun stop t => t.instant tzdb ≤ stop.toMicros tzdb)
      fun stop bound t (mem : t ∈ results) => ended stop bound t (held t mem)
  unfold inRange
  rw [after]
  simp only [Option.bind_eq_bind, Option.bind_some]
  rw [before _ fun t mem => own (List.mem_of_mem_filter mem), filtered_eq, List.filter_filter, List.filter_filter]
  refine congrArg some (List.filter_congr fun t _ => ?_)
  rw [Bool.eq_iff_iff]
  simp only [Bool.and_eq_true, decide_eq_true_eq]
  constructor
  · rintro ⟨⟨stop, start⟩, sources, destinations, telegramTypes, directions, dpts⟩
    exact ⟨sources, destinations, telegramTypes, directions, dpts, start, stop⟩
  · rintro ⟨sources, destinations, telegramTypes, directions, dpts, start, stop⟩
    exact ⟨⟨stop, start⟩, sources, destinations, telegramTypes, directions, dpts⟩

open Classical in
theorem inRange_eq (comparable : Comparable tzdb q telegrams) :
    inRange tzdb q (filtered q telegrams) = some (telegrams.filter fun t => q.Selects tzdb t) :=
  inRange_selects (fun _ bound _ mem => comparable.le (.startTime bound) (.stored mem))
    fun _ bound _ mem => comparable.le (.stored mem) (.endTime bound)

open Classical in
/-- Without a window, a query cuts its page out of what it selects. How the
stored telegrams compare among themselves settles the order only. -/
theorem query_selects {store : MemoryStore} (aware : ∀ t ∈ store.telegrams, t.timestamp.Aware) (bare : ¬ q.HasWindow)
    (started : ∀ start ∈ q.startTime, ∀ t ∈ store.telegrams,
      DateTime.le? tzdb start t.timestamp = some (decide (start.toMicros tzdb ≤ t.instant tzdb)))
    (ended : ∀ stop ∈ q.endTime, ∀ t ∈ store.telegrams,
      DateTime.le? tzdb t.timestamp stop = some (decide (t.instant tzdb ≤ stop.toMicros tzdb))) :
    ∃ selected : List StoredTelegram, selected.Perm (store.telegrams.filter fun t => q.Selects tzdb t) ∧
      ∀ offset limit, store.query tzdb { q with offset, limit } = some {
        telegrams := slice offset limit selected
        totalCount := selected.length
        limitReached := offset + limit < selected.length } := by
  have compared : ∀ a ∈ store.telegrams.filter fun t => q.Selects tzdb t,
      ∀ b ∈ store.telegrams.filter fun t => q.Selects tzdb t,
      (DateTime.lt? tzdb a.timestamp b.timestamp).isSome := fun a mem b mem' =>
    DateTime.lt?_isSome (aware a (List.mem_of_mem_filter mem)) (aware b (List.mem_of_mem_filter mem'))
  obtain ⟨selected, sorted, perm⟩ := sort?_of_compared q.orderDescending compared
  refine ⟨selected, perm, fun offset limit => ?_⟩
  have ranged : inRange tzdb { q with offset, limit } (filtered { q with offset, limit } store.telegrams) =
      some (store.telegrams.filter fun t => q.Selects tzdb t) := inRange_selects started ended
  have collected (results : List StoredTelegram) :
      withContext tzdb { q with offset, limit } store.telegrams results = some results := if_neg bare
  simp only [query, ranged, collected, Option.bind_eq_bind, Option.bind_some, sorted]
  rfl

/-- The bisection finds a pivot whose window a telegram is in, if there is
one. -/
theorem nearPivot_eq (comparable : Comparable tzdb q telegrams) (window : q.HasWindow) {results : List StoredTelegram}
    (within : ∀ t ∈ results, t ∈ telegrams) {t : StoredTelegram} (mem : t ∈ telegrams) :
    nearPivot tzdb (arrange (DateTime.toMicros tzdb) false (results.map StoredTelegram.timestamp))
        (q.deltaBeforeMs * 1000) (q.deltaAfterMs * 1000) t =
      some (decide (∃ pivot ∈ results, pivot.instant tzdb - q.deltaBeforeMs * 1000 ≤ t.instant tzdb ∧
        t.instant tzdb ≤ pivot.instant tzdb + q.deltaAfterMs * 1000)) := by
  obtain ⟨lowBound, low⟩ := Option.isSome_iff_exists.mp (comparable.range window t mem).1
  obtain ⟨highBound, high⟩ := Option.isSome_iff_exists.mp (comparable.range window t mem).2
  have low_involved : Involved q telegrams lowBound := .lowBound window mem low
  have high_involved : Involved q telegrams highBound := .highBound window mem high
  have low_instant : lowBound.toMicros tzdb = t.instant tzdb - q.deltaAfterMs * 1000 :=
    DateTime.add?_instant low
      (comparable.offsets _ _ low_involved (.stored mem) (DateTime.add?_tzinfo low).1)
  have high_instant : highBound.toMicros tzdb = t.instant tzdb + q.deltaBeforeMs * 1000 :=
    DateTime.add?_instant high
      (comparable.offsets _ _ high_involved (.stored mem) (DateTime.add?_tzinfo high).1)
  have arranges := arranges_arrange (DateTime.toMicros tzdb) false (results.map StoredTelegram.timestamp)
  generalize arrange (DateTime.toMicros tzdb) false (results.map StoredTelegram.timestamp) = pivots at arranges
  have members (y : DateTime) : y ∈ pivots ↔ ∃ pivot ∈ results, pivot.timestamp = y := by
    rw [arranges.perm.mem_iff, List.mem_map]
  have involved : ∀ y ∈ pivots, Involved q telegrams y := by
    intro y held
    obtain ⟨pivot, own, rfl⟩ := (members y).mp held
    exact .stored (within pivot own)
  have ascending : pivots.Pairwise fun a b => a.toMicros tzdb ≤ b.toMicros tzdb := arranges.sorted
  obtain ⟨index, searched, splits⟩ : ∃ index,
      bisectLeft? (fun y => DateTime.lt? tzdb y lowBound) pivots 0 pivots.length = some index ∧
        Splits (fun y => ¬ lowBound.toMicros tzdb ≤ y.toMicros tzdb) pivots index := bisectLeft?_decided
    (fun y held => by rw [comparable.lt (involved y held) low_involved]; simp only [not_le])
    (ascending.imp fun upto below above => below (above.trans upto))
    (Nat.zero_le _) le_rfl (fun i _ before => absurd before (Nat.not_lt_zero i))
    (fun i inside beyond => absurd inside (Nat.not_lt.mpr beyond))
  have found := splits.find (fun y => y.toMicros tzdb ≤ highBound.toMicros tzdb)
    (ascending.imp fun upto above => upto.trans above)
  have near : (∃ pivot ∈ results, pivot.instant tzdb - q.deltaBeforeMs * 1000 ≤ t.instant tzdb ∧
      t.instant tzdb ≤ pivot.instant tzdb + q.deltaAfterMs * 1000) ↔
      ∃ y, pivots[index]? = some y ∧ y.toMicros tzdb ≤ highBound.toMicros tzdb := by
    rw [← found]
    constructor
    · rintro ⟨pivot, own, before, after⟩
      refine ⟨pivot.timestamp, (members _).mpr ⟨pivot, own, rfl⟩, ?_, ?_⟩
      · rw [low_instant]
        exact Int.sub_right_le_of_le_add after
      · rw [high_instant]
        exact Int.le_add_of_sub_right_le before
    · rintro ⟨y, held, above, under⟩
      obtain ⟨pivot, own, rfl⟩ := (members y).mp held
      rw [low_instant] at above
      rw [high_instant] at under
      exact ⟨pivot, own, Int.sub_right_le_of_le_add under, Int.le_add_of_sub_right_le above⟩
  simp only [nearPivot, low, high, Option.bind_eq_bind, Option.bind_some, searched, near]
  cases at_index : pivots[index]? with
  | none => simp
  | some y =>
    dsimp only
    rw [comparable.le (involved y (List.mem_of_getElem? at_index)) high_involved]
    simp

/-- The telegrams in the windows of the selected ones. -/
theorem inContext_eq (comparable : Comparable tzdb q telegrams) (window : q.HasWindow) {results : List StoredTelegram}
    (held : ∀ t ∈ results, t ∈ telegrams) :
    inContext tzdb q telegrams results = some (telegrams.filter fun t => decide (∃ pivot ∈ results,
      pivot.instant tzdb - q.deltaBeforeMs * 1000 ≤ t.instant tzdb ∧
        t.instant tzdb ≤ pivot.instant tzdb + q.deltaAfterMs * 1000)) := by
  have micros {ms : ℤ} (valid : (DateTime.timedelta? ms).isSome) : DateTime.timedelta? ms = some (ms * 1000) := by
    unfold DateTime.timedelta? at valid ⊢
    split at valid
    · rename_i inside
      rw [if_pos inside]
    · cases valid
  have sorted : sort? (DateTime.lt? tzdb) false (results.map StoredTelegram.timestamp) =
      some (arrange (DateTime.toMicros tzdb) false (results.map StoredTelegram.timestamp)) := by
    refine sort?_decided fun a mem b mem' => ?_
    obtain ⟨t, own, rfl⟩ := List.mem_map.mp mem
    obtain ⟨t', own', rfl⟩ := List.mem_map.mp mem'
    exact comparable.lt (.stored (held t own)) (.stored (held t' own'))
  simp only [inContext, sorted, micros (comparable.timedeltas window).1, micros (comparable.timedeltas window).2,
    Option.bind_eq_bind, Option.bind_some]
  exact filter?_decided fun t mem => nearPivot_eq comparable window held mem

/-- **The memory store answers** every query whose datetimes compare as
instants. -/
theorem query_answers {store : MemoryStore} (comparable : Comparable tzdb q store.telegrams) :
    ∃ result, store.query tzdb q = some result ∧ Answers tzdb q store.telegrams id result := by
  classical
  have collected : withContext tzdb q store.telegrams (store.telegrams.filter fun t => q.Selects tzdb t) =
      some (meant tzdb q store.telegrams) := by
    unfold withContext meant TelegramQuery.Means
    split
    · rename_i window
      rw [inContext_eq comparable window fun t mem => List.mem_of_mem_filter mem]
      simp only [List.mem_filter, decide_eq_true_eq, and_assoc]
    · rename_i bare
      rfl
  have own {t : StoredTelegram} (mem : t ∈ meant tzdb q store.telegrams) : t ∈ store.telegrams :=
    List.mem_of_mem_filter mem
  have sorted : sort? (fun a b => DateTime.lt? tzdb a.timestamp b.timestamp) q.orderDescending
      (meant tzdb q store.telegrams) =
      some (arrange (StoredTelegram.instant tzdb) q.orderDescending (meant tzdb q store.telegrams)) :=
    sort?_decided fun a mem b mem' => comparable.lt (.stored (own mem)) (.stored (own mem'))
  have arranges := arranges_arrange (StoredTelegram.instant tzdb) q.orderDescending
    (meant tzdb q store.telegrams)
  refine ⟨_, ?_, answers_page id arranges fun _ _ => rfl⟩
  simp only [query, inRange_eq comparable, Option.bind_eq_bind, Option.bind_some, collected, sorted,
    arranges.perm.length_eq, List.map_id]
  rfl

end MemoryStore

end KnxTelegramStore
