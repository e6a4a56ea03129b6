import KnxTelegramStore.Lib.Paging
import KnxTelegramStore.Model

/-!
What a `TelegramQuery` asks for, apart from any engine: the filters combined
by AND, the values of one filter and the two DPT filters by OR, inclusive time
bounds, and with a positive delta everything near one of the telegrams the
filters select. `Answers` says that a result is a page of that.
-/
namespace KnxTelegramStore
open Paging

variable {tzdb : TzDb} {q : TelegramQuery} {telegrams : List StoredTelegram}

/-- The instant a telegram was recorded at. -/
def StoredTelegram.instant (tzdb : TzDb) (t : StoredTelegram) : ℤ := t.timestamp.toMicros tzdb

namespace TelegramQuery

/-- The DPT group: a main type, or a type with a subtype where one is given. -/
def SelectsDpt (q : TelegramQuery) (t : StoredTelegram) : Prop :=
  (∃ main ∈ q.dptMains, t.dptMain = some main) ∨
    ∃ entry ∈ q.dpts, t.dptMain = some entry.1 ∧ ∀ sub ∈ entry.2, t.dptSub = some sub

/-- What the filters select. -/
structure Selects (tzdb : TzDb) (q : TelegramQuery) (t : StoredTelegram) : Prop where
  sources : q.sources = [] ∨ t.source ∈ q.sources
  destinations : q.destinations = [] ∨ t.destination ∈ q.destinations
  telegramTypes : q.telegramTypes = [] ∨ t.telegramtype ∈ q.telegramTypes
  directions : q.directions = [] ∨ t.direction ∈ q.directions
  dpts : (q.dptMains = [] ∧ q.dpts = []) ∨ q.SelectsDpt t
  startTime : ∀ start ∈ q.startTime, start.toMicros tzdb ≤ t.instant tzdb
  endTime : ∀ stop ∈ q.endTime, t.instant tzdb ≤ stop.toMicros tzdb

/-- There is a context window. -/
def HasWindow (q : TelegramQuery) : Prop := 0 < q.deltaBeforeMs ∨ 0 < q.deltaAfterMs

instance : Decidable q.HasWindow := inferInstanceAs (Decidable (0 < q.deltaBeforeMs ∨ 0 < q.deltaAfterMs))

/-- What the query means: the telegrams the filters select, and with a window
all those in the window of one of them. -/
def Means (tzdb : TzDb) (q : TelegramQuery) (telegrams : List StoredTelegram) (t : StoredTelegram) : Prop :=
  if q.HasWindow then
    ∃ pivot ∈ telegrams, q.Selects tzdb pivot ∧
      pivot.instant tzdb - q.deltaBeforeMs * 1000 ≤ t.instant tzdb ∧
      t.instant tzdb ≤ pivot.instant tzdb + q.deltaAfterMs * 1000
  else q.Selects tzdb t

end TelegramQuery

open Classical in
/-- The telegrams a query means, one for each stored one. -/
noncomputable def meant (tzdb : TzDb) (q : TelegramQuery) (telegrams : List StoredTelegram) :
    List StoredTelegram := telegrams.filter fun t => q.Means tzdb telegrams t

/-- A result is the page the query asks for, out of the telegrams it means in
one of the orders of their instants; `view` is how an engine gives a telegram
back. -/
structure Answers (tzdb : TzDb) (q : TelegramQuery) (telegrams : List StoredTelegram)
    (view : StoredTelegram → StoredTelegram) (result : TelegramQueryResult) : Prop where
  totalCount : result.totalCount = (meant tzdb q telegrams).length
  limitReached : result.limitReached = decide (q.offset + q.limit < (meant tzdb q telegrams).length)
  length : result.telegrams.length = min q.limit ((meant tzdb q telegrams).length - q.offset)
  sorted : result.telegrams.Pairwise fun a b => Before q.orderDescending (a.instant tzdb) (b.instant tzdb)
  page : ∃ arranged, Arranges (StoredTelegram.instant tzdb) q.orderDescending (meant tzdb q telegrams) arranged ∧
    result.telegrams = (slice q.offset q.limit arranged).map view

theorem slice_sublist {ρ : Type*} (offset limit : ℕ) (rows : List ρ) : (slice offset limit rows).Sublist rows :=
  (List.take_sublist _ _).trans (List.drop_sublist _ _)

/-- A page of an order of what is meant is an answer. -/
theorem answers_page (view : StoredTelegram → StoredTelegram) {arranged : List StoredTelegram}
    (arranges : Arranges (StoredTelegram.instant tzdb) q.orderDescending (meant tzdb q telegrams) arranged)
    (same : ∀ t ∈ arranged, (view t).instant tzdb = t.instant tzdb) :
    Answers tzdb q telegrams view
      { telegrams := (slice q.offset q.limit arranged).map view
        totalCount := (meant tzdb q telegrams).length
        limitReached := q.offset + q.limit < (meant tzdb q telegrams).length } where
  totalCount := rfl
  limitReached := rfl
  length := by rw [List.length_map, length_slice, arranges.perm.length_eq]
  sorted := by
    have sorted := arranges.sorted.sublist (slice_sublist q.offset q.limit arranged)
    refine List.pairwise_map.mpr (sorted.imp_of_mem fun mem mem' before => ?_)
    rw [same _ ((slice_sublist _ _ _).subset mem), same _ ((slice_sublist _ _ _).subset mem')]
    exact before
  page := ⟨arranged, arranges, rfl⟩

end KnxTelegramStore
