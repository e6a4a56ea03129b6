import KnxTelegramStore.Query.Memory

/-!
What a store says of its contents (`store.py::StoreStats`), and how
`MemoryStore` finds it: `min` and `max` over timestamps that Python compares
by their digits within one `tzinfo`.
-/
namespace KnxTelegramStore

/-- `store.py::StoreStats`. -/
structure StoreStats where
  telegramCount : ℕ
  oldestTimestamp : Option DateTime
  newestTimestamp : Option DateTime
  sizeBytes : Option ℕ
  backend : String
  retentionDays : Option ℤ
  deriving DecidableEq

/-- Python's `min` or `max`: the first value that no other beats; `none` is the
`TypeError` of comparing a naive with an aware one. -/
def extreme (beats : DateTime → DateTime → Option Bool) : List DateTime → Option (Option DateTime)
  | [] => some none
  | first :: rest =>
    (rest.foldlM (fun best x => (beats x best).map fun better => if better then x else best) first).map some

def MemoryStore.getStats (tzdb : TzDb) (store : MemoryStore) : Option StoreStats := do
  let timestamps := store.telegrams.map StoredTelegram.timestamp
  let oldestTimestamp ← extreme (fun x best => DateTime.lt? tzdb x best) timestamps
  let newestTimestamp ← extreme (fun x best => DateTime.lt? tzdb best x) timestamps
  return {
    telegramCount := store.telegrams.length
    oldestTimestamp, newestTimestamp
    sizeBytes := none
    backend := "memory"
    retentionDays := none }

/-- Aware timestamps, and each `tzinfo` keeps one offset among them. -/
structure Uniform (tzdb : TzDb) (telegrams : List StoredTelegram) : Prop where
  aware : ∀ t ∈ telegrams, t.timestamp.Aware
  offsets : ∀ t ∈ telegrams, ∀ u ∈ telegrams, t.timestamp.tzinfo = u.timestamp.tzinfo →
    t.timestamp.utcoffset tzdb = u.timestamp.utcoffset tzdb

/-- Where Python compares by a number, the scan ends with the best by it. -/
theorem scan_found {beats : DateTime → DateTime → Option Bool} {key : DateTime → ℤ} {best : DateTime}
    {later : List DateTime}
    (ordered : ∀ x ∈ best :: later, ∀ y ∈ best :: later, beats x y = some (decide (key x < key y))) :
    ∃ winner ∈ best :: later,
      later.foldlM (fun best x => (beats x best).map fun better => if better then x else best) best = some winner ∧
      ∀ x ∈ best :: later, key winner ≤ key x := by
  induction later generalizing best with
  | nil => exact ⟨best, List.mem_singleton_self best, rfl, fun x mem => by rw [List.mem_singleton.mp mem]⟩
  | cons x later ih =>
    rw [List.foldlM_cons, ordered x (by simp) best List.mem_cons_self]
    by_cases better : key x < key best
    · have part : x :: later ⊆ best :: x :: later := List.subset_cons_self _ _
      obtain ⟨winner, mem, found, least⟩ := ih fun a mem b mem' => ordered a (part mem) b (part mem')
      refine ⟨winner, part mem, by simpa [better] using found, fun y mem' => ?_⟩
      rcases List.mem_cons.mp mem' with rfl | old
      · exact (least x List.mem_cons_self).trans better.le
      · exact least y old
    · have part : best :: later ⊆ best :: x :: later := by
        intro y mem
        rcases List.mem_cons.mp mem with rfl | old
        · exact List.mem_cons_self
        · exact List.mem_cons_of_mem _ (List.mem_cons_of_mem _ old)
      obtain ⟨winner, mem, found, least⟩ := ih fun a mem b mem' => ordered a (part mem) b (part mem')
      refine ⟨winner, part mem, by simpa [better] using found, fun y mem' => ?_⟩
      rcases List.mem_cons.mp mem' with rfl | old
      · exact least y List.mem_cons_self
      · rcases List.mem_cons.mp old with rfl | older
        · exact (least best List.mem_cons_self).trans (not_lt.mp better)
        · exact least y (List.mem_cons_of_mem _ older)

theorem extreme_found {beats : DateTime → DateTime → Option Bool} {key : DateTime → ℤ} {xs : List DateTime}
    (ordered : ∀ x ∈ xs, ∀ y ∈ xs, beats x y = some (decide (key x < key y))) :
    (xs = [] ∧ extreme beats xs = some none) ∨
      ∃ winner ∈ xs, extreme beats xs = some (some winner) ∧ ∀ x ∈ xs, key winner ≤ key x := by
  cases xs with
  | nil => exact .inl ⟨rfl, rfl⟩
  | cons first rest =>
    obtain ⟨winner, mem, found, least⟩ := scan_found ordered
    exact .inr ⟨winner, mem, by rw [extreme, found, Option.map_some], least⟩

theorem earliest_found {xs : List DateTime} {tzdb : TzDb}
    (ordered : ∀ x ∈ xs, ∀ y ∈ xs, DateTime.lt? tzdb x y = some (decide (x.toMicros tzdb < y.toMicros tzdb))) :
    ∃ oldest, extreme (fun x best => DateTime.lt? tzdb x best) xs = some oldest ∧
      oldest.map (DateTime.toMicros tzdb) = (xs.map (DateTime.toMicros tzdb)).min? := by
  rcases extreme_found ordered with ⟨rfl, found⟩ | ⟨winner, mem, found, least⟩
  · exact ⟨none, found, rfl⟩
  · refine ⟨some winner, found, (List.min?_eq_some_iff.mpr ⟨List.mem_map_of_mem mem, ?_⟩).symm⟩
    intro bound held
    obtain ⟨x, own, rfl⟩ := List.mem_map.mp held
    exact least x own

theorem latest_found {xs : List DateTime} {tzdb : TzDb}
    (ordered : ∀ x ∈ xs, ∀ y ∈ xs, DateTime.lt? tzdb x y = some (decide (x.toMicros tzdb < y.toMicros tzdb))) :
    ∃ newest, extreme (fun x best => DateTime.lt? tzdb best x) xs = some newest ∧
      newest.map (DateTime.toMicros tzdb) = (xs.map (DateTime.toMicros tzdb)).max? := by
  have reversed : ∀ x ∈ xs, ∀ y ∈ xs,
      DateTime.lt? tzdb y x = some (decide (-x.toMicros tzdb < -y.toMicros tzdb)) := by
    intro x mem y mem'
    simp only [ordered y mem' x mem, neg_lt_neg_iff]
  obtain ⟨rfl, found⟩ | ⟨winner, mem, found, least⟩ := extreme_found reversed
  · exact ⟨none, found, rfl⟩
  · refine ⟨some winner, found, (List.max?_eq_some_iff.mpr ⟨List.mem_map_of_mem mem, ?_⟩).symm⟩
    intro bound held
    obtain ⟨x, own, rfl⟩ := List.mem_map.mp held
    exact neg_le_neg_iff.mp (least x own)

theorem MemoryStore.reports {tzdb : TzDb} {store : MemoryStore} (uniform : Uniform tzdb store.telegrams) :
    ∃ stats, store.getStats tzdb = some stats ∧ stats.telegramCount = store.telegrams.length ∧
      stats.oldestTimestamp.map (DateTime.toMicros tzdb) =
        (store.telegrams.map (StoredTelegram.instant tzdb)).min? ∧
      stats.newestTimestamp.map (DateTime.toMicros tzdb) =
        (store.telegrams.map (StoredTelegram.instant tzdb)).max? := by
  have ordered : ∀ x ∈ store.telegrams.map StoredTelegram.timestamp,
      ∀ y ∈ store.telegrams.map StoredTelegram.timestamp,
      DateTime.lt? tzdb x y = some (decide (x.toMicros tzdb < y.toMicros tzdb)) := by
    intro x mem y mem'
    obtain ⟨t, own, rfl⟩ := List.mem_map.mp mem
    obtain ⟨u, own', rfl⟩ := List.mem_map.mp mem'
    exact DateTime.lt?_of_offset (uniform.aware t own) (uniform.aware u own') (uniform.offsets t own u own')
  obtain ⟨oldest, earliest, least⟩ := earliest_found ordered
  obtain ⟨newest, latest, greatest⟩ := latest_found ordered
  rw [List.map_map] at least greatest
  refine ⟨⟨store.telegrams.length, oldest, newest, none, "memory", none⟩, ?_, rfl, least, greatest⟩
  rw [MemoryStore.getStats, earliest, latest]
  rfl

end KnxTelegramStore
