import KnxTelegramStore.Lib.LockOrder
import KnxTelegramStore.Sql.Interning

/-!
Several `store_many` calls on PostgreSQL at a time (`base_sql.py`,
`lookup.py`). An `INSERT ... ON CONFLICT` waits for a transaction that has
inserted its key and not ended yet, and the upsert of the last values also for
one that has locked its row; both then keep the key to the end of their own
transaction. Pairs are inserted in the order of a Python set, and last values
in the order in which a batch first names their destinations.
-/
namespace KnxTelegramStore.Postgres.Writers
open Sql LockOrder Inevitability

/-- What a transaction waits for. -/
inductive Lock where
  /-- a new key of `uq_category_value` -/
  | lookup (pair : Pair)
  /-- a key of `last_ga_telegrams` -/
  | summary (destination : String)
  deriving DecidableEq

/-- A `store_many` whose batch gets as far as its upsert (`Sql.Taken`), and the
order in which it goes through its set of pairs. -/
structure Call where
  cache : LookupCache
  telegrams : List StoredTelegram
  order : List Pair
  order_perm : order.Perm (pairs telegrams)

/-- The keys of a dict after assignments to these in turn. -/
def keysOf {α : Type} [DecidableEq α] (assigned : List α) : List α :=
  assigned.foldl (fun keys key => if key ∈ keys then keys else keys ++ [key]) []

/-- `to_resolve`. -/
def Call.missing (c : Call) : List Pair := c.order.filter fun pair => c.cache pair = none

/-- The pairs that nobody has committed yet: the other inserts find a row. -/
def Call.unknown (committed : StringLookup) (c : Call) : List Pair :=
  c.missing.filter fun pair => committed.idOf pair = none

/-- The destinations of `upsert_values`. -/
def Call.destinations (c : Call) : List String := keysOf (c.telegrams.map StoredTelegram.destination)

/-- The locks of a call, in the order of its statements. -/
def Call.locks (committed : StringLookup) (c : Call) : List Lock :=
  (c.unknown committed).map Lock.lookup ++ c.destinations.map Lock.summary

/-! ## The order of the statements -/

theorem missing_perm (c : Call) : c.missing.Perm (toResolve c.cache c.telegrams) := c.order_perm.filter _

section

variable {α β : Type} [DecidableEq α] [DecidableEq β]

theorem keysOf_nodup (assigned : List α) : (keysOf assigned).Nodup := by
  have keeps : ∀ keys : List α, keys.Nodup →
      (assigned.foldl (fun keys key => if key ∈ keys then keys else keys ++ [key]) keys).Nodup := by
    induction assigned with
    | nil => exact fun _ nodup => nodup
    | cons key assigned ih =>
      intro keys nodup
      rw [List.foldl_cons]
      apply ih
      split
      · exact nodup
      · rename_i fresh
        exact nodup.append (List.nodup_singleton _) (List.disjoint_singleton.mpr fresh)
  exact keeps [] List.nodup_nil

/-- Dicts whose keys correspond have corresponding keys in the same order. -/
theorem forall₂_keysOf {R : α → β → Prop} {xs : List α} {ys : List β} (related : List.Forall₂ R xs ys)
    (unique : ∀ x y x' y', R x y → R x' y' → (x = x' ↔ y = y')) : List.Forall₂ R (keysOf xs) (keysOf ys) := by
  have assigns : ∀ {keys : List α} {keys' : List β}, List.Forall₂ R keys keys' →
      List.Forall₂ R (xs.foldl (fun keys key => if key ∈ keys then keys else keys ++ [key]) keys)
        (ys.foldl (fun keys key => if key ∈ keys then keys else keys ++ [key]) keys') := by
    induction related with
    | nil => exact fun held => held
    | @cons x y xs ys first _ ih =>
      intro keys keys' held
      rw [List.foldl_cons, List.foldl_cons]
      have known : x ∈ keys ↔ y ∈ keys' := by
        constructor
        · intro mem
          obtain ⟨y', mem', same⟩ := forall₂_mem held.flip mem
          exact ((unique x y x y' first same).mp rfl) ▸ mem'
        · intro mem
          obtain ⟨x', mem', same⟩ := forall₂_mem held mem
          exact ((unique x y x' y first same).mpr rfl) ▸ mem'
      by_cases mem : x ∈ keys
      · rw [if_pos mem, if_pos (known.mp mem)]
        exact ih held
      · rw [if_neg mem, if_neg (mt known.mpr mem)]
        exact ih (List.rel_append held (.cons first .nil))
  exact assigns .nil

end

theorem keys_latest {tzdb : TzDb} {values latest : List (Columns DateTime)}
    (made : latestPerDestination tzdb values = some latest) :
    latest.map Columns.destinationId = keysOf (values.map Columns.destinationId) := by
  have assigns : ∀ (values start : List (Columns DateTime)) {latest},
      values.foldlM (keepLatest tzdb) start = some latest → latest.map Columns.destinationId =
        (values.map Columns.destinationId).foldl (fun keys key => if key ∈ keys then keys else keys ++ [key])
          (start.map Columns.destinationId) := by
    intro values
    induction values with
    | nil =>
      intro start latest made
      cases made
      rfl
    | cons val values ih =>
      intro start latest made
      obtain ⟨next, kept, later⟩ := Option.bind_eq_some_iff.mp (List.foldlM_cons.symm.trans made)
      rw [ih next later, keepLatest_destinations kept, List.map_cons, List.foldl_cons]
  exact assigns values [] made

/-- The statements of a call, and the order of its upsert: the destinations as
the batch first names them. -/
theorem statements_order {engine : Engine} {ids : IdSource} {c : Call} {db db' : Db} {lookupIds : LookupCache}
    {statements : List Statement} (truthful : c.cache.Truthful db.lookup)
    (ran : storeMany engine ids c.cache c.telegrams db = (statements, some (db', lookupIds))) :
    ∃ resolving values latest,
      statements = resolving ++ [.insertTelegrams values] ++ [.upsertLastGa latest] ∧
      (∀ pair, Statement.insertLookup pair ∈ resolving ↔ pair ∈ c.missing) ∧
      List.Forall₂ (fun id destination => db'.lookup.Names (.destination, destination) id)
        (latest.map Columns.destinationId) c.destinations := by
  have names := truthful_resolve ids truthful c.telegrams
  unfold storeMany at ran
  dsimp only at ran
  split at ran
  · cases ran
  rename_i values made
  split at ran
  · cases ran
  split at ran
  · cases ran
  rename_i latest kept
  obtain ⟨issued, done⟩ := Prod.mk.inj ran
  obtain ⟨summaries, _, same⟩ := Option.map_eq_some_iff.mp done
  obtain ⟨rfl, rfl⟩ := Prod.mk.inj same
  refine ⟨_, values, latest, issued.symm, fun pair => ?_, ?_⟩
  · rw [(missing_perm c).mem_iff, ← (ids.order_perm _).mem_iff]
    split <;> simp
  · rw [keys_latest kept]
    refine forall₂_keysOf ?_ fun id destination id' destination' named named' => ⟨?_, ?_⟩
    · rw [List.forall₂_map_left_iff, List.forall₂_map_right_iff]
      refine (mapM_some_iff.mp made).flip.imp fun val t own => ?_
      exact (valuesOf_labels names own).1.destination
    · rintro rfl
      exact congrArg Prod.snd (named.pair_unique named')
    · rintro rfl
      exact named.unique named'

/-! ## Two calls -/

theorem firstShared_locks (committed : StringLookup) (mine theirs : Call) :
    firstShared (mine.locks committed) (theirs.locks committed) =
      ((firstShared (mine.unknown committed) (theirs.unknown committed)).map Lock.lookup).or
        ((firstShared mine.destinations theirs.destinations).map Lock.summary) := by
  have lookups : ∀ pair, Lock.lookup pair ∈ theirs.locks committed ↔ pair ∈ theirs.unknown committed := by
    intro pair
    simp [Call.locks]
  have summaries : ∀ destination, Lock.summary destination ∈ theirs.locks committed ↔
      destination ∈ theirs.destinations := by
    intro destination
    simp [Call.locks]
  have split : mine.locks committed =
      (mine.unknown committed).map Lock.lookup ++ mine.destinations.map Lock.summary := rfl
  rw [split, firstShared_append, firstShared_map lookups, firstShared_map summaries]

/-- **When two writers can deadlock.** Two `store_many` calls that run at the
same time, neither with a batch that fails before its upsert, can come to wait
for each other exactly if they go differently through what they share: if both
bring a string that is not committed yet, the one that each inserts first; else
the destination that each batch names first. -/
theorem writers_deadlock_iff (committed : StringLookup) (calls : Bool → Call) :
    (∃ events s, EventMachine.run step (start fun i => (calls i).locks committed) events = some s ∧ Stuck s) ↔
      if ∀ pair ∈ (calls true).unknown committed, pair ∉ (calls false).unknown committed then
        firstShared (calls true).destinations (calls false).destinations ≠
          firstShared (calls false).destinations (calls true).destinations
      else
        firstShared ((calls true).unknown committed) ((calls false).unknown committed) ≠
          firstShared ((calls false).unknown committed) ((calls true).unknown committed) := by
  rw [stuck_iff, firstShared_locks, firstShared_locks]
  have summaries : Function.Injective (Option.map Lock.summary) :=
    Option.map_injective fun _ _ same => Lock.summary.inj same
  have lookups : Function.Injective (Option.map Lock.lookup) :=
    Option.map_injective fun _ _ same => Lock.lookup.inj same
  split
  · rename_i apart
    have one := firstShared_eq_none.mpr apart
    have two := firstShared_eq_none.mpr fun pair mem shared => apart pair shared mem
    rw [one, two, Option.map_none, Option.none_or, Option.none_or, summaries.ne_iff]
  · rename_i meet
    push Not at meet
    obtain ⟨pair, mine, theirs⟩ := meet
    obtain ⟨first, one⟩ := exists_firstShared mine theirs
    obtain ⟨second, two⟩ := exists_firstShared theirs mine
    rw [← lookups.ne_iff, one, two, Option.map_some, Option.map_some, Option.some_or, Option.some_or]

/-- Ranks of the destinations alone. -/
def Lock.height {α : Type*} (rank : String → α) : Lock → α
  | .lookup pair => rank pair.2
  | .summary destination => rank destination

/-- One telegram, by a process that knows none of its strings. -/
def storing (telegrams : List StoredTelegram) : Call where
  cache _ := none
  telegrams := telegrams
  order := pairs telegrams
  order_perm := List.Perm.refl _

/-- All strings of some telegrams. -/
def knowing (telegrams : List StoredTelegram) : StringLookup := StringLookup.insertAll .sqlite {} (pairs telegrams)

def telegramTo (destination : String) : StoredTelegram where
  timestamp := .ofMicros 0
  source := "1.1.1"
  destination := destination
  telegramtype := "GroupValueWrite"
  direction := "Incoming"

/-- Two batches that name two destinations the other way round. -/
example : firstShared (storing [telegramTo "1/2/3", telegramTo "1/2/4"]).destinations
      (storing [telegramTo "1/2/4", telegramTo "1/2/3"]).destinations ≠
    firstShared (storing [telegramTo "1/2/4", telegramTo "1/2/3"]).destinations
      (storing [telegramTo "1/2/3", telegramTo "1/2/4"]).destinations := by decide

/-- **Writers that follow one order never block each other for good.** However
many `store_many` calls run at the same time: if all their strings are
committed and one order of the destinations is the one in which every batch
first names them (a single telegram has any), then no state that they reach,
with any of them failing meanwhile, is stuck, and all of them come to an end. -/
theorem ordered_writers_end {ι α : Type*} [DecidableEq ι] [Fintype ι] [LinearOrder α] (committed : StringLookup)
    (calls : ι → Call) (rank : String → α)
    (known : ∀ i, ∀ t ∈ (calls i).telegrams, ∀ pair ∈ pairsOf t, ∃ id, committed.Names pair id)
    (ordered : ∀ i, (calls i).destinations.Pairwise fun a b => rank a < rank b) {events : List (Event ι)}
    {s : State ι Lock} (ran : EventMachine.run step (start fun i => (calls i).locks committed) events = some s) :
    ¬ Stuck s ∧ Inevitable (fun s s' => ∃ event, step s event = some s') (fun s : State ι Lock => ∀ i, s i = {}) s := by
  have nothing_new : ∀ i, (calls i).unknown committed = [] := by
    intro i
    refine List.filter_eq_nil_iff.mpr fun pair mem absent => ?_
    have asked := (calls i).order_perm.mem_iff.mp (List.mem_of_mem_filter mem)
    obtain ⟨t, own, part⟩ := List.mem_flatMap.mp (List.mem_dedup.mp asked)
    obtain ⟨id, named⟩ := known i t own pair part
    rw [StringLookup.idOf_eq_some.mpr named] at absent
    cases of_decide_eq_true absent
  have follows := run_follows ran
  have climbs : ∀ i, ((calls i).locks committed).Pairwise fun a b => Lock.height rank a < Lock.height rank b := by
    intro i
    rw [Call.locks, nothing_new, List.map_nil, List.nil_append]
    exact List.pairwise_map.mpr (ordered i)
  exact ⟨follows.not_stuck (Lock.height rank) climbs, follows.ends (Lock.height rank) climbs⟩

/-- Three processes store one telegram each. -/
theorem single_telegrams_end :
    ∃ s, EventMachine.run step (start fun _ : Fin 3 => (storing [telegramTo "1/2/3"]).locks
        (knowing [telegramTo "1/2/3"])) [.lock 0] = some s ∧ ¬ Stuck s := by
  have known : ∀ i : Fin 3, ∀ t ∈ ((fun _ => storing [telegramTo "1/2/3"]) i).telegrams, ∀ pair ∈ pairsOf t,
      ∃ id, (knowing [telegramTo "1/2/3"]).Names pair id := by
    intro _ t mem pair own
    exact named_insertAll .sqlite {} (List.mem_dedup.mpr (List.mem_flatMap.mpr ⟨t, mem, own⟩))
  have ordered : ∀ i : Fin 3, ((fun _ => storing [telegramTo "1/2/3"]) i).destinations.Pairwise
      fun a b => (fun _ => 0 : String → ℕ) a < (fun _ => 0 : String → ℕ) b := by
    intro _
    exact List.pairwise_singleton _ _
  obtain ⟨s, ran⟩ : ∃ s, EventMachine.run step (start fun _ : Fin 3 => (storing [telegramTo "1/2/3"]).locks
      (knowing [telegramTo "1/2/3"])) [.lock 0] = some s := ⟨_, rfl⟩
  exact ⟨s, ran, (ordered_writers_end _ _ _ known ordered ran).1⟩

end KnxTelegramStore.Postgres.Writers
