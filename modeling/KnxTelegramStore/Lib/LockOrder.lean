import KnxTelegramStore.Lib.Inevitable
import KnxTelegramStore.Lib.Runs
import Mathlib.Algebra.Order.BigOperators.Group.Finset
import Mathlib.Data.Fintype.Basic
import Mathlib.Data.Finset.Max

/-!
Sessions that take exclusive locks one after the other, each in an order of
its own, and let go of all of them when they end. Two of them can come to wait
for each other exactly if they differ in which of their common locks they come
to first. Where all of them follow one order, nobody waits for ever.
-/
namespace LockOrder
open EventMachine Inevitability

/-- What a session holds, and what it is yet to ask for; nothing of either
once it has ended. -/
structure Session (κ : Type*) where
  held : List κ := []
  wanted : List κ := []
  deriving DecidableEq

abbrev State (ι κ : Type*) := ι → Session κ

inductive Event (ι : Type*) where
  | lock (session : ι)
  | commit (session : ι)
  /-- it fails, or has to give way to another -/
  | abort (session : ι)

variable {ι κ : Type*}

def start (wanted : ι → List κ) : State ι κ := fun i => { wanted := wanted i }

/-- A session that has not ended has come some way along its list, and no lock
has two holders. -/
structure Follows (wanted : ι → List κ) (s : State ι κ) : Prop where
  along : ∀ i, s i = {} ∨ (s i).held ++ (s i).wanted = wanted i
  exclusive : ∀ i j lock, lock ∈ (s i).held → lock ∈ (s j).held → i = j

variable {s s' : State ι κ} {wanted : ι → List κ} {i j : ι} {lock : κ}

theorem follows_start (wanted : ι → List κ) : Follows wanted (start wanted) where
  along _ := .inr rfl
  exclusive _ _ _ mem := by cases mem

theorem unfinished_of_held (mem : lock ∈ (s i).held) : s i ≠ {} := by
  intro ended
  rw [ended] at mem
  cases mem

variable [DecidableEq ι]

/-- A session that ends has nothing any more. -/
theorem Follows.ended (follows : Follows wanted s) (i : ι) : Follows wanted (Function.update s i {}) := by
  constructor
  · intro j
    by_cases same : j = i
    · subst same
      exact .inl (Function.update_self ..)
    · rw [Function.update_of_ne same]
      exact follows.along j
  · intro j k lock mem mem'
    by_cases first : j = i
    · subst first
      rw [Function.update_self] at mem
      cases mem
    · by_cases second : k = i
      · subst second
        rw [Function.update_self] at mem'
        cases mem'
      · rw [Function.update_of_ne first] at mem
        rw [Function.update_of_ne second] at mem'
        exact follows.exclusive j k lock mem mem'

/-! ## Steps -/

variable [Fintype ι] [DecidableEq κ]

def step (s : State ι κ) : Event ι → Option (State ι κ)
  | .lock i =>
    match (s i).wanted with
    | [] => none
    | lock :: rest =>
      if ∀ j, j ≠ i → lock ∉ (s j).held then some (Function.update s i ⟨(s i).held ++ [lock], rest⟩) else none
  | .commit i => if (s i).wanted = [] ∧ (s i).held ≠ [] then some (Function.update s i {}) else none
  | .abort i => if s i ≠ {} then some (Function.update s i {}) else none

/-- Somebody has not ended, and nobody can go on. -/
def Stuck (s : State ι κ) : Prop := (∃ i, s i ≠ {}) ∧ ∀ i, step s (.lock i) = none ∧ step s (.commit i) = none

theorem step_lock (taken : step s (.lock i) = some s') :
    ∃ lock rest, (s i).wanted = lock :: rest ∧ (∀ j, j ≠ i → lock ∉ (s j).held) ∧
      s' = Function.update s i ⟨(s i).held ++ [lock], rest⟩ := by
  unfold step at taken
  dsimp only at taken
  split at taken
  · cases taken
  · rename_i lock rest asked
    split at taken
    · rename_i free
      cases taken
      exact ⟨lock, rest, asked, free, rfl⟩
    · cases taken

theorem lock_taken {rest : List κ} (asked : (s i).wanted = lock :: rest) (free : ∀ j, j ≠ i → lock ∉ (s j).held) :
    step s (.lock i) = some (Function.update s i ⟨(s i).held ++ [lock], rest⟩) := by
  unfold step
  dsimp only
  rw [asked]
  exact if_pos free

theorem lock_waits {rest : List κ} (asked : (s i).wanted = lock :: rest) (apart : j ≠ i) (held : lock ∈ (s j).held) :
    step s (.lock i) = none := by
  unfold step
  dsimp only
  rw [asked]
  exact if_neg fun free => free j apart held

theorem commit_waits (asked : (s i).wanted ≠ []) : step s (.commit i) = none := by
  unfold step
  exact if_neg fun finished => asked finished.1

theorem Follows.step {event : Event ι} (follows : Follows wanted s) (taken : step s event = some s') :
    Follows wanted s' := by
  cases event with
  | lock i =>
    obtain ⟨lock, rest, asked, free, rfl⟩ := step_lock taken
    have held : ∀ j other, other ∈ (Function.update s i ⟨(s i).held ++ [lock], rest⟩ j).held →
        other ∈ (s j).held ∨ (j = i ∧ other = lock) := by
      intro j other mem
      by_cases same : j = i
      · subst same
        rw [Function.update_self] at mem
        rcases List.mem_append.mp mem with old | own
        · exact .inl old
        · exact .inr ⟨rfl, List.mem_singleton.mp own⟩
      · rw [Function.update_of_ne same] at mem
        exact .inl mem
    constructor
    · intro j
      by_cases same : j = i
      · subst same
        rw [Function.update_self]
        rcases follows.along j with ended | along
        · rw [ended] at asked
          cases asked
        · right
          rw [← along, asked, List.append_assoc, List.singleton_append]
      · rw [Function.update_of_ne same]
        exact follows.along j
    · intro j k other mem mem'
      rcases held j other mem with old | ⟨rfl, rfl⟩
      · rcases held k other mem' with old' | ⟨rfl, rfl⟩
        · exact follows.exclusive j k other old old'
        · by_contra apart
          exact free j apart old
      · rcases held k other mem' with old' | ⟨rfl, _⟩
        · by_contra apart
          exact free k (Ne.symm apart) old'
        · rfl
  | commit i | abort i =>
    unfold LockOrder.step at taken
    dsimp only at taken
    split at taken
    · cases taken
      exact follows.ended i
    · cases taken

theorem run_follows {events : List (Event ι)} (ran : run step (start wanted) events = some s) : Follows wanted s :=
  run_keeps (fun _ _ _ follows taken => Follows.step follows taken) (follows_start wanted) ran

/-- In a state that is stuck, whoever has not ended waits for a lock that
another session holds. -/
theorem Stuck.waits (stuck : Stuck s) (unfinished : s i ≠ {}) :
    ∃ lock rest, (s i).wanted = lock :: rest ∧ ∃ j, j ≠ i ∧ lock ∈ (s j).held := by
  cases asked : (s i).wanted with
  | nil =>
    have nothing : (s i).held = [] := by
      by_contra held
      have commits := (stuck.2 i).2
      unfold step at commits
      dsimp only at commits
      rw [if_pos ⟨asked, held⟩] at commits
      cases commits
    have ended : s i = {} := calc
      s i = ⟨(s i).held, (s i).wanted⟩ := rfl
      _ = {} := by rw [nothing, asked]
    exact absurd ended unfinished
  | cons lock rest =>
    refine ⟨lock, rest, rfl, ?_⟩
    by_contra free
    have waits := (stuck.2 i).1
    rw [lock_taken asked fun j apart mem => free ⟨j, apart, mem⟩] at waits
    cases waits

/-! ## One order for all -/

/-- **One order keeps everybody going.** Where every session asks for its locks
in an order that ranks increase along, no state of a run is stuck: of all the
locks that are waited for, take one of the highest rank; its holder waits for
one that ranks higher still. -/
theorem Follows.not_stuck {α : Type*} [LinearOrder α] (rank : κ → α)
    (ordered : ∀ i, (wanted i).Pairwise fun a b => rank a < rank b) (follows : Follows wanted s) : ¬ Stuck s := by
  intro stuck
  have waits : ∀ i, s i ≠ {} → ∃ lock ∈ (s i).wanted, ∃ j, lock ∈ (s j).held ∧
      ∀ held ∈ (s i).held, rank held < rank lock := by
    intro i unfinished
    obtain ⟨lock, rest, asked, j, _, mem⟩ := stuck.waits unfinished
    refine ⟨lock, by rw [asked]; exact List.mem_cons_self, j, mem, fun held own => ?_⟩
    have along := (follows.along i).resolve_left unfinished
    have sorted := ordered i
    rw [← along, List.pairwise_append] at sorted
    exact sorted.2.2 held own lock (by rw [asked]; exact List.mem_cons_self)
  -- a lock that is held in the state and waited for in it has one that ranks higher
  have climbs : ∀ i lock, lock ∈ (s i).held → ∃ j higher, higher ∈ (s j).held ∧ rank lock < rank higher := by
    intro i lock mem
    obtain ⟨next, _, j, held, higher⟩ := waits i (unfinished_of_held mem)
    exact ⟨j, next, held, higher lock mem⟩
  obtain ⟨i, unfinished⟩ := stuck.1
  obtain ⟨lock, _, j, held, _⟩ := waits i unfinished
  have some_held : ((Finset.univ : Finset ι).biUnion fun i => (s i).held.toFinset).Nonempty :=
    ⟨lock, Finset.mem_biUnion.mpr ⟨j, Finset.mem_univ j, List.mem_toFinset.mpr held⟩⟩
  obtain ⟨top, mem, greatest⟩ := Finset.exists_max_image _ rank some_held
  obtain ⟨k, _, own⟩ := Finset.mem_biUnion.mp mem
  obtain ⟨k', higher, held', rises⟩ := climbs k top (List.mem_toFinset.mp own)
  have bound := greatest higher (Finset.mem_biUnion.mpr ⟨k', Finset.mem_univ k', List.mem_toFinset.mpr held'⟩)
  exact absurd rises (not_lt.mpr bound)

/-- What a session has before it. -/
def Session.left (session : Session κ) : ℕ := if session = {} then 0 else session.wanted.length + 1

theorem left_update {session : Session κ} (less : session.left < (s i).left) :
    ∑ j, (Function.update s i session j).left < ∑ j, (s j).left := by
  refine Finset.sum_lt_sum (fun j _ => ?_) ⟨i, Finset.mem_univ i, ?_⟩
  · by_cases same : j = i
    · subst same
      rw [Function.update_self]
      exact less.le
    · rw [Function.update_of_ne same]
  · rw [Function.update_self]
    exact less

theorem step_left {event : Event ι} (taken : step s event = some s') : ∑ j, (s' j).left < ∑ j, (s j).left := by
  have ends : ∀ i, s i ≠ {} → ∑ j, (Function.update s i {} j).left < ∑ j, (s j).left := by
    intro i unfinished
    apply left_update
    rw [Session.left, if_pos rfl, Session.left, if_neg unfinished]
    exact Nat.succ_pos _
  cases event with
  | lock i =>
    obtain ⟨lock, rest, asked, _, rfl⟩ := step_lock taken
    have unfinished : s i ≠ {} := by
      intro ended
      rw [ended] at asked
      cases asked
    apply left_update
    rw [Session.left, Session.left, if_neg unfinished, asked, List.length_cons]
    split
    · exact Nat.succ_pos _
    · exact Nat.lt_succ_self _
  | commit i =>
    unfold step at taken
    dsimp only at taken
    split at taken
    · rename_i done
      cases taken
      apply ends
      intro ended
      exact done.2 (by rw [ended])
    · cases taken
  | abort i =>
    unfold step at taken
    dsimp only at taken
    split at taken
    · rename_i unfinished
      cases taken
      exact ends i unfinished
    · cases taken

/-- So everybody comes to an end, in whatever order the sessions go on. -/
theorem Follows.ends {α : Type*} [LinearOrder α] (rank : κ → α)
    (ordered : ∀ i, (wanted i).Pairwise fun a b => rank a < rank b) (follows : Follows wanted s) :
    Inevitable (fun s s' => ∃ event, LockOrder.step s event = some s') (fun s : State ι κ => ∀ i, s i = {}) s := by
  refine inevitable_of_descent (fun s => ∑ i, (s i).left) (I := Follows wanted) ?_ ?_ ?_ follows
  · rintro s s' follows ⟨event, taken⟩
    exact follows.step taken
  · intro s follows unfinished
    by_contra none_goes
    refine follows.not_stuck rank ordered ⟨not_forall.mp unfinished, fun i => ⟨?_, ?_⟩⟩
    · exact Option.eq_none_iff_forall_not_mem.mpr fun s' taken => none_goes ⟨s', _, taken⟩
    · exact Option.eq_none_iff_forall_not_mem.mpr fun s' taken => none_goes ⟨s', _, taken⟩
  · rintro s s' _ ⟨event, taken⟩
    exact step_left taken

/-! ## Two sessions -/

/-- The lock of its list that a session comes to first, of those that another
list has as well. -/
def firstShared (mine theirs : List κ) : Option κ := mine.find? (· ∈ theirs)

/-- A session takes what is free, one lock after the other. -/
theorem run_locks {rest : List κ} (locks held : List κ) (own : s i = ⟨held, locks ++ rest⟩)
    (free : ∀ lock ∈ locks, ∀ j, j ≠ i → lock ∉ (s j).held) :
    run step s (locks.map fun _ => .lock i) = some (Function.update s i ⟨held ++ locks, rest⟩) := by
  induction locks generalizing s held with
  | nil =>
    rw [List.append_nil, ← List.nil_append rest, ← own, Function.update_eq_self]
    rfl
  | cons lock locks ih =>
    have asked : (s i).wanted = lock :: (locks ++ rest) := by rw [own, List.cons_append]
    refine run_cons.mpr ⟨_, lock_taken asked (free lock List.mem_cons_self), ?_⟩
    rw [ih (held ++ [lock]) (by rw [Function.update_self, own]) fun other mem j apart => ?_]
    · rw [Function.update_idem, List.append_assoc, List.singleton_append]
    · rw [Function.update_of_ne apart]
      exact free other (List.mem_cons_of_mem _ mem) j apart

theorem firstShared_mem {mine theirs : List κ} (first : firstShared mine theirs = some lock) :
    lock ∈ mine ∧ lock ∈ theirs := by
  unfold firstShared at first
  exact ⟨List.mem_of_find?_eq_some first, by simpa using List.find?_some first⟩

theorem exists_firstShared {mine theirs : List κ} (mem : lock ∈ mine) (shared : lock ∈ theirs) :
    ∃ first, firstShared mine theirs = some first :=
  Option.isSome_iff_exists.mp (List.find?_isSome.mpr ⟨lock, mem, decide_eq_true shared⟩)

theorem firstShared_eq_none {mine theirs : List κ} : firstShared mine theirs = none ↔ ∀ lock ∈ mine, lock ∉ theirs := by
  simp [firstShared, List.find?_eq_none]

theorem firstShared_append (one two theirs : List κ) :
    firstShared (one ++ two) theirs = (firstShared one theirs).or (firstShared two theirs) := List.find?_append

/-- Locks of one kind, among all that the other session asks for. -/
theorem firstShared_map {α : Type*} [DecidableEq α] {f : α → κ} {mine theirs : List α} {all : List κ}
    (same : ∀ x, f x ∈ all ↔ x ∈ theirs) : firstShared (mine.map f) all = (firstShared mine theirs).map f := by
  unfold firstShared
  rw [List.find?_map]
  congr 2
  funext x
  exact decide_eq_decide.mpr (same x)

theorem firstShared_split {mine theirs : List κ} (first : firstShared mine theirs = some lock) :
    ∃ before rest, mine = before ++ lock :: rest ∧ ∀ other ∈ before, other ∉ theirs := by
  unfold firstShared at first
  obtain ⟨_, before, rest, split, apart⟩ := List.find?_eq_some_iff_append.mp first
  exact ⟨before, rest, split, fun other mem => by simpa using apart other mem⟩

/-- What a session has come past is where the first lock is that it shares. -/
theorem firstShared_held {mine theirs held rest : List κ} (split : mine = held ++ rest) (mem : lock ∈ held)
    (shared : lock ∈ theirs) : ∃ first ∈ held, firstShared mine theirs = some first := by
  obtain ⟨first, found⟩ := exists_firstShared mem shared
  refine ⟨first, (firstShared_mem found).1, ?_⟩
  unfold firstShared at found ⊢
  rw [split, List.find?_append, found, Option.some_or]

variable {wishes : Bool → List κ}

/-- Two sessions that are stuck have come to different locks first. -/
theorem apart_of_stuck {s : State Bool κ} (follows : Follows wishes s) (stuck : Stuck s) :
    firstShared (wishes true) (wishes false) ≠ firstShared (wishes false) (wishes true) := by
  have waits : ∀ i, s i ≠ {} → ∃ lock ∈ (s i).wanted, lock ∈ (s !i).held := by
    intro i unfinished
    obtain ⟨lock, rest, asked, j, apart, mem⟩ := stuck.waits unfinished
    rw [Bool.eq_not.mpr apart] at mem
    exact ⟨lock, by rw [asked]; exact List.mem_cons_self, mem⟩
  have both : ∀ i, s i ≠ {} := by
    intro i
    obtain ⟨k, unfinished⟩ := stuck.1
    by_cases same : k = i
    · exact same ▸ unfinished
    · obtain ⟨lock, _, mem⟩ := waits k unfinished
      rw [Bool.eq_not.mpr same, Bool.not_not] at mem
      exact unfinished_of_held mem
  have first : ∀ i, ∃ lock ∈ (s i).held, firstShared (wishes i) (wishes !i) = some lock := by
    intro i
    obtain ⟨lock, wanted, held⟩ := waits (!i) (both !i)
    rw [Bool.not_not] at held
    have along := (follows.along i).resolve_left (both i)
    have others := (follows.along !i).resolve_left (both !i)
    refine firstShared_held along.symm held ?_
    rw [← others]
    exact List.mem_append_right _ wanted
  obtain ⟨lock, held, found⟩ := first true
  obtain ⟨other, held', found'⟩ := first false
  rw [Bool.not_true] at found
  rw [Bool.not_false] at found'
  intro same
  rw [found, found'] at same
  cases same
  have equal := follows.exclusive true false lock held held'
  cases equal

/-- One session takes all it can before a lock that the other one gets, and
the other all it can before one of those. -/
theorem stuck_of_splits {first second later later' : List κ} {lock other : κ}
    (one : wishes true = first ++ other :: later) (two : wishes false = second ++ lock :: later')
    (apart : ∀ held ∈ second, held ∉ first) (held : lock ∈ first) (held' : other ∈ second) :
    ∃ events s, run step (start wishes) events = some s ∧ Stuck s := by
  have free : ∀ held ∈ first, ∀ j, j ≠ true → held ∉ (start wishes j).held := by
    intro held _ j _ mem
    cases mem
  have start_one : start wishes true = ⟨[], first ++ other :: later⟩ := congrArg (Session.mk []) one
  have middle := run_locks first [] start_one free
  let s := Function.update (start wishes) true ⟨[] ++ first, other :: later⟩
  have start_two : s false = ⟨[], second ++ lock :: later'⟩ := congrArg (Session.mk []) two
  have free' : ∀ held ∈ second, ∀ j, j ≠ false → held ∉ (s j).held := by
    intro held mem j different
    rw [Bool.eq_not.mpr different]
    exact apart held mem
  have last := run_locks second [] start_two free'
  refine ⟨_, _, run_append.mpr ⟨s, middle, last⟩, ⟨true, ?_⟩, fun i => ?_⟩
  · intro ended
    cases congrArg Session.wanted ended
  · cases i with
    | true => exact ⟨lock_waits (j := false) rfl (by decide) held', commit_waits (List.cons_ne_nil _ _)⟩
    | false => exact ⟨lock_waits (j := true) rfl (by decide) held, commit_waits (List.cons_ne_nil _ _)⟩

theorem stuck_of_apart (apart : firstShared (wishes true) (wishes false) ≠ firstShared (wishes false) (wishes true)) :
    ∃ events s, run step (start wishes) events = some s ∧ Stuck s := by
  have shared : ∃ x y, firstShared (wishes true) (wishes false) = some x ∧
      firstShared (wishes false) (wishes true) = some y := by
    cases first : firstShared (wishes true) (wishes false) with
    | some x =>
      obtain ⟨mine, theirs⟩ := firstShared_mem first
      obtain ⟨y, found⟩ := exists_firstShared theirs mine
      exact ⟨x, y, rfl, found⟩
    | none =>
      cases second : firstShared (wishes false) (wishes true) with
      | none => rw [first, second] at apart; exact absurd rfl apart
      | some y =>
        obtain ⟨mine, theirs⟩ := firstShared_mem second
        obtain ⟨x, found⟩ := exists_firstShared theirs mine
        rw [first] at found
        cases found
  obtain ⟨x, y, first, second⟩ := shared
  have differ : x ≠ y := by
    intro same
    rw [first, second, same] at apart
    exact apart rfl
  -- the session that comes to `x` first, up to `y`
  obtain ⟨before, later, split, absent⟩ := List.eq_append_cons_of_mem (firstShared_mem second).2
  have past : wishes true = (before ++ [y]) ++ later := by rw [split, List.append_assoc, List.singleton_append]
  obtain ⟨x', mem, found⟩ :=
    firstShared_held past (List.mem_append_right _ (List.mem_singleton_self y)) (firstShared_mem second).1
  cases first.symm.trans found
  have held := (List.mem_append.mp mem).resolve_right fun last => differ (List.mem_singleton.mp last)
  -- the other one, up to the first of these
  obtain ⟨z, stops⟩ := exists_firstShared (firstShared_mem first).2 held
  obtain ⟨before', later', split', apart'⟩ := firstShared_split stops
  have past' : wishes false = (before' ++ [z]) ++ later' := by rw [split', List.append_assoc, List.singleton_append]
  have mine : z ∈ wishes true := by
    rw [split]
    exact List.mem_append_left _ (firstShared_mem stops).2
  obtain ⟨y', mem', found'⟩ := firstShared_held past' (List.mem_append_right _ (List.mem_singleton_self z)) mine
  cases second.symm.trans found'
  have held' := (List.mem_append.mp mem').resolve_right fun last =>
    absent (List.mem_singleton.mp last ▸ (firstShared_mem stops).2)
  exact stuck_of_splits split split' apart' (firstShared_mem stops).2 held'

/-- **Two sessions can deadlock exactly if they come to different locks first**
of those that they share. -/
theorem stuck_iff : (∃ events s, run step (start wishes) events = some s ∧ Stuck s) ↔
    firstShared (wishes true) (wishes false) ≠ firstShared (wishes false) (wishes true) := by
  refine ⟨?_, stuck_of_apart⟩
  rintro ⟨events, s, ran, stuck⟩
  exact apart_of_stuck (run_follows ran) stuck

end LockOrder
