import KnxTelegramStore.Buffered.ReadYourWrites

/-!
Evicted and cleared telegrams do not come back. An eviction runs in a child
task while its parent keeps the mutation lock and awaits it, however often the
parent is cancelled; meanwhile only `store()` reaches the buffer (`Filled`), so
the child's last step finds every telegram there is in the table or in the
buffer (`Reconciled`). After that step the parent has still to be woken, and
what a `store()` brings in between is not looked at.
-/
namespace KnxTelegramStore.Buffered
open WriteBehind EventMachine

variable {cfg : Config} {s s₁ s' : State} {t u child n : ℕ} {event : Event} {outcome : Outcome}
variable {base : List Row} {cutoff : DateTime} {dryRun : Bool} {item : Accepted}

/-! ## While an eviction runs -/

/-- Nothing happened to the buffer but `store()`. -/
structure Filled (s s' : State) : Prop where
  kept : ∀ item ∈ s.buffer, item ∈ s'.buffer ∨ (item, DropReason.capacity) ∈ s'.dropped
  fresh : ∀ item ∈ s'.buffer, item ∈ s.buffer ∨ s.accepted.length ≤ item.number
  dropped : s.dropped ⊆ s'.dropped
  accepted : s.accepted.length ≤ s'.accepted.length

namespace Filled

theorem refl (s : State) : Filled s s := ⟨fun _ => .inl, fun _ => .inl, List.Subset.refl _, le_rfl⟩

theorem trans (first : Filled s s₁) (second : Filled s₁ s') : Filled s s' where
  kept item mem := by
    rcases first.kept item mem with still | lost
    · exact second.kept item still
    · exact .inr (second.dropped lost)
  fresh item mem := by
    rcases second.fresh item mem with still | new
    · exact first.fresh item still
    · exact .inr (first.accepted.trans new)
  dropped := List.Subset.trans first.dropped second.dropped
  accepted := first.accepted.trans second.accepted

theorem congr (buffer : s'.buffer = s.buffer) (accepted : s'.accepted = s.accepted) (dropped : s.dropped ⊆ s'.dropped) :
    Filled s s' where
  kept _ mem := .inl (buffer ▸ mem)
  fresh _ mem := .inl (buffer ▸ mem)
  dropped := dropped
  accepted := (congrArg List.length accepted).ge

end Filled

theorem Untouched.filled (untouched : Untouched s s') : Filled s s' :=
  .congr untouched.buffer untouched.accepted (untouched.dropped ▸ List.Subset.refl _)

theorem filled_store (s : State) (telegram : StoredTelegram) : Filled s (s.store cfg telegram) := by
  have arrived : Stored s (s.store cfg telegram) := stored s telegram
  refine ⟨?_, fun item mem => (arrived.buffer item mem).imp_right fun new => new.ge, arrived.dropped, ?_⟩
  · unfold State.store
    split
    · exact fun _ => .inl
    · intro item mem
      rw [← List.take_append_drop (if cfg.maxBufferSize ≤ s.buffer.length then 1 else 0) s.buffer,
        List.mem_append] at mem
      rcases mem with oldest | kept
      · exact .inr (List.mem_append_right _ (List.mem_map_of_mem oldest))
      · exact .inl (List.mem_append_left _ kept)
  · unfold State.store
    split
    · exact le_rfl
    · simp [State.accept]

/-- How far the child of an eviction has come with the rows it found. -/
def State.Evicting (cfg : Config) (s : State) (base : List Row) (cutoff : DateTime) (dryRun : Bool) : Pc → Prop
  | .evictLock cutoff' dryRun' => cutoff' = cutoff ∧ dryRun' = dryRun ∧ s.table = base
  | .counting cutoff' => cutoff' = cutoff ∧ dryRun = true ∧ s.table = base
  | .evicting cutoff' _ => cutoff' = cutoff ∧ dryRun = false ∧ s.table = base
  | .refreshing cutoff' deleted => cutoff' = cutoff ∧ dryRun = false ∧ deleted = base.countP (isExpired cfg cutoff) ∧
      s.table = base.filter (!isExpired cfg cutoff ·)
  | _ => False

theorem evicts_of_evicting {pc : Pc} (evicting : s.Evicting cfg base cutoff dryRun pc) : pc.evicts = true := by
  cases pc <;> first | rfl | exact evicting.elim

structure EvictProgress (cfg : Config) (s : State) (t child : ℕ) (base : List Row) (cutoff : DateTime)
    (dryRun : Bool) : Prop where
  nested : Nested s
  parent : ∃ cancelled, s.pc t = .awaitingEviction child cancelled
  evicting : s.Evicting cfg base cutoff dryRun (s.pc child)

/-- The child's last step, which returns `count`. -/
structure Reconciled (cfg : Config) (s s' : State) (base : List Row) (cutoff : DateTime) (dryRun : Bool)
    (count : Option ℕ) :
    Prop where
  count : count = some (base.countP (isExpired cfg cutoff) + s.buffer.countP (isOlder cfg cutoff · == some true))
  table : s'.table = if dryRun then base else base.filter (!isExpired cfg cutoff ·)
  buffer : s'.buffer = if dryRun then s.buffer else s.buffer.filter (!isOlder cfg cutoff · == some true)
  comparable : ∀ item ∈ s.buffer, isOlder cfg cutoff item ≠ none
  accepted : s'.accepted = s.accepted
  dropped : s.dropped ⊆ s'.dropped

theorem count_older (cfg : Config) (s : State) (cutoff : DateTime) :
    (s.buffer.map (isOlder cfg cutoff)).count (some true) = s.buffer.countP (isOlder cfg cutoff · == some true) := by
  rw [List.count, List.countP_map]
  rfl

theorem reconciled_finish (s : State) (child : ℕ) {deleted : ℕ} (counted : deleted = base.countP (isExpired cfg cutoff))
    (table : s.table = base.filter (!isExpired cfg cutoff ·)) {count : Option ℕ}
    (returned : (s.finishEviction cfg child cutoff deleted).pc child = .done (.returned count)) :
    Reconciled cfg s (s.finishEviction cfg child cutoff deleted) base cutoff false count := by
  revert returned
  unfold State.finishEviction
  dsimp only
  split
  · intro returned
    rw [State.pc_setPc_self] at returned
    cases returned
  · rename_i comparable
    intro returned
    rw [State.pc_setPc_self] at returned
    cases returned
    refine ⟨?_, table, rfl, fun item mem missing => comparable ?_, rfl, List.subset_append_left _ _⟩
    · rw [counted, count_older]
    · exact missing ▸ List.mem_map_of_mem mem

theorem reconciled_count (s : State) (child : ℕ) (table : s.table = base) {count : Option ℕ}
    (returned : (s.finishCount cfg child cutoff).pc child = .done (.returned count)) :
    Reconciled cfg s (s.finishCount cfg child cutoff) base cutoff true count := by
  revert returned
  unfold State.finishCount
  dsimp only
  split
  · intro returned
    rw [State.pc_setPc_self] at returned
    cases returned
  · rename_i comparable
    intro returned
    rw [State.pc_setPc_self] at returned
    cases returned
    refine ⟨?_, table, rfl, fun item mem missing => comparable ?_, rfl, List.Subset.refl _⟩
    · rw [table, count_older]
    · exact missing ▸ List.mem_map_of_mem mem

/-- The child either goes on, or is done. -/
def Proceeds (cfg : Config) (s : State) (child : ℕ) (base : List Row) (cutoff : DateTime) (dryRun : Bool)
    (outcome : Outcome)
    (s' : State) : Prop :=
  (s'.Evicting cfg base cutoff dryRun (s'.pc child) ∧ Filled s s') ∨
    s'.isDone child = true ∧ ∀ count, s'.pc child = .done (.returned count) →
      outcome = .returned ∧ Reconciled cfg s s' base cutoff dryRun count

theorem proceeds_on {pc : Pc} (evicting : (s₁.setPc child pc).Evicting cfg base cutoff dryRun pc)
    (filled : Filled s s₁) :
    Proceeds cfg s child base cutoff dryRun outcome (s₁.setPc child pc) := by
  refine .inl ⟨?_, filled.trans (untouched_setPc s₁ child pc).filled⟩
  rwa [State.pc_setPc_self]

theorem proceeds_fails (s₁ : State) (child : ℕ) {result : Result} (failed : ∀ count, result ≠ .returned count) :
    Proceeds cfg s child base cutoff dryRun outcome (s₁.setPc child (.done result)) := by
  refine .inr ⟨?_, fun count returned => ?_⟩
  · rw [State.isDone, State.pc_setPc_self]
  · rw [State.pc_setPc_self] at returned
    exact absurd (Pc.done.inj returned) (failed count)

theorem done_finishEviction (s : State) (child deleted : ℕ) :
    (s.finishEviction cfg child cutoff deleted).isDone child = true := by
  unfold State.finishEviction
  dsimp only
  split
  · rw [State.isDone, State.pc_setPc_self]
  · rw [State.isDone, State.pc_setPc_self]

theorem done_finishCount (s : State) (child : ℕ) : (s.finishCount cfg child cutoff).isDone child = true := by
  unfold State.finishCount
  rw [State.isDone, State.pc_setPc_self]

/-- **The child's own steps.** -/
theorem evicting_proceeds (evicting : s.Evicting cfg base cutoff dryRun (s.pc child))
    (taken : s.resume cfg child (s.pc child) outcome = some s') :
    Proceeds cfg s child base cutoff dryRun outcome s' := by
  cases at_ : s.pc child <;> rw [at_] at taken evicting <;> try exact evicting.elim
  case evictLock cutoff' dryRun' =>
    obtain ⟨rfl, rfl, table⟩ := evicting
    rcases outcome with _ | _ | _ | _
    case returned =>
      have locks : (if s.flushLock then none else some ({ s with flushLock := true }.setPc child
          (if dryRun' then .counting cutoff' else .evicting cutoff' .executing))) = some s' := taken
      have same : Filled s { s with flushLock := true } := .congr rfl rfl (List.Subset.refl _)
      split at locks
      · cases locks
      · obtain rfl := Option.some.inj locks
        cases dryRun' with
        | true => exact proceeds_on ⟨rfl, rfl, table⟩ same
        | false => exact proceeds_on ⟨rfl, rfl, table⟩ same
    case cancelled.false =>
      obtain rfl := Option.some.inj taken
      exact proceeds_fails s child nofun
    all_goals cases taken
  case counting cutoff' =>
    obtain ⟨rfl, rfl, table⟩ := evicting
    rcases outcome with _ | _ | _ | _
    case returned =>
      obtain rfl := Option.some.inj taken
      exact .inr ⟨done_finishCount s child, fun count returned => ⟨rfl, reconciled_count s child table returned⟩⟩
    case cancelled.true => cases taken
    all_goals
      obtain rfl := Option.some.inj taken
      exact proceeds_fails s.unlockFlush child nofun
  case evicting cutoff' phase =>
    obtain ⟨rfl, rfl, table⟩ := evicting
    have deleted : (s.deleteExpired cfg cutoff').table = base.filter (!isExpired cfg cutoff' ·) := by rw [← table]; rfl
    rcases outcome with _ | _ | _ | tookEffect
    case returned =>
      cases phase with
      | executing =>
        obtain rfl := Option.some.inj taken
        exact proceeds_on ⟨rfl, rfl, table⟩ (.refl s)
      | committing =>
        obtain rfl := Option.some.inj taken
        split
        · refine proceeds_on ⟨rfl, rfl, congrArg _ table, deleted⟩ ?_
          exact .congr rfl rfl (List.subset_append_left _ _)
        · refine .inr ⟨done_finishEviction _ child _, fun count returned => ⟨rfl, ?_⟩⟩
          have finished := reconciled_finish (s.deleteExpired cfg cutoff') child (congrArg _ table) deleted returned
          exact ⟨finished.count, finished.table, finished.buffer, finished.comparable, finished.accepted,
            List.Subset.trans (List.subset_append_left _ _) finished.dropped⟩
    case cancelled.true =>
      cases phase with
      | executing => cases taken
      | committing =>
        obtain rfl := Option.some.inj taken
        exact proceeds_fails (s.deleteExpired cfg cutoff').unlockFlush child nofun
    all_goals
      cases phase <;>
        (obtain rfl := Option.some.inj taken
         exact proceeds_fails s.unlockFlush child nofun)
  case refreshing cutoff' deleted =>
    obtain ⟨rfl, rfl, counted, table⟩ := evicting
    rcases outcome with _ | _ | _ | _
    case returned =>
      obtain rfl := Option.some.inj taken
      exact .inr ⟨done_finishEviction s child _, fun count returned =>
        ⟨rfl, reconciled_finish s child counted table returned⟩⟩
    case cancelled.true => cases taken
    all_goals
      obtain rfl := Option.some.inj taken
      exact proceeds_fails s.unlockFlush child nofun

theorem State.Evicting.frame {pc : Pc} (evicting : s.Evicting cfg base cutoff dryRun pc) (table : s'.table = s.table) :
    s'.Evicting cfg base cutoff dryRun pc := by
  unfold State.Evicting at evicting ⊢
  rw [table]
  exact evicting

namespace EvictProgress

theorem running (evict : EvictProgress cfg s t child base cutoff dryRun) : s.isDone child = false := by
  have evicts := evicts_of_evicting evict.evicting
  unfold State.isDone
  split
  · rename_i done
    rw [done] at evicts
    cases evicts
  · rfl

theorem distinct (evict : EvictProgress cfg s t child base cutoff dryRun) : child ≠ t := by
  obtain ⟨cancelled, parent⟩ := evict.parent
  rintro rfl
  have evicts := evicts_of_evicting evict.evicting
  rw [parent] at evicts
  cases evicts

theorem alive (evict : EvictProgress cfg s t child base cutoff dryRun) : t < s.spawned ∧ child < s.spawned := by
  obtain ⟨cancelled, parent⟩ := evict.parent
  have evicts := evicts_of_evicting evict.evicting
  refine ⟨evict.nested.serial.alive (by simp [parent]), evict.nested.serial.alive fun unborn => ?_⟩
  rw [unborn] at evicts
  cases evicts

/-- The parent awaits its child, however often it is cancelled. -/
theorem parent_step (evict : EvictProgress cfg s t child base cutoff dryRun) (nested' : Nested s')
    (taken : s.resume cfg t (s.pc t) outcome = some s') : EvictProgress cfg s' t child base cutoff dryRun ∧
    Filled s s' := by
  obtain ⟨cancelled, parent⟩ := evict.parent
  have running := evict.running
  rw [parent] at taken
  rcases outcome with _ | _ | _ | _
  case returned =>
    obtain ⟨result, done, _⟩ := resume_awaitingEviction taken
    rw [State.isDone_of_done done] at running
    cases running
  case cancelled.false =>
    obtain rfl := Option.some.inj taken
    rw [running] at nested' ⊢
    refine ⟨⟨nested', ⟨true, State.pc_setPc_self⟩, ?_⟩, (untouched_setPc s t _).filled⟩
    simp only [Bool.false_eq_true, if_false]
    rw [State.pc_setPc_ne evict.distinct]
    exact evict.evicting.frame rfl
  all_goals cases taken

/-- **One step while the child runs**: it goes on, or this was its last. -/
theorem proceeds (evict : EvictProgress cfg s t child base cutoff dryRun) (taken : step cfg s event = some s') :
    (EvictProgress cfg s' t child base cutoff dryRun ∧ Filled s s') ∨
      s'.isDone child = true ∧ (∃ cancelled, s'.pc t = .awaitingEviction child cancelled) ∧
        ∀ count, s'.pc child = .done (.returned count) →
          event = .resume child .returned ∧ Reconciled cfg s s' base cutoff dryRun count := by
  have serial := evict.nested.serial
  have nested' := evict.nested.step taken
  obtain ⟨parentAlive, childAlive⟩ := evict.alive
  obtain ⟨cancelled, parent⟩ := evict.parent
  by_cases own : ∃ outcome, event = .resume t outcome
  · obtain ⟨outcome, rfl⟩ := own
    exact .inl (evict.parent_step nested' (step_resume taken).2)
  push Not at own
  have stays : s'.pc t = .awaitingEviction child cancelled := (step_others serial taken parentAlive own).trans parent
  by_cases childs : ∃ outcome, event = .resume child outcome
  · obtain ⟨outcome, rfl⟩ := childs
    rcases evicting_proceeds evict.evicting (step_resume taken).2 with ⟨evicting, filled⟩ | ⟨done, returned⟩
    · exact .inl ⟨⟨nested', ⟨cancelled, stays⟩, evicting⟩, filled⟩
    · refine .inr ⟨done, ⟨cancelled, stays⟩, fun count at_ => ?_⟩
      obtain ⟨rfl, reconciled⟩ := returned count at_
      exact ⟨rfl, reconciled⟩
  push Not at childs
  have child_stays := step_others serial taken childAlive childs
  have inside : (s.pc t).holdsMutation = true := by rw [parent]; rfl
  refine .inl ?_
  rcases bystander evict.nested inside taken with ⟨telegram, rfl⟩ | ⟨u, outcome, rfl, same | evicts⟩ | untouched
  · obtain rfl := Option.some.inj taken
    refine ⟨⟨nested', ⟨cancelled, stays⟩, ?_⟩, filled_store s telegram⟩
    rw [child_stays]
    exact evict.evicting.frame (stored s telegram).table
  · exact absurd (same ▸ rfl) (own outcome)
  · obtain ⟨parent', cancelled', at_⟩ := evict.nested.child u evicts
    have one : parent' = t := evict.nested.inside_unique (by rw [at_]; rfl) inside
    rw [one, parent] at at_
    exact absurd ((Pc.awaitingEviction.inj at_).1 ▸ rfl) (childs outcome)
  · refine ⟨⟨nested', ⟨cancelled, stays⟩, ?_⟩, untouched.filled⟩
    rw [child_stays]
    exact evict.evicting.frame untouched.table

end EvictProgress

/-! ## The parent's side -/

/-- Task `t` gets to run its eviction. -/
def Admitted (s : State) (t : ℕ) (cutoff : DateTime) (dryRun : Bool) (s' : State) : Prop :=
  (s.pc t = .mutation (.gated (.evictOlderThan cutoff dryRun)) ∨ s.pc t = .evictGate cutoff dryRun) ∧
    s'.pc t = .awaitingEviction s.spawned false

theorem startEviction_begins (s : State) (t : ℕ) (older : t < s.spawned)
    (nested : Nested (s.startEviction t cutoff dryRun)) :
    EvictProgress cfg (s.startEviction t cutoff dryRun) t s.spawned s.table cutoff dryRun := by
  refine ⟨nested, ⟨false, State.pc_setPc_self⟩, ?_⟩
  have other : s.spawned ≠ t := by omega
  have child : (s.startEviction t cutoff dryRun).pc s.spawned = .evictLock cutoff dryRun := by
    unfold State.startEviction
    rw [State.pc_setPc_ne other]
    simp [State.spawn, State.setPc, State.pc]
  rw [child]
  exact ⟨rfl, rfl, rfl⟩

theorem admitted_begins (nested : Nested s) (admitted : Admitted s t cutoff dryRun s')
    (taken : step cfg s (.resume t .returned) = some s') :
    EvictProgress cfg s' t s.spawned s.table cutoff dryRun ∧ Untouched s s' := by
  have nested' := nested.step taken
  have resumed := (step_resume taken).2
  obtain ⟨at_ | at_, awaits⟩ := admitted
  · have older : t < s.spawned := nested.serial.alive (by simp [at_])
    rw [at_] at resumed
    have waits : (if s.mutationLock then none
      else if s.closing ∧ ¬ (Waiting.gated (.evictOlderThan cutoff dryRun)).isClose then
        some (s.refuse t (.gated (.evictOlderThan cutoff dryRun)))
      else some (s.enter cfg t (.gated (.evictOlderThan cutoff dryRun)))) = some s' := resumed
    split at waits
    · cases waits
    · split at waits
      · obtain rfl := Option.some.inj waits
        rw [State.refuse, State.pc_setPc_self] at awaits
        · cases awaits
        · exact nofun
      · obtain rfl := Option.some.inj waits
        revert awaits nested'
        unfold State.enter
        dsimp only
        split
        · intro nested' _
          exact ⟨startEviction_begins (s.acquire t) t older nested', ⟨rfl, rfl, rfl, rfl⟩⟩
        · intro _ awaits
          rw [State.pc_setPc_self] at awaits
          cases awaits
  · have older : t < s.spawned := nested.serial.alive (by simp [at_])
    rw [at_] at resumed
    obtain rfl := Option.some.inj resumed
    split at awaits
    · rename_i allowed
      rw [if_pos allowed] at nested' ⊢
      exact ⟨startEviction_begins s t older nested', ⟨rfl, rfl, rfl, rfl⟩⟩
    · rw [State.pc_setPc_self] at awaits
      cases awaits

/-- The child has returned, and the parent has still to notice. -/
structure Reaping (s : State) (t child : ℕ) (count : Option ℕ) (finished : State) : Prop where
  nested : Nested s
  parent : ∃ cancelled, s.pc t = .awaitingEviction child cancelled
  child : s.pc child = .done (.returned count)
  table : s.table = finished.table
  filled : Filled finished s

/-- With its child done, the parent's next step is its last. -/
theorem Reaping.leaves {count : Option ℕ} {finished : State} (reaping : Reaping s t child count finished)
    (taken : step cfg s (.resume t outcome) = some s') :
    (s'.pc t = .done .cancelled ∨ s'.pc t = .done (.returned count)) ∧ s'.mutationOwner = none ∧ Untouched s s' := by
  obtain ⟨cancelled, parent⟩ := reaping.parent
  have done : s.isDone child = true := State.isDone_of_done reaping.child
  have resumed := (step_resume taken).2
  rw [parent] at resumed
  have left {result : Result} : Untouched s (s.leave t result) := ⟨rfl, rfl, rfl, rfl⟩
  rcases outcome with _ | _ | _ | _
  case returned =>
    obtain ⟨result, ended, rfl⟩ := resume_awaitingEviction resumed
    obtain rfl : Result.returned count = result := Pc.done.inj (reaping.child.symm.trans ended)
    refine ⟨?_, rfl, left⟩
    rw [State.leave, State.pc_setPc_self]
    cases cancelled with
    | true => exact .inl rfl
    | false => exact .inr rfl
  case cancelled.false =>
    obtain rfl := Option.some.inj resumed
    rw [if_pos done]
    exact ⟨.inl State.pc_setPc_self, rfl, left⟩
  all_goals cases resumed

/-- A task that is done stays so. -/
theorem step_done {result : Result} (nested : Nested s) (done : s.pc u = .done result)
    (taken : step cfg s event = some s') :
    s'.pc u = .done result := by
  refine (step_others nested.serial taken (nested.serial.alive (by simp [done])) ?_).trans done
  rintro outcome rfl
  have resumed := (step_resume taken).2
  rw [done] at resumed
  cases outcome <;> cases resumed

theorem run_done {events : List Event} {result : Result} (nested : Nested s) (done : s.pc u = .done result)
    (ran : EventMachine.run (step cfg) s events = some s') : s'.pc u = .done result :=
  (run_keeps (I := fun s => Nested s ∧ s.pc u = .done result)
    (fun _ _ _ both taken => ⟨both.1.step taken, step_done both.1 both.2 taken⟩) ⟨nested, done⟩ ran).2

theorem Reaping.proceeds {count : Option ℕ} {finished : State} (reaping : Reaping s t child count finished)
    (taken : step cfg s event = some s') :
    Reaping s' t child count finished ∨ ∃ result, s'.pc t = .done result := by
  obtain ⟨cancelled, parent⟩ := reaping.parent
  have serial := reaping.nested.serial
  have inside : (s.pc t).holdsMutation = true := by rw [parent]; rfl
  by_cases own : ∃ outcome, event = .resume t outcome
  · obtain ⟨outcome, rfl⟩ := own
    rcases (reaping.leaves taken).1 with left | left
    · exact .inr ⟨_, left⟩
    · exact .inr ⟨_, left⟩
  push Not at own
  refine .inl ?_
  have stays := step_others serial taken (serial.alive (by simp [parent])) own
  have child_stays := step_done reaping.nested reaping.child taken
  have nested' := reaping.nested.step taken
  rcases bystander reaping.nested inside taken with ⟨telegram, rfl⟩ | ⟨u, outcome, rfl, same | evicts⟩ | untouched
  · obtain rfl := Option.some.inj taken
    exact ⟨nested', ⟨cancelled, stays.trans parent⟩, child_stays,
      (stored s telegram).table.trans reaping.table, reaping.filled.trans (filled_store s telegram)⟩
  · exact absurd (same ▸ rfl) (own outcome)
  · obtain ⟨parent', cancelled', at_⟩ := reaping.nested.child u evicts
    have one : parent' = t := reaping.nested.inside_unique (by rw [at_]; rfl) inside
    rw [one, parent] at at_
    rw [← (Pc.awaitingEviction.inj at_).1, reaping.child] at evicts
    cases evicts
  · exact ⟨nested', ⟨cancelled, stays.trans parent⟩, child_stays,
      untouched.table.trans reaping.table, reaping.filled.trans untouched.filled⟩

theorem Reaping.run {count : Option ℕ} {finished : State} {events : List Event}
    (reaping : Reaping s t child count finished)
    (ran : EventMachine.run (step cfg) s events = some s') :
    Reaping s' t child count finished ∨ ∃ result, s'.pc t = .done result := by
  refine (run_keeps (I := fun s => Nested s ∧ (Reaping s t child count finished ∨ ∃ result, s.pc t = .done result)) ?_
    ⟨reaping.nested, .inl reaping⟩ ran).2
  rintro s₁ event s₂ ⟨nested, reaping | ⟨result, done⟩⟩ taken
  · exact ⟨nested.step taken, reaping.proceeds taken⟩
  · exact ⟨nested.step taken, .inr ⟨result, step_done nested done taken⟩⟩

/-- **The eviction's run** up to its parent's waking: one step of the child
looked at the whole table and the whole buffer, and after it only `store()`
brought in more. -/
theorem EvictProgress.run {events : List Event} {count : Option ℕ} {cancelled : Bool}
    (evict : EvictProgress cfg s t child base cutoff dryRun) (ran : EventMachine.run (step cfg) s events = some s')
    (awaits : s'.pc t = .awaitingEviction child cancelled) (finished : s'.pc child = .done (.returned count)) :
    ∃ early late m m', events = early ++ .resume child .returned :: late ∧
      EventMachine.run (step cfg) s early = some m ∧
      step cfg m (.resume child .returned) = some m' ∧ Filled s m ∧ Reconciled cfg m m' base cutoff dryRun count ∧
      Reaping s' t child count m' := by
  induction events generalizing s with
  | nil =>
    cases ran
    have running := evict.running
    rw [State.isDone, finished] at running
    cases running
  | cons event rest ih =>
    obtain ⟨next, taken, later⟩ := run_cons.mp ran
    rcases evict.proceeds taken with ⟨still, filled⟩ | ⟨done, parent, ended⟩
    · obtain ⟨early, late, m, m', split, reached, last, filled', reconciled, reaping⟩ := ih still later
      exact ⟨event :: early, late, m, m', by rw [split, List.cons_append], run_cons.mpr ⟨next, taken, reached⟩, last,
        filled.trans filled', reconciled, reaping⟩
    · have nested' := evict.nested.step taken
      cases at_ : next.pc child with
      | done result =>
        have same := run_done nested' at_ later
        rw [finished] at same
        obtain rfl := Pc.done.inj same
        obtain ⟨rfl, reconciled⟩ := ended count at_
        have reaping : Reaping next t child count next := ⟨nested', parent, at_, rfl, .refl next⟩
        refine ⟨[], rest, s, next, rfl, rfl, taken, .refl s, reconciled, ?_⟩
        refine (reaping.run later).resolve_right ?_
        rintro ⟨result, left⟩
        rw [awaits] at left
        cases left
      | _ =>
        rw [State.isDone, at_] at done
        cases done

/-! ## Before it is admitted -/

/-- An eviction that has not got the mutation lock, or waits for the end of a
backup with it. -/
def Pc.evictionWaits : Pc → Bool
  | .gate (.evictOlderThan ..) | .gate (.evictExpired ..) | .mutation (.gated (.evictOlderThan ..))
  | .mutation (.gated (.evictExpired ..)) | .evictGate .. => true
  | _ => false

theorem unadmitted_untouched (waits : (s.pc t).evictionWaits = true)
    (taken : step cfg s (.resume t outcome) = some s') :
    Untouched s s' := by
  have resumed := (step_resume taken).2
  have starts (s : State) (cutoff : DateTime) (dryRun : Bool) : Untouched s (s.startEviction t cutoff dryRun) :=
    ⟨rfl, rfl, rfl, rfl⟩
  cases at_ : s.pc t <;> rw [at_] at resumed waits <;> try (cases waits; done)
  case gate body =>
    rcases outcome with _ | _ | _ | _
    case returned => obtain rfl := Option.some.inj resumed; exact untouched_setPc s t _
    case cancelled.false => obtain rfl := Option.some.inj resumed; exact untouched_setPc s t _
    all_goals cases resumed
  case mutation next =>
    rcases outcome with _ | _ | _ | _
    case returned =>
      have locked : (if s.mutationLock then none
        else if s.closing ∧ ¬ next.isClose then some (s.refuse t next)
        else some (s.enter cfg t next)) = some s' := by cases next <;> exact resumed
      split at locked
      · cases locked
      · split at locked
        · obtain rfl := Option.some.inj locked
          cases next <;> exact untouched_setPc s t _
        · obtain rfl := Option.some.inj locked
          cases next with
          | gated body =>
            unfold State.enter
            dsimp only
            split
            · cases body with
              | evictOlderThan cutoff dryRun => exact ⟨rfl, rfl, rfl, rfl⟩
              | evictExpired cutoff dryRun => cases cutoff <;> exact ⟨rfl, rfl, rfl, rfl⟩
              | _ => cases waits
            · exact untouched_setPc s t _
          | _ => cases waits
    case cancelled.false => cases next <;> (obtain rfl := Option.some.inj resumed; exact untouched_setPc s t _)
    all_goals cases next <;> cases resumed
  case evictGate cutoff dryRun =>
    rcases outcome with _ | _ | _ | _
    case returned =>
      obtain rfl := Option.some.inj resumed
      split
      · exact starts s cutoff dryRun
      · exact untouched_setPc s t _
    case cancelled.false =>
      obtain rfl := Option.some.inj resumed
      exact ⟨rfl, rfl, rfl, rfl⟩
    all_goals cases resumed

/-! ## Clearing -/

/-- None of the first `n` telegrams accepted is pending or stored. -/
def State.Gone (s : State) (n : ℕ) : Prop := ∀ item ∈ s.ledger.live, n ≤ item.number

theorem State.Gone.step (gone : s.Gone n) (serial : Serial s) (known : n ≤ s.accepted.length)
    (taken : step cfg s event = some s') : s'.Gone n := by
  intro item live
  rcases moves_live (step_moves serial taken) live with before | accepted
  · exact gone item before
  · exact known.trans (number_of_newer accepted)

/-- How far a `clear()` has come. -/
def State.Clearing (s : State) (n : ℕ) : Pc → Prop
  | .clearLock => True
  | .clearing _ => ∀ item ∈ s.buffer, n ≤ item.number
  | .done (.returned _) => s.Gone n
  | .done _ => True
  | _ => False

structure ClearProgress (s : State) (t n : ℕ) : Prop where
  nested : Nested s
  alive : t < s.spawned
  known : n ≤ s.accepted.length
  progress : s.Clearing n (s.pc t)

theorem Around.cleared (around : Around s t true) (recent : ∀ item ∈ s.buffer, n ≤ item.number) :
    (s.deleteAll.unlockFlush.leave t (.returned none)).Gone n := by
  have emptied := around.congr s.deleteAll.unlockFlush rfl rfl rfl rfl
  have ledger : (s.deleteAll.unlockFlush.leave t (.returned none)).ledger = s.deleteAll.unlockFlush.ledgerWith [] :=
    (emptied.leaves _).ledger
  intro item live
  rw [ledger] at live
  simp only [Ledger.live, Ledger.pending, State.ledgerWith, List.nil_append, List.mem_append] at live
  rcases live with buffered | stored
  · exact recent item buffered
  · exact absurd stored List.not_mem_nil

theorem ClearProgress.own (clear : ClearProgress s t n) (taken : s.resume cfg t (s.pc t) outcome = some s') :
    s'.Clearing n (s'.pc t) := by
  have progress := clear.progress
  have around (inside : (s.pc t).holdsMutation = true) := clear.nested.serial.around inside
  have fails (s₁ : State) {result : Result} (failed : ∀ count, result ≠ .returned count) :
      (s₁.leave t result).Clearing n ((s₁.leave t result).pc t) := by
    rw [State.leave, State.pc_setPc_self]
    cases result with
    | returned count => exact absurd rfl (failed count)
    | raised => trivial
    | cancelled => trivial
  cases at_ : s.pc t <;> rw [at_] at taken progress around <;> try exact progress.elim
  case done => cases outcome <;> cases taken
  case clearLock =>
    rcases outcome with _ | _ | _ | _
    case returned =>
      have locks : (if s.flushLock then none else
          some ({ s.dropBuffer .clear with flushLock := true }.setPc t (.clearing .executing))) = some s' := taken
      split at locks
      · cases locks
      · obtain rfl := Option.some.inj locks
        rw [State.pc_setPc_self]
        exact fun item mem => absurd mem List.not_mem_nil
    case cancelled.false =>
      obtain rfl := Option.some.inj taken
      exact fails s (by rintro _ ⟨⟩)
    all_goals cases taken
  case clearing phase =>
    rcases outcome with _ | _ | _ | _
    case returned =>
      cases phase with
      | executing =>
        obtain rfl := Option.some.inj taken
        rw [State.pc_setPc_self]
        exact progress
      | committing =>
        obtain rfl := Option.some.inj taken
        have gone := (around rfl).cleared progress
        rw [State.leave, State.pc_setPc_self]
        exact gone
    case cancelled.true =>
      cases phase with
      | executing => cases taken
      | committing =>
        obtain rfl := Option.some.inj taken
        exact fails _ (by rintro _ ⟨⟩)
    all_goals
      cases phase <;>
        (obtain rfl := Option.some.inj taken
         exact fails _ (by rintro _ ⟨⟩))

theorem ClearProgress.step (clear : ClearProgress s t n) (taken : step cfg s event = some s') :
    ClearProgress s' t n := by
  have serial := clear.nested.serial
  refine ⟨clear.nested.step taken, clear.alive.trans_le (step_grown serial taken),
    clear.known.trans (step_known serial taken), ?_⟩
  by_cases own : ∃ outcome, event = .resume t outcome
  · obtain ⟨outcome, rfl⟩ := own
    exact clear.own (step_resume taken).2
  · push Not at own
    have progress := clear.progress
    rw [step_others serial taken clear.alive own]
    cases at_ : s.pc t <;> rw [at_] at progress <;> try first | exact progress.elim | trivial
    case clearing phase =>
      intro item mem
      rcases bystander_alone clear.nested (by rw [at_]; rfl) (by rw [at_]; exact nofun) taken own with
        ⟨telegram, rfl⟩ | untouched
      · obtain rfl := Option.some.inj taken
        rcases (stored s telegram).buffer item mem with old | new
        · exact progress item old
        · exact new ▸ clear.known
      · exact progress item (untouched.buffer ▸ mem)
    case done result =>
      cases result with
      | returned count => exact State.Gone.step progress serial clear.known taken
      | raised => trivial
      | cancelled => trivial

/-! ## Whole runs -/

/-- An eviction admitted in `s₀` ends in `s`, `during` lying between; its child
returned `count`. -/
structure Evicted (cfg : Config) (s₀ s₁ : State) (during : List Event) (t : ℕ) (cutoff : DateTime) (dryRun : Bool)
    (count : Option ℕ) (s : State) : Prop where
  result : s.pc t = .done .cancelled ∨ s.pc t = .done (.returned count)
  table : s.table = if dryRun then s₀.table else s₀.table.filter (!isExpired cfg cutoff ·)
  detached : ∀ u, (s.pc u).detached = []
  /-- the child's last step, `m` being the state that took it -/
  looked : ∃ early late m m', during = early ++ .resume s₀.spawned .returned :: late ∧
    EventMachine.run (step cfg) s₁ early = some m ∧ step cfg m (.resume s₀.spawned .returned) = some m' ∧
    count = some (s₀.table.countP (isExpired cfg cutoff) + m.buffer.countP (isOlder cfg cutoff · == some true)) ∧
    m'.buffer = (if dryRun then m.buffer else m.buffer.filter (!isOlder cfg cutoff · == some true)) ∧
    (∀ item ∈ s.buffer, item.number < m.accepted.length → dryRun = true ∨ isOlder cfg cutoff item = some false) ∧
    ∀ item, item ∈ s₀.buffer ∨ item ∈ m.buffer → dryRun = true ∨ isOlder cfg cutoff item = some false →
      item ∈ s.buffer ∨ (item, DropReason.capacity) ∈ s.dropped

theorem evicted {during : List Event} {s₀ s₂ : State} {cancelled : Bool} {count : Option ℕ} (nested₀ : Nested s₀)
    (taken : step cfg s₀ (.resume t .returned) = some s₁) (admitted : Admitted s₀ t cutoff dryRun s₁)
    (ran : EventMachine.run (step cfg) s₁ during = some s₂) (awaits : s₂.pc t = .awaitingEviction s₀.spawned cancelled)
    (finished : s₂.pc s₀.spawned = .done (.returned count)) (ended : step cfg s₂ (.resume t outcome) = some s) :
    Evicted cfg s₀ s₁ during t cutoff dryRun count s := by
  obtain ⟨begun, unchanged⟩ := admitted_begins nested₀ admitted taken
  obtain ⟨early, late, m, m', split, reached, last, filled, reconciled, reaping⟩ := begun.run ran awaits finished
  have nested := reaping.nested.step ended
  obtain ⟨result, free, untouched⟩ := reaping.leaves ended
  have after : Filled m' s := reaping.filled.trans untouched.filled
  have before : Filled s₀ m := unchanged.filled.trans filled
  have lost : m.dropped ⊆ s.dropped := List.Subset.trans reconciled.dropped after.dropped
  refine ⟨result, untouched.table.trans (reaping.table.trans reconciled.table), fun u => ?_, early, late, m, m', split,
    reached, last, reconciled.count, reconciled.buffer, fun item mem old => ?_, fun item mem newer => ?_⟩
  · refine Pc.detached_of_outside ?_
    by_contra inside
    have owner := (nested.serial.owner u).mp (by simpa using inside)
    rw [free] at owner
    cases owner
  · cases dryRun with
    | true => exact .inl rfl
    | false =>
      refine .inr ?_
      rcases after.fresh item mem with looked | new
      · rw [reconciled.buffer, if_neg Bool.false_ne_true, List.mem_filter] at looked
        have comparable := reconciled.comparable item looked.1
        have kept := looked.2
        cases compared : isOlder cfg cutoff item with
        | none => exact absurd compared comparable
        | some older =>
          rw [compared] at kept
          cases older with
          | true => cases kept
          | false => rfl
      · rw [reconciled.accepted] at new
        omega
  · have looked : item ∈ m.buffer ∨ (item, DropReason.capacity) ∈ s.dropped := by
      rcases mem with first | there
      · exact (before.kept item first).imp_right fun gone => lost gone
      · exact .inl there
    rcases looked with there | gone
    · refine after.kept item ?_
      rw [reconciled.buffer]
      cases dryRun with
      | true => exact there
      | false =>
        rcases newer with impossible | kept
        · cases impossible
        · rw [if_neg Bool.false_ne_true, List.mem_filter]
          refine ⟨there, ?_⟩
          rw [kept]
          rfl
    · exact .inr gone

/-- A `clear()` that got the mutation lock in `s₀` has returned by `s`. -/
theorem cleared {during : List Event} {s₀ : State} {count : Option ℕ} (nested₀ : Nested s₀)
    (taken : step cfg s₀ (.resume t .returned) = some s₁) (admitted : s₁.pc t = .clearLock)
    (ran : EventMachine.run (step cfg) s₁ during = some s) (returned : s.pc t = .done (.returned count)) :
    s.Gone s₀.accepted.length := by
  have nested₁ := nested₀.step taken
  have begun : ClearProgress s₁ t s₀.accepted.length := by
    refine ⟨nested₁, nested₁.serial.alive (by simp [admitted]), step_known nested₀.serial taken, ?_⟩
    rw [admitted]
    trivial
  have clear : ClearProgress s t s₀.accepted.length :=
    run_keeps (I := fun s => ClearProgress s t s₀.accepted.length) (fun _ _ _ clear taken => clear.step taken) begun ran
  have gone := clear.progress
  rwa [returned] at gone

/-- The step in which it returns leaves no row at all. -/
theorem clears_table (clearing : (s.pc t).inside = some .clear) (taken : step cfg s (.resume t outcome) = some s')
    {count : Option ℕ} (returned : s'.pc t = .done (.returned count)) : s'.table = [] := by
  have resumed := (step_resume taken).2
  have fails {s₁ : State} {result : Result} (left : s' = s₁.leave t result) (failed : result ≠ .returned count) :
    s'.table = [] := by
    rw [left, State.leave, State.pc_setPc_self] at returned
    exact absurd (Pc.done.inj returned) failed
  cases at_ : s.pc t <;> rw [at_] at resumed clearing <;> try (cases clearing; done)
  case flushLock caller => cases caller <;> cases clearing
  case flushGate caller _ _ => cases caller <;> cases clearing
  case flushBatch caller _ _ => cases caller <;> cases clearing
  case flushRow caller _ _ => cases caller <;> cases clearing
  case clearLock =>
    rcases outcome with _ | _ | _ | _
    case returned =>
      have locks : (if s.flushLock then none else
          some ({ s.dropBuffer .clear with flushLock := true }.setPc t (.clearing .executing))) = some s' := resumed
      split at locks
      · cases locks
      · obtain rfl := Option.some.inj locks
        rw [State.pc_setPc_self] at returned
        cases returned
    case cancelled.false => exact fails (Option.some.inj resumed).symm (by rintro ⟨⟩)
    all_goals cases resumed
  case clearing phase =>
    rcases outcome with _ | _ | _ | _
    case returned =>
      cases phase with
      | executing =>
        obtain rfl := Option.some.inj resumed
        rw [State.pc_setPc_self] at returned
        cases returned
      | committing =>
        obtain rfl := Option.some.inj resumed
        rfl
    case cancelled.true =>
      cases phase with
      | executing => cases resumed
      | committing => exact fails (Option.some.inj resumed).symm (by rintro ⟨⟩)
    all_goals cases phase <;> exact fails (Option.some.inj resumed).symm (by rintro ⟨⟩)

/-- **Evicted and cleared telegrams do not come back.** -/
theorem removed_stay_removed {initialized : Bool} {events : List Event} (ran : run cfg initialized events = some s) :
    (∀ before during t outcome s₀ s₁ s₂ cutoff dryRun cancelled count,
      events = before ++ .resume t .returned :: (during ++ [.resume t outcome]) → run cfg initialized before = some s₀ →
      step cfg s₀ (.resume t .returned) = some s₁ → Admitted s₀ t cutoff dryRun s₁ →
      EventMachine.run (step cfg) s₁ during = some s₂ → s₂.pc t = .awaitingEviction s₀.spawned cancelled →
      s₂.pc s₀.spawned = .done (.returned count) → Evicted cfg s₀ s₁ during t cutoff dryRun count s) ∧
    (∀ t outcome s', (s.pc t).evictionWaits = true → step cfg s (.resume t outcome) = some s' → Untouched s s') ∧
    (∀ before during t s₀ s₁ count, events = before ++ .resume t .returned :: during →
      run cfg initialized before = some s₀ → step cfg s₀ (.resume t .returned) = some s₁ → s₁.pc t = .clearLock →
      EventMachine.run (step cfg) s₁ during = some s → s.pc t = .done (.returned count) →
      ∀ item, item.number < s₀.accepted.length → item ∉ s.buffer ∧ item ∉ s.inFlight ∧ Row.ofAccepted item ∉ s.table) ∧
    ∀ t outcome s' count, (s.pc t).inside = some .clear → step cfg s (.resume t outcome) = some s' →
      s'.pc t = .done (.returned count) → s'.table = [] := by
  refine ⟨?_, fun t outcome s' waits taken => unadmitted_untouched waits taken, ?_,
    fun t outcome s' count clearing taken returned => clears_table clearing taken returned⟩
  · rintro before during t outcome s₀ s₁ s₂ cutoff dryRun cancelled count rfl reached taken admitted
      ran₂ awaits finished
    obtain ⟨s₀', reached', rest⟩ := run_append.mp ran
    cases reached.symm.trans reached'
    obtain ⟨s₁', taken', later⟩ := run_cons.mp rest
    cases taken.symm.trans taken'
    obtain ⟨s₂', ran₂', last⟩ := run_append.mp later
    cases ran₂.symm.trans ran₂'
    obtain ⟨s', ended, ends⟩ := run_cons.mp last
    cases ends
    exact evicted (run_nested reached) taken admitted ran₂ awaits finished ended
  · rintro before during t s₀ s₁ count rfl reached taken admitted ran₁ returned item old
    have gone := cleared (run_nested reached) taken admitted ran₁ returned
    have absent : item ∉ s.ledger.live := fun live => absurd (gone item live) (by omega)
    simp only [Ledger.live, Ledger.pending, List.mem_append, not_or] at absent
    exact ⟨absent.1.2, absent.1.1, fun row => absent.2 (mem_flushed.mpr row)⟩

/-- A telegram in the table and the same one in the buffer. -/
def storedTwice (telegram : StoredTelegram) : List Event :=
  [.call (.storeMany [telegram]), .resume 0 .returned, .resume 0 .returned, .resume 0 .returned, .resume 0 .returned,
    .store telegram]

/-- An eviction up to its parent's waking, while the parent is cancelled once. -/
def cancelledMeanwhile : List Event :=
  [.resume 2 .returned, .resume 2 .returned, .cancel 1, .resume 1 (.cancelled false), .resume 2 .returned,
    .resume 2 .returned]

theorem cancelled_eviction_finishes :
    ∃ s₀ s₁ s, run sampleConfig true (storedTwice sampleTelegram ++
        [.call (.evictOlderThan (.ofMicros 1) false), .resume 1 .returned]) = some s₀ ∧
      step sampleConfig s₀ (.resume 1 .returned) = some s₁ ∧
      EventMachine.run (step sampleConfig) s₁ (cancelledMeanwhile ++ [.resume 1 .returned]) = some s ∧
      s.table.length = 0 ∧ s.buffer.length = 0 ∧
      Evicted sampleConfig s₀ s₁ cancelledMeanwhile 1 (.ofMicros 1) false (some 2) s := by
  obtain ⟨s₀, reached, at_, child⟩ : ∃ s₀, run sampleConfig true (storedTwice sampleTelegram ++
      [.call (.evictOlderThan (.ofMicros 1) false), .resume 1 .returned]) = some s₀ ∧
      s₀.pc 1 = .mutation (.gated (.evictOlderThan (.ofMicros 1) false)) ∧ s₀.spawned = 2 := ⟨_, rfl, rfl, rfl⟩
  obtain ⟨s₁, taken, awaits⟩ : ∃ s₁, step sampleConfig s₀ (.resume 1 .returned) = some s₁ ∧
      s₁.pc 1 = .awaitingEviction s₀.spawned false := by
    cases reached
    exact ⟨_, rfl, rfl⟩
  obtain ⟨s₂, ran, cancelled, finished⟩ : ∃ s₂, EventMachine.run (step sampleConfig) s₁ cancelledMeanwhile = some s₂ ∧
      s₂.pc 1 = .awaitingEviction s₀.spawned true ∧ s₂.pc s₀.spawned = .done (.returned (some 2)) := by
    cases reached
    cases taken
    exact ⟨_, rfl, rfl, rfl⟩
  obtain ⟨s, ended, rows, buffered⟩ : ∃ s, step sampleConfig s₂ (.resume 1 .returned) = some s ∧
      s.table.length = 0 ∧ s.buffer.length = 0 := by
    cases reached
    cases taken
    cases ran
    exact ⟨_, rfl, rfl, rfl⟩
  have last : EventMachine.run (step sampleConfig) s₁ (cancelledMeanwhile ++ [.resume 1 .returned]) = some s :=
    run_append.mpr ⟨s₂, ran, run_cons.mpr ⟨s, ended, rfl⟩⟩
  have whole := run_append.mpr ⟨s₀, reached, run_cons.mpr ⟨s₁, taken, last⟩⟩
  exact ⟨s₀, s₁, s, reached, taken, last, rows, buffered,
    (removed_stay_removed whole).1 _ _ 1 .returned s₀ s₁ s₂ (.ofMicros 1) false true (some 2) rfl reached taken
      ⟨.inl at_, awaits⟩ ran cancelled finished⟩

/-- A zone that leaves summer time, two offsets apart for one reading. -/
def autumnConfig : Config := ⟨.sqlite, 2, Nat.zero_lt_two, fun _ _ fold => if fold then 3600000000 else 7200000000⟩

/-- Half past two, the second time. -/
def repeatedTelegram : StoredTelegram :=
  { sampleTelegram with timestamp := { wall := 9000000000, fold := true, tzinfo := some (.zone 0) } }

/-- A quarter to three, the first time. -/
def repeatedCutoff : DateTime := { wall := 9900000000, tzinfo := some (.zone 0) }

/-- What an eviction leaves. A `store()` comes between its child's last step and
the parent's waking; a cutoff in the same zone is compared by its digits in the
buffer and by its instant in the table; a parent that was cancelled hides that
its child failed after the `DELETE` had committed. -/
theorem eviction_leaves_older :
    (∃ s, run sampleConfig true
        [.call (.evictOlderThan (.ofMicros 1) false), .resume 0 .returned, .resume 0 .returned, .resume 1 .returned,
          .resume 1 .returned, .resume 1 .returned, .resume 1 .returned, .store sampleTelegram,
            .resume 0 .returned] = some s ∧
      s.pc 0 = .done (.returned (some 0)) ∧ s.buffer.map (isOlder sampleConfig (.ofMicros 1)) = [some true]) ∧
    (∃ s, run autumnConfig true (storedTwice repeatedTelegram ++
        [.call (.evictOlderThan repeatedCutoff false), .resume 1 .returned, .resume 1 .returned, .resume 2 .returned,
          .resume 2 .returned, .resume 2 .returned, .resume 2 .returned, .resume 1 .returned]) = some s ∧
      s.pc 1 = .done (.returned (some 1)) ∧ s.buffer.length = 0 ∧ s.table.length = 1) ∧
    ∃ s, run sampleConfig true
        [.store sampleTelegram, .call (.evictOlderThan (.ofMicros 1) false), .resume 0 .returned, .resume 0 .returned,
          .resume 1 .returned, .resume 1 .returned, .resume 1 .returned, .cancel 0, .resume 0 (.cancelled false),
          .resume 1 (.raised false), .resume 0 .returned] = some s ∧
      s.pc 0 = .done .cancelled ∧ s.buffer.map (isOlder sampleConfig (.ofMicros 1)) = [some true] :=
  ⟨⟨_, rfl, rfl, rfl⟩, ⟨_, rfl, rfl, rfl, rfl⟩, _, rfl, rfl, rfl⟩

end KnxTelegramStore.Buffered
