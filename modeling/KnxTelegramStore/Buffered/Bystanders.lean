import KnxTelegramStore.Buffered.Exclusion

/-!
What a task in the critical section can rely on. While it is there nobody else
touches the table or takes anything out of the buffer: a step is the task's
own, that of the child its eviction runs in, a `store()`, or leaves the
telegrams alone (`bystander`).
-/
namespace KnxTelegramStore.Buffered

variable {cfg : Config} {s s₁ s' : State} {t u : ℕ} {pc : Pc} {event : Event} {outcome : Outcome}

/-- The telegrams are where they were. -/
structure Untouched (s s' : State) : Prop where
  table : s'.table = s.table
  buffer : s'.buffer = s.buffer
  accepted : s'.accepted = s.accepted
  dropped : s'.dropped = s.dropped

theorem Untouched.refl (s : State) : Untouched s s := ⟨rfl, rfl, rfl, rfl⟩

theorem Untouched.trans (first : Untouched s s₁) (second : Untouched s₁ s') : Untouched s s' where
  table := second.table.trans first.table
  buffer := second.buffer.trans first.buffer
  accepted := second.accepted.trans first.accepted
  dropped := second.dropped.trans first.dropped

theorem untouched_setPc (s : State) (t : ℕ) (pc : Pc) : Untouched s (s.setPc t pc) := ⟨rfl, rfl, rfl, rfl⟩

theorem untouched_requestCancel (s : State) (t : ℕ) : Untouched s (s.requestCancel t) := by
  obtain ⟨tasks, marked, _⟩ := s.requestCancel_frame t
  rw [marked]
  exact ⟨rfl, rfl, rfl, rfl⟩

theorem untouched_resetTimer (s : State) : Untouched s s.resetTimer := by
  obtain ⟨tasks, spawned, flushTask, timer, _⟩ := s.resetTimer_frame
  rw [timer]
  exact ⟨rfl, rfl, rfl, rfl⟩

theorem untouched_stopFlushTask (s : State) (t : ℕ) : Untouched s (s.stopFlushTask t) := by
  unfold State.stopFlushTask
  split
  · exact untouched_setPc s t _
  · exact (untouched_requestCancel s _).trans (untouched_setPc _ t _)

theorem untouched_endBackup (cfg : Config) (s : State) (t : ℕ) (closing : Bool) :
    Untouched s (s.endBackup cfg t closing) := by
  unfold State.endBackup
  split
  · exact ⟨rfl, rfl, rfl, rfl⟩
  · exact ⟨rfl, rfl, rfl, rfl⟩

theorem untouched_call (s : State) (op : Op) : Untouched s (s.call cfg op) := by
  have spawns (pc : Pc) : Untouched s (s.spawn pc) := ⟨rfl, rfl, rfl, rfl⟩
  cases op with
  | query flushFirst => exact spawns _
  | endBackup =>
    unfold State.call
    dsimp only
    split
    · exact spawns _
    · have ended := untouched_endBackup cfg { s with spawned := s.spawned + 1 } s.spawned false
      exact ⟨ended.table, ended.buffer, ended.accepted, ended.dropped⟩
  | close =>
    unfold State.call State.startClose
    dsimp only
    split
    · have stopped := untouched_stopFlushTask { s with spawned := s.spawned + 1, closing := true } s.spawned
      exact ⟨stopped.table, stopped.buffer, stopped.accepted, stopped.dropped⟩
    · have ended := untouched_endBackup cfg { s with spawned := s.spawned + 1, closing := true } s.spawned true
      exact ⟨ended.table, ended.buffer, ended.accepted, ended.dropped⟩
  | _ => exact spawns _

theorem untouched_start (s : State) : Untouched s s.start := by
  unfold State.start
  split
  · exact .refl s
  · exact ⟨rfl, rfl, rfl, rfl⟩

/-- A task outside the critical section while somebody else is inside. -/
theorem untouched_outside (outside : (s.pc t).holdsMutation = false) (childless : (s.pc t).evicts = false)
    (locked : s.mutationLock = true) (taken : s.resume cfg t (s.pc t) outcome = some s') : Untouched s s' := by
  cases at_ : s.pc t <;> rw [at_] at taken outside childless <;> try first | (cases outside; done) |
    (cases childless; done)
  case unborn => cases outcome <;> cases taken
  case done => cases outcome <;> cases taken
  case gate =>
    rcases outcome with _ | _ | _ | _
    case returned => obtain rfl := Option.some.inj taken; exact untouched_setPc s t _
    case cancelled.false => obtain rfl := Option.some.inj taken; exact untouched_setPc s t _
    all_goals cases taken
  case mutation next =>
    rcases outcome with _ | _ | _ | _
    case returned =>
      have waits : (if s.mutationLock then none
        else if s.closing ∧ ¬ next.isClose then some (s.refuse t next)
        else some (s.enter cfg t next)) = some s' := by cases next <;> exact taken
      rw [if_pos locked] at waits
      cases waits
    case cancelled.false => cases next <;> (obtain rfl := Option.some.inj taken; exact untouched_setPc s t _)
    all_goals cases next <;> cases taken
  case sleeping =>
    rcases outcome with _ | _ | _ | _
    case returned => obtain rfl := Option.some.inj taken; exact untouched_setPc s t _
    case cancelled.false => obtain rfl := Option.some.inj taken; exact untouched_setPc s t _
    all_goals cases taken
  case reading =>
    rcases outcome with _ | _ | _ | _
    case cancelled.true => cases taken
    all_goals
      obtain rfl := Option.some.inj taken
      exact untouched_setPc s t _
  case endingBackup closing =>
    have ended (pc : Pc) : Untouched s ({ s with writesAllowed := true }.setPc t pc) := ⟨rfl, rfl, rfl, rfl⟩
    rcases outcome with _ | _ | _ | _
    case cancelled.true => cases closing <;> cases taken
    case returned =>
      cases closing with
      | false =>
        obtain rfl := Option.some.inj taken
        exact ended _
      | true =>
        obtain rfl := Option.some.inj taken
        have stopped := untouched_stopFlushTask { s with writesAllowed := true } t
        exact ⟨stopped.table, stopped.buffer, stopped.accepted, stopped.dropped⟩
    all_goals cases closing <;> (obtain rfl := Option.some.inj taken; exact ended _)
  case awaitingFlushTask task =>
    have awaited : (if s.isDone task then some ({ s with flushTask := none }.setPc t (.mutation .close))
        else none) = some s' := by
      rcases outcome with _ | _ | _ | _
      case returned => exact taken
      case cancelled.false => exact taken
      all_goals cases taken
    split at awaited
    · obtain rfl := Option.some.inj awaited
      exact ⟨rfl, rfl, rfl, rfl⟩
    · cases awaited

/-- A task stays at its await until it is resumed. -/
theorem step_others (serial : Serial s) (taken : step cfg s event = some s') (alive : u < s.spawned)
    (other : ∀ outcome, event ≠ .resume u outcome) : s'.pc u = s.pc u := by
  rcases step_quiet_or_resumes serial taken with quiet | ⟨t, outcome, rfl, _, resumed⟩
  · exact quiet.others u alive
  · have different : u ≠ t := by
      rintro rfl
      exact other outcome rfl
    exact (serial.resume resumed).others u different alive

theorem step_grown (serial : Serial s) (taken : step cfg s event = some s') : s.spawned ≤ s'.spawned := by
  rcases step_quiet_or_resumes serial taken with quiet | ⟨_, _, _, _, resumed⟩
  · exact quiet.grown
  · exact (serial.resume resumed).grown

/-- **What the others do** while task `t` is in the critical section. -/
theorem bystander (nested : Nested s) (inside : (s.pc t).holdsMutation = true) (taken : step cfg s event = some s') :
    (∃ telegram, event = .store telegram) ∨
      (∃ u outcome, event = .resume u outcome ∧ (u = t ∨ (s.pc u).evicts = true)) ∨ Untouched s s' := by
  cases event with
  | store telegram => exact .inl ⟨telegram, rfl⟩
  | start =>
    obtain rfl := Option.some.inj taken
    exact .inr (.inr (untouched_start s))
  | call op =>
    obtain rfl := Option.some.inj taken
    exact .inr (.inr (untouched_call s op))
  | cancel u =>
    obtain rfl := Option.some.inj taken
    exact .inr (.inr (untouched_requestCancel s u))
  | resume u outcome =>
    by_cases own : u = t ∨ (s.pc u).evicts = true
    · exact .inr (.inl ⟨u, outcome, rfl, own⟩)
    · push Not at own
      have outside : (s.pc u).holdsMutation = false := by
        by_contra both
        exact own.1 (nested.inside_unique (by simpa using both) inside)
      have locked : s.mutationLock = true := by rw [nested.serial.lock, (nested.serial.owner t).mp inside]; rfl
      exact .inr (.inr (untouched_outside outside (by simpa using own.2) locked (step_resume taken).2))

/-- Nor is there a child while the task inside awaits none. -/
theorem bystander_alone (nested : Nested s) (inside : (s.pc t).holdsMutation = true)
    (lone : ∀ child cancelled, s.pc t ≠ .awaitingEviction child cancelled) (taken : step cfg s event = some s')
    (other : ∀ outcome, event ≠ .resume t outcome) : (∃ telegram, event = .store telegram) ∨ Untouched s s' := by
  rcases bystander nested inside taken with stores | ⟨u, outcome, rfl, own | evicts⟩ | untouched
  · exact .inl stores
  · exact absurd (own ▸ rfl) (other outcome)
  · obtain ⟨parent, cancelled, at_⟩ := nested.child u evicts
    have same : parent = t := nested.inside_unique (by rw [at_]; rfl) inside
    exact absurd (same ▸ at_) (lone u cancelled)
  · exact .inr untouched

/-- What a `store()` does, whether it is refused or not. -/
structure Stored (s s' : State) : Prop where
  table : s'.table = s.table
  buffer : ∀ item ∈ s'.buffer, item ∈ s.buffer ∨ item.number = s.accepted.length
  dropped : s.dropped ⊆ s'.dropped

theorem stored (s : State) (telegram : StoredTelegram) : Stored s (s.store cfg telegram) := by
  unfold State.store
  split
  · exact ⟨rfl, fun _ => .inl, List.Subset.refl _⟩
  · refine ⟨rfl, fun item mem => ?_, List.subset_append_left _ _⟩
    rcases List.mem_append.mp mem with kept | new
    · exact .inl (List.mem_of_mem_drop kept)
    · rw [List.mem_singleton.mp new]
      exact .inr rfl

end KnxTelegramStore.Buffered
