import KnxTelegramStore.Buffered.Segments

/-!
What one step of a buffered store does to the telegrams it has accepted.
`Effect` lists the possibilities with the awaits they happen at; every
invariant of the ledger is read off it. `step_effect` is the one case analysis
of the step function, over the await the resumed task was suspended at.
-/
namespace KnxTelegramStore.Buffered
open WriteBehind

variable {cfg : Config} {s s₁ s' : State} {t u : ℕ} {pc : Pc} {outcome : Outcome}
variable {batch rest : List Accepted} {caller : FlushCaller} {phase : Phase}

/-- A transaction that was committing took effect. -/
def Outcome.tookEffect : Outcome → Bool
  | .returned | .cancelled true => true
  | _ => false

/-- The ledger after a step. -/
inductive Effect (cfg : Config) (s : State) : Event → Ledger Accepted DropReason → Prop where
  | keep (event : Event) : Effect cfg s event s.ledger
  | accept (telegram : StoredTelegram) : s.closing = false →
      Effect cfg s (.store telegram) ((s.accept cfg telegram).ledgerWith s.inFlight)
  | detach (t : ℕ) : s.inFlight = [] →
      Effect cfg s (.resume t .returned) ({ s with buffer := [] }.ledgerWith s.buffer)
  | commitBatch (t : ℕ) (batch : List Accepted) : s.inFlight = batch →
      Effect cfg s (.resume t .returned) ((s.persist (batch.map Row.ofAccepted)).ledgerWith [])
  | commitRow (t : ℕ) (rest : List Accepted) : s.inFlight = rest →
      Effect cfg s (.resume t .returned)
        ((s.persist ((rest.take 1).map Row.ofAccepted)).ledgerWith rest.tail)
  | reject (t : ℕ) (caller : FlushCaller) (rest : List Accepted) (phase : Phase) :
      s.pc t = .flushRow caller rest phase → s.inFlight = rest →
      Effect cfg s (.resume t (.raised true)) ((s.giveUp (rest.take 1) .dataError).ledgerWith rest.tail)
  | requeue (t : ℕ) (outcome : Outcome) (batch : List Accepted) :
      (s.pc t).holdsMutation = true → s.inFlight = batch →
      Effect cfg s (.resume t outcome) ((s.requeue cfg batch).ledgerWith [])
  | double (t : ℕ) (batch : List Accepted) (n : ℕ) : (s.pc t).writes = true → s.inFlight = batch →
      Effect cfg s (.resume t (.cancelled true))
        (((s.persist ((batch.take n).map Row.ofAccepted)).requeue cfg batch).ledgerWith [])
  | evictStored (t : ℕ) (outcome : Outcome) (cutoff : DateTime) :
      s.pc t = .evicting cutoff .committing → outcome.tookEffect = true →
      Effect cfg s (.resume t outcome) ((s.deleteExpired cfg cutoff).ledgerWith s.inFlight)
  | evictBuffered (t : ℕ) (cutoff : DateTime) (deleted : ℕ) : s.pc t = .refreshing cutoff deleted →
      Effect cfg s (.resume t .returned) ((s.dropOlder cfg cutoff).ledgerWith s.inFlight)
  | evict (t : ℕ) (cutoff : DateTime) : s.pc t = .evicting cutoff .committing →
      Effect cfg s (.resume t .returned)
        (((s.deleteExpired cfg cutoff).dropOlder cfg cutoff).ledgerWith s.inFlight)
  | clearBuffer (t : ℕ) : s.pc t = .clearLock →
      Effect cfg s (.resume t .returned) ((s.dropBuffer .clear).ledgerWith s.inFlight)
  | clearStored (t : ℕ) (outcome : Outcome) :
      s.pc t = .clearing .committing → outcome.tookEffect = true →
      Effect cfg s (.resume t outcome) (s.deleteAll.ledgerWith s.inFlight)
  | neverInitialized (t : ℕ) : s.pc t = .mutation .close → s.initialized = false →
      Effect cfg s (.resume t .returned) ((s.dropBuffer .neverInitialized).ledgerWith s.inFlight)

/-- What resuming task `t` did to the rest of the store. -/
structure Advances (cfg : Config) (s : State) (t : ℕ) (outcome : Outcome) (s' : State) : Prop where
  serial : Serial s'
  effect : Effect cfg s (.resume t outcome) s'.ledger
  closing : s'.closing = s.closing
  initialized : s'.initialized = s.initialized
  allowed : s.writesAllowed = true → s'.writesAllowed = true ∨
    s.pc t = .beginningBackup ∧ outcome = .returned ∧ s.backupInProgress = false
  others : ∀ u, u ≠ t → u < s.spawned → s'.pc u = s.pc u
  grown : s.spawned ≤ s'.spawned

theorem Serial.inFlight (serial : Serial s) (inside : (s.pc t).holdsMutation = true) :
    s.inFlight = (s.pc t).detached := by
  unfold State.inFlight
  rw [(serial.owner t).mp inside]

/-- A task outside the critical section moves on without entering it. -/
theorem Serial.settled (serial : Serial s) (before : (s.pc t).holdsMutation = false)
    (alive : t < s.spawned) (after : pc.holdsMutation = false) :
    Settled s t s.inFlight (s.setPc t pc) := by
  refine ⟨serial.outside before alive after, ?_, rfl, fun u other _ => State.pc_setPc_ne other, le_refl _⟩
  have stranger : s.mutationOwner ≠ some t := by
    rw [ne_eq, ← serial.owner t, before]
    exact Bool.false_ne_true
  unfold State.ledger
  rw [State.inFlight_setPc stranger]
  rfl

/-- A segment that leaves `writesAllowed` alone. -/
theorem Settled.advances (settled : Settled s₁ t batch s')
    (effect : Effect cfg s (.resume t outcome) (s₁.ledgerWith batch)) (flags : s₁.flags = s.flags)
    (tasks : s₁.tasks = s.tasks) (spawned : s₁.spawned = s.spawned) : Advances cfg s t outcome s' := by
  have same := settled.flags.trans flags
  simp only [State.flags, State.Flags.mk.injEq] at same
  obtain ⟨closing, initialized, allowed⟩ := same
  refine ⟨settled.serial, settled.ledger ▸ effect, closing, initialized,
    fun open_ => .inl (allowed.trans open_), fun u other alive => ?_,
    spawned ▸ settled.grown⟩
  rw [settled.others u other (spawned ▸ alive)]
  simp [State.pc, tasks]

/-- A segment that ends with writes allowed. -/
theorem Settled.advances_open (settled : Settled { s with writesAllowed := true } t s.inFlight s') :
    Advances cfg s t outcome s' := by
  have same := settled.flags
  simp only [State.flags, State.Flags.mk.injEq] at same
  obtain ⟨closing, initialized, allowed⟩ := same
  exact ⟨settled.serial, settled.ledger ▸ .keep _, closing, initialized, fun _ => .inl allowed,
    settled.others, settled.grown⟩

/-- A segment that moves no telegram. -/
theorem Settled.keeps (settled : Settled s t s.inFlight s') : Advances cfg s t outcome s' :=
  settled.advances (.keep _) rfl rfl rfl

theorem Serial.moves_on (serial : Serial s) (before : (s.pc t).holdsMutation = false)
    (alive : t < s.spawned) (after : pc.holdsMutation = false) :
    Advances cfg s t outcome (s.setPc t pc) :=
  (serial.settled before alive after).keeps

/-! ## One lemma per kind of await -/

theorem Serial.enter (serial : Serial s) {next : Waiting} (at_ : s.pc t = .mutation next)
    (free : s.mutationLock = false) : Advances cfg s t .returned (s.enter cfg t next) := by
  have around := serial.acquire free (t := t) (by simp [at_])
  have back {pc : Pc} (after : pc.holdsMutation = false) : Advances cfg s t .returned (s.setPc t pc) :=
    serial.moves_on (by simp [at_, Pc.holdsMutation]) (serial.alive (by simp [at_])) after
  have nobody : s.inFlight = [] := by
    have owner : s.mutationOwner = none := by simpa [serial.lock] using free
    simp [State.inFlight, owner]
  have same : Effect cfg s (.resume t .returned) (s.ledgerWith []) := by
    have kept : Effect cfg s (.resume t .returned) (s.ledgerWith s.inFlight) := .keep _
    rwa [nobody] at kept
  unfold State.enter
  split
  · split
    · exact (around.enterGated _).advances same rfl rfl rfl
    · exact back rfl
  · exact (around.startFlush _).advances same rfl rfl rfl
  · exact (around.startFlush _).advances same rfl rfl rfl
  · split
    · exact (around.startFlush _).advances same rfl rfl rfl
    · exact back rfl
  · split
    · exact (around.startFlush _).advances same rfl rfl rfl
    · rename_i uninitialized
      have dropped : Effect cfg s (.resume t .returned)
          ((s.dropBuffer .neverInitialized).ledgerWith s.inFlight) :=
        .neverInitialized t at_ (by simpa using uninitialized)
      rw [nobody] at dropped
      have emptied := around.congr ((s.acquire t).dropBuffer .neverInitialized) rfl rfl rfl rfl
      exact emptied.closeBackend.advances dropped rfl rfl rfl

theorem Serial.refuse (serial : Serial s) {next : Waiting} (at_ : s.pc t = .mutation next) :
    Advances cfg s t outcome (s.refuse t next) := by
  have back {pc : Pc} (after : pc.holdsMutation = false) : Advances cfg s t outcome (s.setPc t pc) :=
    serial.moves_on (by simp [at_, Pc.holdsMutation]) (serial.alive (by simp [at_])) after
  cases next <;> exact back rfl

/-- A flush write whose batch goes back: it failed, or was cancelled before
its commit took effect. -/
theorem Settled.requeues (settled : Settled (s.requeue cfg batch) t [] s')
    (inside : (s.pc t).holdsMutation = true) (hands : s.inFlight = batch) : Advances cfg s t outcome s' :=
  settled.advances (.requeue t outcome batch inside hands) rfl rfl rfl

theorem Serial.flushGate (serial : Serial s) {rows : Bool} (at_ : s.pc t = .flushGate caller batch rows)
    (taken : s.resume cfg t (.flushGate caller batch rows) outcome = some s') :
    Advances cfg s t outcome s' := by
  have inside : (s.pc t).holdsMutation = true := by rw [at_]; rfl
  have around := serial.around inside
  have hands : s.inFlight = batch := by rw [serial.inFlight inside, at_]; rfl
  cases outcome with
  | returned =>
    obtain rfl := Option.some.inj taken
    refine Settled.keeps ?_
    rw [hands]
    split
    · exact around.settled rfl rfl
    · split <;> exact around.settled rfl rfl
  | raised dataError => cases taken
  | cancelled tookEffect =>
    cases tookEffect with
    | true => cases taken
    | false =>
      obtain rfl := Option.some.inj taken
      exact (around.cancelWrite caller [] batch).requeues inside hands

/-- A write of `_flush`, of the batch or of one telegram. -/
theorem Serial.write (serial : Serial s) (rows : Bool) (at_ : s.pc t = .write caller rest rows phase)
    (taken : s.resume cfg t (.write caller rest rows phase) outcome = some s') :
    Advances cfg s t outcome s' := by
  have inside : (s.pc t).holdsMutation = true := by rw [at_]; cases rows <;> rfl
  have around := serial.around inside
  have hands : s.inFlight = rest := by rw [serial.inFlight inside, at_]; cases rows <;> rfl
  cases resume_write rows taken with
  | executed =>
    refine Settled.keeps ?_
    rw [hands]
    cases rows <;> exact around.settled rfl rfl
  | stored =>
    have persisted := around.congr (s.persist ((rest.take (writeSize rest rows)).map Row.ofAccepted)) rfl rfl rfl rfl
    refine (persisted.nextRow caller _).advances ?_ rfl rfl rfl
    cases rows with
    | false =>
      have effect : Effect cfg s (.resume t .returned) _ := .commitBatch t rest hands
      rwa [writeSize, List.take_length, List.drop_length]
    | true =>
      have effect : Effect cfg s (.resume t .returned) _ := .commitRow t rest hands
      rwa [writeSize, List.drop_one]
  | split =>
    refine Settled.keeps ?_
    rw [hands]
    exact around.nextRow caller rest
  | rejected single =>
    subst single
    have given := around.congr (s.giveUp (rest.take 1) .dataError) rfl rfl rfl rfl
    rw [List.drop_one]
    exact (given.nextRow caller rest.tail).advances (.reject t caller rest phase at_ hands) rfl rfl rfl
  | kept => exact (around.keepBatch caller rest).requeues inside hands
  | cancelled tookEffect =>
    cases tookEffect with
    | false => exact (around.cancelWrite caller _ rest).requeues inside hands
    | true =>
      have writes : (s.pc t).writes = true := by rw [at_]; cases rows <;> rfl
      exact (around.cancelCommit caller _ rest).advances (.double t rest (writeSize rest rows) writes hands) rfl rfl rfl

theorem Serial.flushLock (serial : Serial s) (at_ : s.pc t = .flushLock caller)
    (taken : s.resume cfg t (.flushLock caller) outcome = some s') : Advances cfg s t outcome s' := by
  have inside : (s.pc t).holdsMutation = true := by rw [at_]; rfl
  have around := serial.around inside
  have hands : s.inFlight = [] := by rw [serial.inFlight inside, at_]; rfl
  cases outcome with
  | returned =>
    have locked : (if s.flushLock then none else some (s.detachBatch cfg t caller)) = some s' := taken
    split at locked
    · cases locked
    · obtain rfl := Option.some.inj locked
      exact (around.detachBatch caller).advances (.detach t hands) rfl rfl rfl
  | raised dataError => cases taken
  | cancelled tookEffect =>
    cases tookEffect with
    | true => cases taken
    | false =>
      obtain rfl := Option.some.inj taken
      refine Settled.keeps ?_
      rw [hands]
      exact around.failFlush .cancelled caller

/-- A task in the critical section with no batch in its hands. -/
structure Guards (s : State) (t : ℕ) : Prop where
  around : Around s t true
  hands : s.inFlight = []

theorem Serial.guards (serial : Serial s) (inside : (s.pc t).holdsMutation = true)
    (empty : (s.pc t).detached = []) : Guards s t :=
  ⟨serial.around inside, by rw [serial.inFlight inside, empty]⟩

theorem Guards.keeps (guards : Guards s t) (settled : Settled s t [] s') : Advances cfg s t outcome s' := by
  refine Settled.keeps ?_
  rwa [guards.hands]

theorem Guards.leaves (guards : Guards s t) (result : Result) :
    Advances cfg s t outcome (s.leave t result) :=
  guards.keeps (guards.around.leaves result)

/-- A direct `store_many()` writes rows that no acceptance is behind. -/
theorem Guards.stores (guards : Guards s t) (telegrams : List StoredTelegram) (result : Result) :
    Advances cfg s t outcome ((s.persist (telegrams.map Row.direct)).leave t result) := by
  have persisted := guards.around.congr (s.persist (telegrams.map Row.direct)) rfl rfl rfl rfl
  have stored : flushed (s.table ++ telegrams.map Row.direct) = flushed s.table := by
    simp [flushed, Row.direct, List.filterMap_map, Function.comp_def]
  have same : (s.persist (telegrams.map Row.direct)).ledgerWith [] = s.ledger := by
    unfold State.ledger
    rw [guards.hands]
    simp only [State.ledgerWith, State.persist, stored]
    rfl
  exact (persisted.leaves result).advances (same ▸ .keep _) rfl rfl rfl

theorem Serial.storing (serial : Serial s) {telegrams : List StoredTelegram}
    (at_ : s.pc t = .storing telegrams phase)
    (taken : s.resume cfg t (.storing telegrams phase) outcome = some s') :
    Advances cfg s t outcome s' := by
  have guards : Guards s t := serial.guards (by rw [at_]; rfl) (by rw [at_]; rfl)
  cases outcome with
  | returned =>
    cases phase with
    | executing =>
      obtain rfl := Option.some.inj taken
      exact guards.keeps (guards.around.settled rfl rfl)
    | committing =>
      obtain rfl := Option.some.inj taken
      exact guards.stores telegrams _
  | raised dataError =>
    have left : some (s.leave t .raised) = some s' := by cases phase <;> exact taken
    obtain rfl := Option.some.inj left
    exact guards.leaves _
  | cancelled tookEffect =>
    cases phase with
    | executing =>
      cases tookEffect with
      | true => cases taken
      | false =>
        obtain rfl := Option.some.inj taken
        exact guards.leaves _
    | committing =>
      obtain rfl := Option.some.inj taken
      cases tookEffect with
      | false => exact guards.leaves _
      | true => exact guards.stores telegrams _

theorem Serial.optimizing (serial : Serial s) (at_ : s.pc t = .optimizing)
    (taken : s.resume cfg t .optimizing outcome = some s') : Advances cfg s t outcome s' := by
  have guards : Guards s t := serial.guards (by rw [at_]; rfl) (by rw [at_]; rfl)
  rcases outcome with _ | _ | _ | _
  case cancelled.true => cases taken
  all_goals
    obtain rfl := Option.some.inj taken
    exact guards.leaves _

theorem Serial.closingBackend (serial : Serial s) (at_ : s.pc t = .closingBackend)
    (taken : s.resume cfg t .closingBackend outcome = some s') : Advances cfg s t outcome s' := by
  have guards : Guards s t := serial.guards (by rw [at_]; rfl) (by rw [at_]; rfl)
  rcases outcome with _ | _ | _ | _
  case cancelled.true => cases taken
  all_goals
    obtain rfl := Option.some.inj taken
    exact guards.leaves _

/-- Once writes are allowed again. -/
theorem Guards.opens (guards : Guards s t) (settled : Settled { s with writesAllowed := true } t [] s') :
    Advances cfg s t outcome s' := by
  refine Settled.advances_open ?_
  rwa [guards.hands]

theorem Serial.closeEndingBackup (serial : Serial s) (at_ : s.pc t = .closeEndingBackup)
    (taken : s.resume cfg t .closeEndingBackup outcome = some s') : Advances cfg s t outcome s' := by
  have guards : Guards s t := serial.guards (by rw [at_]; rfl) (by rw [at_]; rfl)
  have opened := guards.around.congr { s with writesAllowed := true } rfl rfl rfl rfl
  rcases outcome with _ | _ | _ | _
  case cancelled.true => cases taken
  case returned =>
    obtain rfl := Option.some.inj taken
    exact guards.opens (opened.settled rfl rfl)
  all_goals
    obtain rfl := Option.some.inj taken
    exact guards.opens (opened.leaves _)

/-- `begin_backup` holds off writes at the very end of its critical section. -/
theorem Serial.beginningBackup (serial : Serial s) (at_ : s.pc t = .beginningBackup)
    (taken : s.resume cfg t .beginningBackup outcome = some s') : Advances cfg s t outcome s' := by
  have guards : Guards s t := serial.guards (by rw [at_]; rfl) (by rw [at_]; rfl)
  rcases outcome with _ | _ | _ | _
  case cancelled.true => cases taken
  case returned =>
    obtain rfl := Option.some.inj taken
    split
    · exact guards.leaves _
    · rename_i idle
      have begun := guards.around.congr { s with
        writesAllowed := false, backupInProgress := cfg.backend == Backend.sqlite } rfl rfl rfl rfl
      have settled := begun.leaves (.returned none)
      have ledger : Effect cfg s (.resume t .returned) (s.ledgerWith []) := guards.hands ▸ .keep _
      exact ⟨settled.serial, settled.ledger ▸ ledger, rfl, rfl, fun _ => .inr ⟨at_, rfl, by simpa using idle⟩,
        settled.others, settled.grown⟩
  all_goals
    obtain rfl := Option.some.inj taken
    exact guards.leaves _

theorem Serial.stopFlushTask (serial : Serial s) (outside : (s.pc t).holdsMutation = false)
    (alive : t < s.spawned) : Settled s t s.inFlight (s.stopFlushTask t) := by
  unfold State.stopFlushTask
  split
  · exact serial.settled outside alive rfl
  · rename_i task _
    obtain ⟨tasks, marked, same⟩ := s.requestCancel_frame task
    have quiet : ((s.requestCancel task).pc t).holdsMutation = false := by
      rw [marked]
      exact (congrArg Pc.holdsMutation (same t)).trans outside
    have alive' : t < (s.requestCancel task).spawned := by rw [marked]; exact alive
    have settled : Settled _ t _ ((s.requestCancel task).setPc t (.awaitingFlushTask task)) :=
      (serial.requestCancel task).settled quiet alive' rfl
    have hands : (s.requestCancel task).inFlight = s.inFlight := by
      rw [marked]
      unfold State.inFlight
      dsimp only
      cases s.mutationOwner with
      | none => rfl
      | some u => exact congrArg Pc.detached (same u)
    rw [hands] at settled
    refine ⟨settled.serial, ?_, ?_, fun u other alive => ?_, ?_⟩
    · rw [settled.ledger, marked]
      rfl
    · rw [settled.flags, marked]
      rfl
    · rw [State.pc_setPc_ne other, marked]
      exact same u
    · have grown := settled.grown
      rwa [marked] at grown ⊢

theorem Serial.endingBackup (serial : Serial s) {closing : Bool} (at_ : s.pc t = .endingBackup closing)
    (taken : s.resume cfg t (.endingBackup closing) outcome = some s') : Advances cfg s t outcome s' := by
  have outside : (s.pc t).holdsMutation = false := by rw [at_]; rfl
  have alive := serial.alive (t := t) (by simp [at_])
  have opened : Serial { s with writesAllowed := true } := serial.congr rfl rfl (fun _ => rfl) rfl
  rcases outcome with _ | _ | _ | _
  case cancelled.true => cases closing <;> cases taken
  case returned =>
    cases closing with
    | false =>
      obtain rfl := Option.some.inj taken
      exact (opened.settled outside alive rfl).advances_open
    | true =>
      obtain rfl := Option.some.inj taken
      exact (opened.stopFlushTask outside alive).advances_open
  case raised =>
    have ended : some ({ s with writesAllowed := true }.setPc t (.done .raised)) = some s' := by
      cases closing <;> exact taken
    obtain rfl := Option.some.inj ended
    exact (opened.settled outside alive rfl).advances_open
  case cancelled.false =>
    have ended : some ({ s with writesAllowed := true }.setPc t (.done .cancelled)) = some s' := by
      cases closing <;> exact taken
    obtain rfl := Option.some.inj ended
    exact (opened.settled outside alive rfl).advances_open

/-! ## Eviction and clear -/

theorem Serial.evictGate (serial : Serial s) {cutoff : DateTime} {dryRun : Bool}
    (at_ : s.pc t = .evictGate cutoff dryRun)
    (taken : s.resume cfg t (.evictGate cutoff dryRun) outcome = some s') :
    Advances cfg s t outcome s' := by
  have guards : Guards s t := serial.guards (by rw [at_]; rfl) (by rw [at_]; rfl)
  rcases outcome with _ | _ | _ | _
  case returned =>
    obtain rfl := Option.some.inj taken
    split
    · exact guards.keeps (guards.around.startEviction cutoff dryRun)
    · exact guards.keeps (guards.around.settled rfl rfl)
  case cancelled.false =>
    obtain rfl := Option.some.inj taken
    exact guards.leaves _
  all_goals cases taken

theorem Serial.awaitingEviction (serial : Serial s) {child : ℕ} {cancelled : Bool}
    (at_ : s.pc t = .awaitingEviction child cancelled)
    (taken : s.resume cfg t (.awaitingEviction child cancelled) outcome = some s') :
    Advances cfg s t outcome s' := by
  have guards : Guards s t := serial.guards (by rw [at_]; rfl) (by rw [at_]; rfl)
  rcases outcome with _ | _ | _ | _
  case returned =>
    obtain ⟨result, _, rfl⟩ := resume_awaitingEviction taken
    exact guards.leaves _
  case cancelled.false =>
    obtain rfl := Option.some.inj taken
    split
    · exact guards.leaves _
    · exact guards.keeps (guards.around.settled rfl rfl)
  all_goals cases taken

/-- A step outside the critical section that changes the buffer, the table or
the record of what was dropped. -/
theorem Serial.rewrites (serial : Serial s) (before : (s.pc t).holdsMutation = false)
    (alive : t < s.spawned) (after : pc.holdsMutation = false)
    (effect : Effect cfg s (.resume t outcome) (s₁.ledgerWith s.inFlight))
    (lock : s₁.mutationLock = s.mutationLock) (owner : s₁.mutationOwner = s.mutationOwner)
    (tasks : s₁.tasks = s.tasks) (spawned : s₁.spawned = s.spawned) (flags : s₁.flags = s.flags) :
    Advances cfg s t outcome (s₁.setPc t pc) := by
  have same : ∀ u, s₁.pc u = s.pc u := fun u => by simp [State.pc, tasks]
  have serial' : Serial s₁ := serial.congr lock owner same spawned
  have hands : s₁.inFlight = s.inFlight := by
    unfold State.inFlight
    rw [owner]
    cases s.mutationOwner with
    | none => rfl
    | some u => exact congrArg Pc.detached (same u)
  have settled : Settled s₁ t s₁.inFlight (s₁.setPc t pc) :=
    serial'.settled (by rwa [same]) (by rwa [spawned]) after
  rw [hands] at settled
  exact settled.advances effect flags tasks spawned

theorem Serial.evictLock (serial : Serial s) {cutoff : DateTime} {dryRun : Bool}
    (at_ : s.pc t = .evictLock cutoff dryRun)
    (taken : s.resume cfg t (.evictLock cutoff dryRun) outcome = some s') :
    Advances cfg s t outcome s' := by
  have outside : (s.pc t).holdsMutation = false := by rw [at_]; rfl
  have alive := serial.alive (t := t) (by simp [at_])
  rcases outcome with _ | _ | _ | _
  case returned =>
    have locked : (if s.flushLock then none else some ({ s with flushLock := true }.setPc t
        (if dryRun then .counting cutoff else .evicting cutoff .executing))) = some s' := taken
    split at locked
    · cases locked
    · obtain rfl := Option.some.inj locked
      exact serial.rewrites outside alive (by cases dryRun <;> rfl) (.keep _) rfl rfl rfl rfl rfl
  case cancelled.false =>
    obtain rfl := Option.some.inj taken
    exact serial.moves_on outside alive rfl
  all_goals cases taken

theorem Serial.counting (serial : Serial s) {cutoff : DateTime} (at_ : s.pc t = .counting cutoff)
    (taken : s.resume cfg t (.counting cutoff) outcome = some s') : Advances cfg s t outcome s' := by
  have outside : (s.pc t).holdsMutation = false := by rw [at_]; rfl
  have alive := serial.alive (t := t) (by simp [at_])
  rcases outcome with _ | _ | _ | _
  case cancelled.true => cases taken
  all_goals
    obtain rfl := Option.some.inj taken
    exact serial.rewrites outside alive rfl (.keep _) rfl rfl rfl rfl rfl

theorem Serial.evicting (serial : Serial s) {cutoff : DateTime} (at_ : s.pc t = .evicting cutoff phase)
    (taken : s.resume cfg t (.evicting cutoff phase) outcome = some s') : Advances cfg s t outcome s' := by
  have outside : (s.pc t).holdsMutation = false := by rw [at_]; rfl
  have alive := serial.alive (t := t) (by simp [at_])
  have ends {result : Result} : Advances cfg s t outcome (s.unlockFlush.setPc t (.done result)) :=
    serial.rewrites outside alive rfl (.keep _) rfl rfl rfl rfl rfl
  rcases outcome with _ | _ | _ | _
  case returned =>
    cases phase with
    | executing =>
      obtain rfl := Option.some.inj taken
      exact serial.moves_on outside alive rfl
    | committing =>
      have stored : Effect cfg s (.resume t .returned) ((s.deleteExpired cfg cutoff).ledgerWith s.inFlight) :=
        .evictStored t .returned cutoff at_ rfl
      obtain rfl := Option.some.inj taken
      split
      · exact serial.rewrites outside alive rfl stored rfl rfl rfl rfl rfl
      · unfold State.finishEviction
        dsimp only
        split
        · exact serial.rewrites outside alive rfl stored rfl rfl rfl rfl rfl
        · exact serial.rewrites outside alive rfl (.evict t cutoff at_) rfl rfl rfl rfl rfl
  case raised =>
    have ended : some (s.unlockFlush.setPc t (.done .raised)) = some s' := by cases phase <;> exact taken
    obtain rfl := Option.some.inj ended
    exact ends
  case cancelled.false =>
    have ended : some (s.unlockFlush.setPc t (.done .cancelled)) = some s' := by cases phase <;> exact taken
    obtain rfl := Option.some.inj ended
    exact ends
  case cancelled.true =>
    cases phase with
    | executing => cases taken
    | committing =>
      obtain rfl := Option.some.inj taken
      exact serial.rewrites outside alive rfl (.evictStored t _ cutoff at_ rfl) rfl rfl rfl rfl rfl

theorem Serial.refreshing (serial : Serial s) {cutoff : DateTime} {deleted : ℕ}
    (at_ : s.pc t = .refreshing cutoff deleted)
    (taken : s.resume cfg t (.refreshing cutoff deleted) outcome = some s') :
    Advances cfg s t outcome s' := by
  have outside : (s.pc t).holdsMutation = false := by rw [at_]; rfl
  have alive := serial.alive (t := t) (by simp [at_])
  rcases outcome with _ | _ | _ | _
  case cancelled.true => cases taken
  case returned =>
    obtain rfl := Option.some.inj taken
    unfold State.finishEviction
    dsimp only
    split
    · exact serial.rewrites outside alive rfl (.keep _) rfl rfl rfl rfl rfl
    · exact serial.rewrites outside alive rfl (.evictBuffered t cutoff deleted at_) rfl rfl rfl rfl rfl
  all_goals
    obtain rfl := Option.some.inj taken
    exact serial.rewrites outside alive rfl (.keep _) rfl rfl rfl rfl rfl

/-- A segment in the critical section that changes what the ledger records. -/
theorem Guards.rewrites (guards : Guards s t) (settled : Settled s₁ t [] s')
    (effect : Effect cfg s (.resume t outcome) (s₁.ledgerWith s.inFlight))
    (flags : s₁.flags = s.flags) (tasks : s₁.tasks = s.tasks) (spawned : s₁.spawned = s.spawned) :
    Advances cfg s t outcome s' := by
  rw [guards.hands] at effect
  exact settled.advances effect flags tasks spawned

theorem Serial.clearLock (serial : Serial s) (at_ : s.pc t = .clearLock)
    (taken : s.resume cfg t .clearLock outcome = some s') : Advances cfg s t outcome s' := by
  have guards : Guards s t := serial.guards (by rw [at_]; rfl) (by rw [at_]; rfl)
  rcases outcome with _ | _ | _ | _
  case returned =>
    have locked : (if s.flushLock then none else
        some ({ s.dropBuffer .clear with flushLock := true }.setPc t (.clearing .executing))) = some s' := taken
    split at locked
    · cases locked
    · obtain rfl := Option.some.inj locked
      have emptied := guards.around.congr { s.dropBuffer .clear with flushLock := true } rfl rfl rfl rfl
      exact guards.rewrites (emptied.settled rfl rfl) (.clearBuffer t at_) rfl rfl rfl
  case cancelled.false =>
    obtain rfl := Option.some.inj taken
    exact guards.leaves _
  all_goals cases taken

theorem Serial.clearing (serial : Serial s) (at_ : s.pc t = .clearing phase)
    (taken : s.resume cfg t (.clearing phase) outcome = some s') : Advances cfg s t outcome s' := by
  have guards : Guards s t := serial.guards (by rw [at_]; rfl) (by rw [at_]; rfl)
  have unlocked := guards.around.congr s.unlockFlush rfl rfl rfl rfl
  have emptied := guards.around.congr s.deleteAll.unlockFlush rfl rfl rfl rfl
  have ends {result : Result} : Advances cfg s t outcome (s.unlockFlush.leave t result) :=
    guards.rewrites (unlocked.leaves result) (.keep _) rfl rfl rfl
  rcases outcome with _ | _ | _ | _
  case returned =>
    cases phase with
    | executing =>
      obtain rfl := Option.some.inj taken
      exact guards.keeps (guards.around.settled rfl rfl)
    | committing =>
      obtain rfl := Option.some.inj taken
      exact guards.rewrites (emptied.leaves _) (.clearStored t _ at_ rfl) rfl rfl rfl
  case raised =>
    have ended : some (s.unlockFlush.leave t .raised) = some s' := by cases phase <;> exact taken
    obtain rfl := Option.some.inj ended
    exact ends
  case cancelled.false =>
    have ended : some (s.unlockFlush.leave t .cancelled) = some s' := by cases phase <;> exact taken
    obtain rfl := Option.some.inj ended
    exact ends
  case cancelled.true =>
    cases phase with
    | executing => cases taken
    | committing =>
      obtain rfl := Option.some.inj taken
      exact guards.rewrites (emptied.leaves _) (.clearStored t _ at_ rfl) rfl rfl rfl

/-! ## Tasks that wait outside the critical section -/

theorem Serial.waiting (serial : Serial s) (at_ : s.pc t = pc) (outside : pc.holdsMutation = false)
    (born : pc ≠ .unborn) {after : Pc} (quiet : after.holdsMutation = false) :
    Advances cfg s t outcome (s.setPc t after) := by
  subst at_
  exact serial.moves_on outside (serial.alive born) quiet

theorem Serial.mutation (serial : Serial s) {next : Waiting} (at_ : s.pc t = .mutation next)
    (taken : s.resume cfg t (.mutation next) outcome = some s') : Advances cfg s t outcome s' := by
  rcases outcome with _ | _ | _ | _
  case returned =>
    have locked : (if s.mutationLock then none
      else if s.closing ∧ ¬ next.isClose then some (s.refuse t next)
      else some (s.enter cfg t next)) = some s' := by cases next <;> exact taken
    split at locked
    · cases locked
    · rename_i free
      split at locked
      · obtain rfl := Option.some.inj locked
        exact serial.refuse at_
      · obtain rfl := Option.some.inj locked
        exact serial.enter at_ (by simpa using free)
  case cancelled.false =>
    cases next with
    | flushLoop =>
      obtain rfl := Option.some.inj taken
      exact serial.waiting at_ rfl (by simp) rfl
    | _ =>
      obtain rfl := Option.some.inj taken
      exact serial.waiting at_ rfl (by simp) rfl
  all_goals cases next <;> cases taken

theorem Serial.awaitingFlushTask (serial : Serial s) {task : ℕ} (at_ : s.pc t = .awaitingFlushTask task)
    (taken : s.resume cfg t (.awaitingFlushTask task) outcome = some s') :
    Advances cfg s t outcome s' := by
  have awaited : (if s.isDone task then some ({ s with flushTask := none }.setPc t (.mutation .close))
      else none) = some s' := by
    rcases outcome with _ | _ | _ | _
    case returned => exact taken
    case cancelled.false => exact taken
    all_goals cases taken
  split at awaited
  · obtain rfl := Option.some.inj awaited
    exact serial.rewrites (by rw [at_]; rfl) (serial.alive (by simp [at_])) rfl (.keep _) rfl rfl rfl rfl rfl
  · cases awaited

/-- **Resuming a task** moves the telegrams by one `Effect`, and touches the
rest of the store as `Advances` says. -/
theorem Serial.resume (serial : Serial s) (taken : s.resume cfg t (s.pc t) outcome = some s') :
    Advances cfg s t outcome s' := by
  cases at_ : s.pc t <;> rw [at_] at taken
  case unborn => cases outcome <;> cases taken
  case done => cases outcome <;> cases taken
  case gate =>
    rcases outcome with _ | _ | _ | _
    case returned => obtain rfl := Option.some.inj taken; exact serial.waiting at_ rfl (by simp) rfl
    case cancelled.false => obtain rfl := Option.some.inj taken; exact serial.waiting at_ rfl (by simp) rfl
    all_goals cases taken
  case sleeping =>
    rcases outcome with _ | _ | _ | _
    case returned => obtain rfl := Option.some.inj taken; exact serial.waiting at_ rfl (by simp) rfl
    case cancelled.false => obtain rfl := Option.some.inj taken; exact serial.waiting at_ rfl (by simp) rfl
    all_goals cases taken
  case reading =>
    rcases outcome with _ | _ | _ | _
    case cancelled.true => cases taken
    all_goals
      obtain rfl := Option.some.inj taken
      exact serial.waiting at_ rfl (by simp) rfl
  case mutation => exact serial.mutation at_ taken
  case flushLock => exact serial.flushLock at_ taken
  case flushGate => exact serial.flushGate at_ taken
  case flushBatch => exact serial.write false at_ taken
  case flushRow => exact serial.write true at_ taken
  case storing => exact serial.storing at_ taken
  case optimizing => exact serial.optimizing at_ taken
  case beginningBackup => exact serial.beginningBackup at_ taken
  case endingBackup => exact serial.endingBackup at_ taken
  case evictGate => exact serial.evictGate at_ taken
  case awaitingEviction => exact serial.awaitingEviction at_ taken
  case evictLock => exact serial.evictLock at_ taken
  case counting => exact serial.counting at_ taken
  case evicting => exact serial.evicting at_ taken
  case refreshing => exact serial.refreshing at_ taken
  case clearLock => exact serial.clearLock at_ taken
  case clearing => exact serial.clearing at_ taken
  case awaitingFlushTask => exact serial.awaitingFlushTask at_ taken
  case closeEndingBackup => exact serial.closeEndingBackup at_ taken
  case closingBackend => exact serial.closingBackend at_ taken

end KnxTelegramStore.Buffered
