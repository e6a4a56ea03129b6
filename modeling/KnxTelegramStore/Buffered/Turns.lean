import KnxTelegramStore.Buffered.Exclusion

/-!
What one resumption costs. Every await is given the work its task has before
it at most, counted so that a turn of a task leaves less of it than there was,
the tasks it starts included. Whether writes are allowed enters into it: a call
at the write gate has work to do only while they are. So turns that change
this are counted apart, in `flips`; there is a bounded number of these ahead
in any state, because only a `begin_backup()`, an `end_backup()` and a
`close()` take them.
-/
namespace KnxTelegramStore.Buffered

variable {cfg : Config} {s s₁ s' : State} {t u : ℕ} {pc : Pc} {outcome : Outcome}

/-- What a task was started for. -/
inductive Role where
  | call
  | flushLoop
  /-- the child task `_evict_older_than` -/
  | eviction
  deriving DecidableEq

def FlushCaller.role : FlushCaller → Role
  | .flushLoop => .flushLoop
  | _ => .call

/-- A flush is followed by a turn that changes whether writes are allowed. -/
def FlushCaller.flips : FlushCaller → ℕ
  | .beginBackup | .close => 1
  | _ => 0

def Waiting.role : Waiting → Role
  | .flushLoop => .flushLoop
  | _ => .call

def Waiting.flips : Waiting → ℕ
  | .beginBackup | .close => 1
  | _ => 0

namespace Pc

def role : Pc → Role
  | .sleeping => .flushLoop
  | .mutation next => next.role
  | .flushLock caller | .flushGate caller .. | .flushBatch caller .. | .flushRow caller .. => caller.role
  | .evictLock .. | .counting _ | .evicting .. | .refreshing .. => .eviction
  | _ => .call

def ended : Pc → Bool
  | .done _ => true
  | _ => false

/-- The task that a task awaits. -/
def awaited : Pc → Option ℕ
  | .awaitingEviction child _ => some child
  | .awaitingFlushTask task => some task
  | _ => none

/-- How many turns of the task may still change whether writes are allowed. -/
def flips : Pc → ℕ
  | .mutation next => next.flips
  | .flushLock caller | .flushGate caller .. | .flushBatch caller .. | .flushRow caller .. => caller.flips
  | .beginningBackup | .endingBackup false | .awaitingFlushTask _ | .closeEndingBackup => 1
  | .endingBackup true => 2
  | _ => 0

/-- The work a task has before it at most, with a buffer of `size`. A batch is
three turns a telegram, besides the write that failed for all of them. -/
def work (size : ℕ) (allowed : Bool) : Pc → ℕ
  | .unborn | .done _ => 0
  | .gate _ => if allowed then 3 * size + 12 else 1
  | .mutation (.gated _) => if allowed then 3 * size + 11 else 2
  | .mutation _ => 3 * size + 11
  | .flushLock _ => 3 * size + 10
  | .flushGate _ batch false => 3 * batch.length + 9
  | .flushBatch _ batch .executing => 3 * batch.length + 8
  | .flushBatch _ batch .committing => 3 * batch.length + 7
  | .flushGate _ rest true => 3 * rest.length + 6
  | .flushRow _ rest .executing => 3 * rest.length + 5
  | .flushRow _ rest .committing => 3 * rest.length + 4
  | .awaitingFlushTask _ => 3 * size + 12
  | .endingBackup true => 3 * size + 14
  | .sleeping | .reading | .optimizing | .beginningBackup | .endingBackup false | .counting _ | .refreshing ..
  | .closingBackend => 1
  | .storing _ .executing | .clearing .executing | .evicting _ .committing | .closeEndingBackup => 2
  | .storing _ .committing | .clearing .committing => 1
  | .evicting _ .executing | .clearLock => 3
  | .evictLock .. => 4
  | .evictGate .. => 7
  | .awaitingEviction _ false => 2
  | .awaitingEviction _ true => 1

end Pc

/-- A cancellation that was asked for is a turn more. -/
def Task.work (size : ℕ) (allowed : Bool) (task : Task) : ℕ :=
  task.pc.work size allowed + if task.cancelRequested then 1 else 0

theorem State.isDone_eq (s : State) (t : ℕ) : s.isDone t = (s.pc t).ended := by
  unfold isDone
  cases s.pc t <;> rfl

/-! ## The shapes of a turn -/

/-- A segment of a turn that neither starts a task nor marks one. Only a
`close()` whose flush task has ended forgets it. -/
structure Calm (s : State) (t : ℕ) (s₁ : State) : Prop where
  tasks : s₁.tasks = s.tasks
  spawned : s₁.spawned = s.spawned
  flushTask : s₁.flushTask = s.flushTask ∨
    s₁.flushTask = none ∧ ∃ task, s.pc t = .awaitingFlushTask task ∧ s.isDone task = true

/-- A turn of task `t` that takes it to `pc`, and the work of what it starts
and marks. -/
inductive Turn (s : State) (t : ℕ) (pc : Pc) : ℕ → State → Prop where
  | settles (s₁ : State) : Calm s t s₁ →
      pc.awaited = none ∨ (∃ child cancelled, s.pc t = .awaitingEviction child cancelled ∧
        pc = .awaitingEviction child true) → Turn s t pc 0 (s₁.setPc t pc)
  /-- a flush that restarts the timer: one task to sleep, another to cancel -/
  | restarts (s₁ : State) : Calm s t s₁ → pc.awaited = none → pc.role = .call →
      Turn s t pc 2 (s₁.resetTimer.setPc t pc)
  /-- a `close()` that cancels the flush task and awaits it -/
  | stops (s₁ : State) (task : ℕ) : Calm s t s₁ → s.flushTask = some task →
      s.pc t = .endingBackup true ∨ s.pc t = .unborn ∧ s₁.closing = true → pc = .awaitingFlushTask task →
      Turn s t pc 1 ((s₁.requestCancel task).setPc t pc)
  /-- an eviction that starts its child -/
  | starts (s₁ : State) (cutoff : DateTime) (dryRun : Bool) : Calm s t s₁ → pc = .awaitingEviction s.spawned false →
      Turn s t pc 4 ((s₁.spawn (.evictLock cutoff dryRun)).setPc t pc)

/-- A turn that leaves open whether writes are allowed, with bounds for what
the task has before it then. -/
structure Within (cfg : Config) (s : State) (t flips work : ℕ) (role : Role) (s' : State) : Prop where
  turn : ∃ pc extra, Turn s t pc extra s' ∧ pc.flips ≤ flips ∧
    pc.work cfg.maxBufferSize s.writesAllowed + extra ≤ work ∧ (pc.ended = true ∨ pc.role = role)
  allowed : s'.writesAllowed = s.writesAllowed

/-- What a turn costs: one of the flips that were ahead, or work. -/
structure Goes (cfg : Config) (s : State) (t : ℕ) (s' : State) : Prop where
  turn : ∃ pc extra, Turn s t pc extra s' ∧ (pc.ended = true ∨ pc.role = (s.pc t).role) ∧
    (pc.flips < (s.pc t).flips ∨ pc.flips ≤ (s.pc t).flips ∧ s'.writesAllowed = s.writesAllowed ∧
      pc.work cfg.maxBufferSize s.writesAllowed + extra < (s.tasks t).work cfg.maxBufferSize s.writesAllowed)

theorem Within.weaken {flips flips' work work' : ℕ} {role : Role} (within : Within cfg s t flips work role s')
    (fewer : flips ≤ flips') (less : work ≤ work') : Within cfg s t flips' work' role s' := by
  obtain ⟨pc, extra, turn, flip, pays, own⟩ := within.turn
  exact ⟨⟨pc, extra, turn, flip.trans fewer, pays.trans less, own⟩, within.allowed⟩

theorem Within.goes {flips work : ℕ} (at_ : s.pc t = pc) (within : Within cfg s t flips work pc.role s')
    (flip : flips ≤ pc.flips) (less : work < pc.work cfg.maxBufferSize s.writesAllowed) : Goes cfg s t s' := by
  obtain ⟨pc', extra, turn, flip', pays, own⟩ := within.turn
  have whole : pc.work cfg.maxBufferSize s.writesAllowed ≤ (s.tasks t).work cfg.maxBufferSize s.writesAllowed := by
    rw [← at_]
    exact Nat.le_add_right _ _
  refine ⟨pc', extra, turn, by rwa [at_], .inr ⟨?_, within.allowed, ?_⟩⟩
  · rw [at_]
    exact flip'.trans flip
  · omega

/-! ## Segments -/

section
variable {role : Role} {caller : FlushCaller}

/-- A segment that changes nothing a turn's cost depends on. -/
structure Still (s : State) (t : ℕ) (s₁ : State) : Prop where
  calm : Calm s t s₁
  allowed : s₁.writesAllowed = s.writesAllowed

theorem Still.self (s : State) (t : ℕ) : Still s t s := ⟨⟨rfl, rfl, .inl rfl⟩, rfl⟩

theorem Still.congr (still : Still s t s₁) (s₂ : State) (tasks : s₂.tasks = s₁.tasks)
    (spawned : s₂.spawned = s₁.spawned) (flushTask : s₂.flushTask = s₁.flushTask)
    (allowed : s₂.writesAllowed = s₁.writesAllowed) : Still s t s₂ := by
  refine ⟨⟨tasks.trans still.calm.tasks, spawned.trans still.calm.spawned, ?_⟩, allowed.trans still.allowed⟩
  rw [flushTask]
  exact still.calm.flushTask

namespace Still

theorem settles {flips work : ℕ} (still : Still s t s₁) 
    (awaited : pc.awaited = none ∨ (∃ child cancelled, s.pc t = .awaitingEviction child cancelled ∧
      pc = .awaitingEviction child true))
    (own : pc.ended = true ∨ pc.role = role) (flip : pc.flips ≤ flips)
    (pays : pc.work cfg.maxBufferSize s.writesAllowed ≤ work) : Within cfg s t flips work role (s₁.setPc t pc) :=
  ⟨⟨pc, 0, .settles s₁ still.calm awaited, flip, pays, own⟩, still.allowed⟩

theorem finishes (still : Still s t s₁) (result : Result) (flips work : ℕ) :
    Within cfg s t flips work role (s₁.setPc t (.done result)) :=
  still.settles (.inl rfl) (.inl rfl) (Nat.zero_le _) (Nat.zero_le _)

theorem leaves (still : Still s t s₁) (result : Result) (flips work : ℕ) :
    Within cfg s t flips work role (s₁.leave t result) :=
  (still.congr s₁.release rfl rfl rfl rfl).finishes result flips work

theorem restarts {flips work : ℕ} (still : Still s t s₁) (awaited : pc.awaited = none)
    (own : pc.role = .call) (flip : pc.flips ≤ flips)
    (pays : pc.work cfg.maxBufferSize s.writesAllowed + 2 ≤ work) :
    Within cfg s t flips work .call (s₁.resetTimer.setPc t pc) := by
  refine ⟨⟨pc, 2, .restarts s₁ still.calm awaited own, flip, pays, .inr own⟩, ?_⟩
  obtain ⟨_, _, _, timer, _⟩ := s₁.resetTimer_frame
  rw [timer]
  exact still.allowed

theorem closeBackend (still : Still s t s₁) : Within cfg s t 1 2 .call (s₁.closeBackend cfg t) := by
  unfold State.closeBackend
  split
  · split
    · exact still.leaves _ _ _
    · have ended := still.congr { s₁ with backupInProgress := false } rfl rfl rfl rfl
      exact ended.settles (.inl rfl) (.inr rfl) le_rfl le_rfl
  · exact still.settles (.inl rfl) (.inr rfl) (Nat.zero_le _) (Nat.le_succ _)

theorem afterFlush (still : Still s t s₁) : Within cfg s t caller.flips 3 caller.role (s₁.afterFlush cfg t caller) := by
  have released := still.congr s₁.release rfl rfl rfl rfl
  cases caller with
  | flush reads =>
    cases reads with
    | false => exact released.restarts rfl rfl le_rfl (Nat.le_succ _)
    | true => exact released.restarts rfl rfl le_rfl le_rfl
  | flushLoop =>
    unfold State.afterFlush
    dsimp only
    split
    · exact released.finishes _ _ _
    · exact released.settles (.inl rfl) (.inr rfl) le_rfl (Nat.le_add_left 1 2)
  | optimize => exact still.restarts rfl rfl le_rfl le_rfl
  | beginBackup => exact still.settles (.inl rfl) (.inr rfl) le_rfl (Nat.le_add_left 1 2)
  | close => exact still.closeBackend.weaken le_rfl (Nat.le_succ _)

theorem failFlush (still : Still s t s₁) (result : Result) (flips work : ℕ) :
    Within cfg s t flips work caller.role (s₁.failFlush t result caller) := by
  cases caller <;> exact still.leaves _ _ _

theorem startFlush (still : Still s t s₁) :
    Within cfg s t caller.flips (3 * cfg.maxBufferSize + 10) caller.role (s₁.startFlush cfg t caller) := by
  unfold State.startFlush
  split
  · exact still.settles (.inl rfl) (.inr rfl) le_rfl le_rfl
  · exact still.afterFlush.weaken le_rfl (by omega)

theorem detachBatch (still : Still s t s₁) (bounded : s₁.buffer.length ≤ cfg.maxBufferSize) :
    Within cfg s t caller.flips (3 * cfg.maxBufferSize + 9) caller.role (s₁.detachBatch cfg t caller) := by
  unfold State.detachBatch
  split
  · exact still.afterFlush.weaken le_rfl (by omega)
  · have taken := still.congr { s₁ with flushLock := true, buffer := [] } rfl rfl rfl rfl
    refine taken.settles (.inl rfl) (.inr rfl) le_rfl ?_
    show 3 * s₁.buffer.length + 9 ≤ _
    omega

theorem nextRow (still : Still s t s₁) (rest : List Accepted) :
    Within cfg s t caller.flips (3 * rest.length + 3 + 3 * min rest.length 1) caller.role
      (s₁.nextRow cfg t caller rest) := by
  cases rest with
  | nil => exact (still.congr s₁.unlockFlush rfl rfl rfl rfl).afterFlush
  | cons item rest =>
    refine still.settles (.inl rfl) (.inr rfl) le_rfl ?_
    show 3 * (rest.length + 1) + 6 ≤ 3 * (rest.length + 1) + 3 + 3 * min (rest.length + 1) 1
    omega

theorem keepBatch (still : Still s t s₁) (batch : List Accepted) :
    Within cfg s t caller.flips 3 caller.role (s₁.keepBatch cfg t caller batch) := by
  have kept := still.congr ((s₁.requeue cfg batch).unlockFlush) rfl rfl rfl rfl
  unfold State.keepBatch
  dsimp only
  split
  · exact kept.failFlush _ _ _
  · exact kept.afterFlush

theorem cancelWrite (still : Still s t s₁) (written batch : List Accepted) (tookEffect : Bool) (flips work : ℕ) :
    Within cfg s t flips work caller.role (s₁.cancelWrite cfg t caller written batch tookEffect) := by
  unfold State.cancelWrite
  cases tookEffect with
  | false => exact (still.congr ((s₁.requeue cfg batch).unlockFlush) rfl rfl rfl rfl).failFlush _ _ _
  | true =>
    have persisted := still.congr (s₁.persist (written.map Row.ofAccepted)) rfl rfl rfl rfl
    exact (persisted.congr (((s₁.persist (written.map Row.ofAccepted)).requeue cfg batch).unlockFlush)
      rfl rfl rfl rfl).failFlush _ _ _

theorem startEviction (still : Still s t s₁) (cutoff : DateTime) (dryRun : Bool) :
    Within cfg s t 0 6 .call (s₁.startEviction t cutoff dryRun) := by
  unfold State.startEviction
  rw [still.calm.spawned]
  exact ⟨⟨_, 4, .starts s₁ cutoff dryRun still.calm rfl, le_rfl, le_rfl, .inr rfl⟩, still.allowed⟩

theorem enterGated (still : Still s t s₁) (body : Gated) :
    Within cfg s t 0 (3 * cfg.maxBufferSize + 10) .call (s₁.enterGated cfg t body) := by
  cases body with
  | storeMany telegrams => exact still.settles (.inl rfl) (.inr rfl) le_rfl (Nat.le_add_left 2 _)
  | optimize =>
    have flush : Within cfg s t FlushCaller.optimize.flips _ FlushCaller.optimize.role _ := still.startFlush
    exact flush
  | evictOlderThan cutoff dryRun => exact (still.startEviction cutoff dryRun).weaken le_rfl (by omega)
  | evictExpired cutoff dryRun =>
    cases cutoff with
    | none => exact still.leaves _ _ _
    | some cutoff => exact still.settles (.inl rfl) (.inr rfl) le_rfl (Nat.le_add_left 7 _)
  | clear => exact still.settles (.inl rfl) (.inr rfl) le_rfl (Nat.le_add_left 3 _)

end Still
end

/-! ## Resumptions -/

/-- What only time or the end of a backup brings about: the timer of the flush
loop runs out, or a call looks again whether the writes it waits for are
allowed. -/
def Idle (s : State) (t : ℕ) (outcome : Outcome) : Prop :=
  outcome = .returned ∧ (s.pc t = .sleeping ∨ s.writesAllowed = false ∧ ∃ body, s.pc t = .gate body)

theorem Calm.goes {before : Pc} (calm : Calm s t s₁) (at_ : s.pc t = before) (awaited : pc.awaited = none)
    (own : pc.ended = true ∨ pc.role = before.role) (fewer : pc.flips < before.flips) :
    Goes cfg s t (s₁.setPc t pc) :=
  ⟨pc, 0, .settles s₁ calm (.inl awaited), by rwa [at_], .inl (by rwa [at_])⟩

/-- The task ends there. -/
theorem Still.retires (still : Still s t s₁) (at_ : s.pc t = pc)
    (some_work : 0 < pc.work cfg.maxBufferSize s.writesAllowed) (result : Result) :
    Goes cfg s t (s₁.setPc t (.done result)) :=
  (still.finishes result 0 0).goes at_ (Nat.zero_le _) some_work

theorem Still.out (still : Still s t s₁) (at_ : s.pc t = pc)
    (some_work : 0 < pc.work cfg.maxBufferSize s.writesAllowed) (result : Result) :
    Goes cfg s t (s₁.leave t result) :=
  (still.leaves result 0 0).goes at_ (Nat.zero_le _) some_work

/-- The task goes on to the next await of its body. -/
theorem Still.on {before : Pc} (still : Still s t s₁) (at_ : s.pc t = before) (awaited : pc.awaited = none)
    (own : pc.role = before.role) (flip : pc.flips ≤ before.flips)
    (less : pc.work cfg.maxBufferSize s.writesAllowed < before.work cfg.maxBufferSize s.writesAllowed) :
    Goes cfg s t (s₁.setPc t pc) :=
  (still.settles (.inl awaited) (.inr own) le_rfl le_rfl).goes at_ flip less

theorem goes_mutation {next : Waiting} (at_ : s.pc t = .mutation next)
    (taken : s.resume cfg t (.mutation next) outcome = some s') : Goes cfg s t s' := by
  have still := Still.self s t
  have some_work : 0 < (Pc.mutation next).work cfg.maxBufferSize s.writesAllowed := by
    cases next <;> simp only [Pc.work] <;> (try split) <;> omega
  rcases outcome with _ | _ | _ | _
  case cancelled.false => cases next <;> obtain rfl := Option.some.inj taken <;> exact still.retires at_ some_work _
  case returned =>
    have locked : (if s.mutationLock then none
      else if s.closing ∧ ¬ next.isClose then some (s.refuse t next)
      else some (s.enter cfg t next)) = some s' := by cases next <;> exact taken
    split at locked
    · cases locked
    · split at locked
      · obtain rfl := Option.some.inj locked
        cases next <;> exact still.retires at_ some_work _
      · obtain rfl := Option.some.inj locked
        have acquired := still.congr (s.acquire t) rfl rfl rfl rfl
        cases next with
        | gated body =>
          unfold State.enter
          dsimp only
          split
          · rename_i allowed
            refine (acquired.enterGated body).goes at_ le_rfl ?_
            simp only [Pc.work, if_pos allowed]
            omega
          · rename_i held
            have less : (Pc.gate body).work cfg.maxBufferSize s.writesAllowed <
                (Pc.mutation (.gated body)).work cfg.maxBufferSize s.writesAllowed := by
              simp only [Pc.work, if_neg held]
              omega
            exact still.on at_ rfl rfl le_rfl less
        | flush reads =>
          have flush : Within cfg s t (FlushCaller.flush reads).flips _ (FlushCaller.flush reads).role _ :=
            acquired.startFlush
          exact flush.goes at_ le_rfl (Nat.lt_succ_self _)
        | flushLoop =>
          have flush : Within cfg s t FlushCaller.flushLoop.flips _ FlushCaller.flushLoop.role _ :=
            acquired.startFlush
          exact flush.goes at_ le_rfl (Nat.lt_succ_self _)
        | beginBackup =>
          unfold State.enter
          dsimp only
          split
          · have flush : Within cfg s t FlushCaller.beginBackup.flips _ FlushCaller.beginBackup.role _ :=
              acquired.startFlush
            exact flush.goes at_ le_rfl (Nat.lt_succ_self _)
          · exact still.retires at_ some_work _
        | close =>
          unfold State.enter
          dsimp only
          split
          · have flush : Within cfg s t FlushCaller.close.flips _ FlushCaller.close.role _ :=
              acquired.startFlush
            exact flush.goes at_ le_rfl (Nat.lt_succ_self _)
          · have dropped := acquired.congr ((s.acquire t).dropBuffer .neverInitialized) rfl rfl rfl rfl
            apply dropped.closeBackend.goes at_ le_rfl
            show 2 < 3 * cfg.maxBufferSize + 11
            omega
  all_goals cases next <;> cases taken

theorem Nested.goes_flushGate (nested : Nested s) {caller : FlushCaller} {batch : List Accepted} {rows : Bool}
    (at_ : s.pc t = .flushGate caller batch rows)
    (taken : s.resume cfg t (.flushGate caller batch rows) outcome = some s') : Goes cfg s t s' := by
  have still := Still.self s t
  rcases outcome with _ | _ | _ | _
  case returned =>
    -- a flush never waits for the end of a backup
    have allowed : s.writesAllowed = true := nested.allowed t (by rw [at_]; rfl)
    obtain rfl := Option.some.inj taken
    rw [if_neg (by simp [allowed])]
    cases rows <;> exact still.on at_ rfl rfl le_rfl (Nat.lt_succ_self _)
  case cancelled.false =>
    obtain rfl := Option.some.inj taken
    apply (still.cancelWrite [] batch false 0 0).goes at_ (Nat.zero_le _)
    cases rows <;> exact Nat.succ_pos _
  all_goals cases taken

theorem goes_write (caller : FlushCaller) (rest : List Accepted) (rows : Bool) (phase : Phase)
    (at_ : s.pc t = .write caller rest rows phase)
    (taken : s.resume cfg t (.write caller rest rows phase) outcome = some s') : Goes cfg s t s' := by
  have still := Still.self s t
  have role : (Pc.write caller rest rows phase).role = caller.role := by cases rows <;> rfl
  have flips : (Pc.write caller rest rows phase).flips = caller.flips := by cases rows <;> rfl
  -- the last turn of a write still has more before it than what comes after
  have least : 3 * rest.length + (if rows then 4 else 7) ≤
      (Pc.write caller rest rows phase).work cfg.maxBufferSize s.writesAllowed := by
    cases rows <;> cases phase <;> simp [Pc.write, Pc.work]
  have within {work : ℕ} {s' : State} (within : Within cfg s t caller.flips work caller.role s')
      (less : work < 3 * rest.length + if rows then 4 else 7) : Goes cfg s t s' := by
    rw [← role, ← flips] at within
    exact within.goes at_ le_rfl (less.trans_le least)
  cases outcome with
  | returned =>
    cases phase with
    | executing =>
      cases rows <;> obtain rfl := Option.some.inj taken <;> exact still.on at_ rfl rfl le_rfl (Nat.lt_succ_self _)
    | committing =>
      cases rows with
      | false =>
        obtain rfl := Option.some.inj taken
        have persisted := still.congr ((s.persist (rest.map Row.ofAccepted)).unlockFlush) rfl rfl rfl rfl
        apply within persisted.afterFlush
        rw [if_neg Bool.false_ne_true]
        omega
      | true =>
        obtain rfl := Option.some.inj taken
        have persisted := still.congr (s.persist ((rest.take 1).map Row.ofAccepted)) rfl rfl rfl rfl
        apply within (persisted.nextRow rest.tail)
        rw [List.length_tail, if_pos rfl]
        omega
  | raised dataError =>
    cases resume_write rows taken with
    | split whole =>
      apply within (still.nextRow rest)
      rw [whole, if_neg Bool.false_ne_true]
      omega
    | rejected single =>
      have given := still.congr (s.giveUp (rest.take 1) .dataError) rfl rfl rfl rfl
      apply within (given.nextRow (rest.drop 1))
      rw [List.length_drop, single, if_pos rfl]
      omega
    | kept =>
      apply within (still.keepBatch rest)
      split <;> omega
  | cancelled tookEffect =>
    cases resume_write rows taken with
    | cancelled =>
      apply within (still.cancelWrite _ rest tookEffect caller.flips 0)
      split <;> omega

theorem goes_flushLock (bounded : s.buffer.length ≤ cfg.maxBufferSize) {caller : FlushCaller}
    (at_ : s.pc t = .flushLock caller) (taken : s.resume cfg t (.flushLock caller) outcome = some s') :
    Goes cfg s t s' := by
  have still := Still.self s t
  rcases outcome with _ | _ | _ | _
  case returned =>
    have locked : (if s.flushLock then none else some (s.detachBatch cfg t caller)) = some s' := taken
    split at locked
    · cases locked
    · obtain rfl := Option.some.inj locked
      exact (still.detachBatch bounded).goes at_ le_rfl (Nat.lt_succ_self _)
  case cancelled.false =>
    obtain rfl := Option.some.inj taken
    exact (still.failFlush .cancelled 0 0).goes at_ (Nat.zero_le _) (Nat.succ_pos _)
  all_goals cases taken

theorem goes_awaitingEviction {child : ℕ} {cancelled : Bool} (at_ : s.pc t = .awaitingEviction child cancelled)
    (requested : outcome.isCancelled = (s.tasks t).cancelRequested)
    (taken : s.resume cfg t (.awaitingEviction child cancelled) outcome = some s') : Goes cfg s t s' := by
  have still := Still.self s t
  have some_work : 0 < (Pc.awaitingEviction child cancelled).work cfg.maxBufferSize s.writesAllowed := by
    cases cancelled <;> exact Nat.succ_pos _
  rcases outcome with _ | _ | _ | _
  case returned =>
    obtain ⟨result, _, rfl⟩ := resume_awaitingEviction taken
    exact still.out at_ some_work _
  case cancelled.false =>
    obtain rfl := Option.some.inj taken
    split
    · exact still.out at_ some_work _
    · -- another cancellation of a caller that waits on: only the request is used up
      have asked : (s.tasks t).work cfg.maxBufferSize s.writesAllowed =
          (Pc.awaitingEviction child cancelled).work cfg.maxBufferSize s.writesAllowed + 1 := by
        rw [Task.work, ← requested, show (s.tasks t).pc = _ from at_]
        rfl
      refine ⟨.awaitingEviction child true, 0, .settles s still.calm (.inr ⟨child, cancelled, at_, rfl⟩),
        .inr (by rw [at_]; rfl),
        .inr ⟨Nat.zero_le _, rfl, ?_⟩⟩
      rw [asked]
      exact Nat.lt_succ_of_le some_work
  all_goals cases cancelled <;> cases taken

theorem goes_endingBackup {closing : Bool} (at_ : s.pc t = .endingBackup closing)
    (taken : s.resume cfg t (.endingBackup closing) outcome = some s') : Goes cfg s t s' := by
  have calm : Calm s t { s with writesAllowed := true } := ⟨rfl, rfl, .inl rfl⟩
  have released (result : Result) : Goes cfg s t ({ s with writesAllowed := true }.setPc t (.done result)) := by
    apply calm.goes at_ rfl (.inl rfl)
    cases closing <;> exact Nat.succ_pos _
  rcases outcome with _ | _ | _ | _
  case returned =>
    cases closing with
    | false =>
      obtain rfl := Option.some.inj taken
      exact released _
    | true =>
      obtain rfl := Option.some.inj taken
      unfold State.stopFlushTask
      split
      · exact calm.goes at_ rfl (.inr rfl) (Nat.lt_succ_self 1)
      · rename_i task named
        exact ⟨_, 1, .stops _ task calm named (.inl at_) rfl, .inr (by rw [at_]; rfl),
          .inl (by rw [at_]; exact Nat.lt_succ_self 1)⟩
  case cancelled.true => cases closing <;> cases taken
  all_goals cases closing <;> obtain rfl := Option.some.inj taken <;> exact released _

theorem goes_closeEndingBackup (at_ : s.pc t = .closeEndingBackup)
    (taken : s.resume cfg t .closeEndingBackup outcome = some s') : Goes cfg s t s' := by
  have calm : Calm s t { s with writesAllowed := true } := ⟨rfl, rfl, .inl rfl⟩
  have left : Calm s t { s with writesAllowed := true }.release := ⟨rfl, rfl, .inl rfl⟩
  rcases outcome with _ | _ | _ | _
  case returned =>
    obtain rfl := Option.some.inj taken
    exact calm.goes at_ rfl (.inr rfl) (Nat.succ_pos 0)
  case cancelled.true => cases taken
  all_goals
    obtain rfl := Option.some.inj taken
    exact left.goes at_ rfl (.inl rfl) (Nat.succ_pos 0)

theorem goes_beginningBackup (at_ : s.pc t = .beginningBackup)
    (taken : s.resume cfg t .beginningBackup outcome = some s') : Goes cfg s t s' := by
  have still := Still.self s t
  rcases outcome with _ | _ | _ | _
  case returned =>
    obtain rfl := Option.some.inj taken
    split
    · exact still.out at_ Nat.one_pos _
    · have calm : Calm s t { s with
        writesAllowed := false, backupInProgress := cfg.backend == Backend.sqlite }.release := ⟨rfl, rfl, .inl rfl⟩
      exact calm.goes at_ rfl (.inl rfl) (Nat.succ_pos 0)
  case cancelled.true => cases taken
  all_goals
    obtain rfl := Option.some.inj taken
    exact still.out at_ Nat.one_pos _

theorem goes_storing {telegrams : List StoredTelegram} {phase : Phase} (at_ : s.pc t = .storing telegrams phase)
    (taken : s.resume cfg t (.storing telegrams phase) outcome = some s') : Goes cfg s t s' := by
  have still := Still.self s t
  have persisted := still.congr (s.persist (telegrams.map Row.direct)) rfl rfl rfl rfl
  cases phase with
  | executing =>
    rcases outcome with _ | _ | _ | _
    case returned =>
      obtain rfl := Option.some.inj taken
      exact still.on at_ rfl rfl le_rfl (Nat.lt_succ_self 1)
    case cancelled.true => cases taken
    all_goals
      obtain rfl := Option.some.inj taken
      exact still.out at_ (Nat.succ_pos 1) _
  | committing =>
    rcases outcome with _ | _ | _ | _
    case returned =>
      obtain rfl := Option.some.inj taken
      exact persisted.out at_ Nat.one_pos _
    case cancelled.true =>
      obtain rfl := Option.some.inj taken
      exact persisted.out at_ Nat.one_pos _
    all_goals
      obtain rfl := Option.some.inj taken
      exact still.out at_ Nat.one_pos _

theorem goes_clearing {phase : Phase} (at_ : s.pc t = .clearing phase)
    (taken : s.resume cfg t (.clearing phase) outcome = some s') : Goes cfg s t s' := by
  have still := (Still.self s t).congr s.unlockFlush rfl rfl rfl rfl
  have deleted := (Still.self s t).congr s.deleteAll.unlockFlush rfl rfl rfl rfl
  cases phase with
  | executing =>
    rcases outcome with _ | _ | _ | _
    case returned =>
      obtain rfl := Option.some.inj taken
      exact (Still.self s t).on at_ rfl rfl le_rfl (Nat.lt_succ_self 1)
    case cancelled.true => cases taken
    all_goals
      obtain rfl := Option.some.inj taken
      exact still.out at_ (Nat.succ_pos 1) _
  | committing =>
    rcases outcome with _ | _ | _ | _
    case returned =>
      obtain rfl := Option.some.inj taken
      exact deleted.out at_ Nat.one_pos _
    case cancelled.true =>
      obtain rfl := Option.some.inj taken
      exact deleted.out at_ Nat.one_pos _
    all_goals
      obtain rfl := Option.some.inj taken
      exact still.out at_ Nat.one_pos _

/-! ### The child task of an eviction -/

theorem Still.finishEviction {before : Pc} (still : Still s t s₁) (at_ : s.pc t = before)
    (some_work : 0 < before.work cfg.maxBufferSize s.writesAllowed) (cutoff : DateTime) (deleted : ℕ) :
    Goes cfg s t (s₁.finishEviction cfg t cutoff deleted) := by
  unfold State.finishEviction
  dsimp only
  split
  · exact (still.congr s₁.unlockFlush rfl rfl rfl rfl).retires at_ some_work _
  · exact (still.congr ((s₁.dropOlder cfg cutoff).unlockFlush) rfl rfl rfl rfl).retires at_ some_work _

theorem goes_child (evicts : (s.pc t).evicts = true) (taken : s.resume cfg t (s.pc t) outcome = some s') :
    Goes cfg s t s' := by
  have still := Still.self s t
  have unlocked := still.congr s.unlockFlush rfl rfl rfl rfl
  cases at_ : s.pc t <;> rw [at_] at evicts taken <;> try cases evicts
  case evictLock cutoff dryRun =>
    rcases outcome with _ | _ | _ | _
    case returned =>
      have locked : (if s.flushLock then none else some ({ s with flushLock := true }.setPc t
          (if dryRun then .counting cutoff else .evicting cutoff .executing))) = some s' := taken
      split at locked
      · cases locked
      · obtain rfl := Option.some.inj locked
        have held := still.congr { s with flushLock := true } rfl rfl rfl rfl
        cases dryRun
        · exact held.on at_ rfl rfl le_rfl (Nat.lt_succ_self 3)
        · refine held.on at_ rfl rfl le_rfl ?_
          show 1 < 4
          omega
    case cancelled.false =>
      obtain rfl := Option.some.inj taken
      exact still.retires at_ (Nat.succ_pos 3) _
    all_goals cases taken
  case counting cutoff =>
    rcases outcome with _ | _ | _ | _
    case cancelled.true => cases taken
    all_goals
      obtain rfl := Option.some.inj taken
      exact unlocked.retires at_ Nat.one_pos _
  case evicting cutoff phase =>
    cases phase with
    | executing =>
      rcases outcome with _ | _ | _ | _
      case returned =>
        obtain rfl := Option.some.inj taken
        exact still.on at_ rfl rfl le_rfl (Nat.lt_succ_self 2)
      case cancelled.true => cases taken
      all_goals
        obtain rfl := Option.some.inj taken
        exact unlocked.retires at_ (Nat.succ_pos 2) _
    | committing =>
      have deleted := still.congr (s.deleteExpired cfg cutoff) rfl rfl rfl rfl
      rcases outcome with _ | _ | _ | _
      case returned =>
        obtain rfl := Option.some.inj taken
        split
        · exact deleted.on at_ rfl rfl le_rfl (Nat.lt_succ_self 1)
        · exact deleted.finishEviction at_ (Nat.succ_pos 1) _ _
      case cancelled.true =>
        obtain rfl := Option.some.inj taken
        exact (deleted.congr ((s.deleteExpired cfg cutoff).unlockFlush) rfl rfl rfl rfl).retires at_
          (Nat.succ_pos 1) _
      all_goals
        obtain rfl := Option.some.inj taken
        exact unlocked.retires at_ (Nat.succ_pos 1) _
  case refreshing cutoff deleted =>
    rcases outcome with _ | _ | _ | _
    case returned =>
      obtain rfl := Option.some.inj taken
      exact still.finishEviction at_ Nat.one_pos _ _
    case cancelled.true => cases taken
    all_goals
      obtain rfl := Option.some.inj taken
      exact unlocked.retires at_ Nat.one_pos _

/-! ### The rest -/

theorem goes_gate {body : Gated} (at_ : s.pc t = .gate body) (awake : ¬ Idle s t outcome)
    (taken : s.resume cfg t (.gate body) outcome = some s') : Goes cfg s t s' := by
  have still := Still.self s t
  rcases outcome with _ | _ | _ | _
  case returned =>
    have allowed : s.writesAllowed = true := by
      by_contra held
      exact awake ⟨rfl, .inr ⟨by simpa using held, body, at_⟩⟩
    have less : (Pc.mutation (.gated body)).work cfg.maxBufferSize s.writesAllowed <
        (Pc.gate body).work cfg.maxBufferSize s.writesAllowed := by
      simp only [Pc.work, if_pos allowed]
      omega
    obtain rfl := Option.some.inj taken
    exact still.on at_ rfl rfl le_rfl less
  case cancelled.false =>
    obtain rfl := Option.some.inj taken
    refine still.retires at_ ?_ _
    simp only [Pc.work]
    split <;> omega
  all_goals cases taken

theorem Nested.goes_evictGate (nested : Nested s) {cutoff : DateTime} {dryRun : Bool}
    (at_ : s.pc t = .evictGate cutoff dryRun) (taken : s.resume cfg t (.evictGate cutoff dryRun) outcome = some s') :
    Goes cfg s t s' := by
  have still := Still.self s t
  rcases outcome with _ | _ | _ | _
  case returned =>
    have allowed : s.writesAllowed = true := nested.allowed t (by rw [at_]; rfl)
    obtain rfl := Option.some.inj taken
    rw [if_pos allowed]
    exact (still.startEviction cutoff dryRun).goes at_ le_rfl (Nat.lt_succ_self 6)
  case cancelled.false =>
    obtain rfl := Option.some.inj taken
    exact still.out at_ (Nat.succ_pos 6) _
  all_goals cases taken

theorem goes_clearLock (at_ : s.pc t = .clearLock) (taken : s.resume cfg t .clearLock outcome = some s') :
    Goes cfg s t s' := by
  have still := Still.self s t
  rcases outcome with _ | _ | _ | _
  case returned =>
    have locked : (if s.flushLock then none
      else some ({ s.dropBuffer .clear with flushLock := true }.setPc t (.clearing .executing))) = some s' := taken
    split at locked
    · cases locked
    · obtain rfl := Option.some.inj locked
      have emptied := still.congr { s.dropBuffer .clear with flushLock := true } rfl rfl rfl rfl
      exact emptied.on at_ rfl rfl le_rfl (Nat.lt_succ_self 2)
  case cancelled.false =>
    obtain rfl := Option.some.inj taken
    exact still.out at_ (Nat.succ_pos 2) _
  all_goals cases taken

theorem goes_awaitingFlushTask {task : ℕ} (at_ : s.pc t = .awaitingFlushTask task)
    (taken : s.resume cfg t (.awaitingFlushTask task) outcome = some s') : Goes cfg s t s' := by
  have awaited : (if s.isDone task then some ({ s with flushTask := none }.setPc t (.mutation .close))
      else none) = some s' := by
    rcases outcome with _ | _ | _ | _
    case returned => exact taken
    case cancelled.false => exact taken
    all_goals cases taken
  split at awaited
  · rename_i done
    obtain rfl := Option.some.inj awaited
    have forgotten : Still s t { s with flushTask := none } := ⟨⟨rfl, rfl, .inr ⟨rfl, task, at_, done⟩⟩, rfl⟩
    exact forgotten.on at_ rfl rfl le_rfl (Nat.lt_succ_self _)
  · cases awaited

/-- **Every resumption costs something**: work, or one of the changes to
whether writes are allowed that were still ahead. -/
theorem Nested.goes (nested : Nested s) (bounded : s.buffer.length ≤ cfg.maxBufferSize)
    (requested : outcome.isCancelled = (s.tasks t).cancelRequested) (awake : ¬ Idle s t outcome)
    (taken : s.resume cfg t (s.pc t) outcome = some s') : Goes cfg s t s' := by
  have still := Still.self s t
  by_cases evicts : (s.pc t).evicts = true
  · exact goes_child evicts taken
  cases at_ : s.pc t <;> rw [at_] at taken evicts
  case unborn => cases taken
  case done => cases taken
  case gate => exact goes_gate at_ awake taken
  case mutation => exact goes_mutation at_ taken
  case flushLock => exact goes_flushLock bounded at_ taken
  case flushGate => exact nested.goes_flushGate at_ taken
  case flushBatch caller batch phase => exact goes_write caller batch false phase at_ taken
  case flushRow caller rest phase => exact goes_write caller rest true phase at_ taken
  case sleeping =>
    rcases outcome with _ | _ | _ | _
    case returned => exact absurd ⟨rfl, .inl at_⟩ awake
    case cancelled.false =>
      obtain rfl := Option.some.inj taken
      exact still.retires at_ Nat.one_pos _
    all_goals cases taken
  case storing => exact goes_storing at_ taken
  case beginningBackup => exact goes_beginningBackup at_ taken
  case endingBackup => exact goes_endingBackup at_ taken
  case evictGate => exact nested.goes_evictGate at_ taken
  case awaitingEviction => exact goes_awaitingEviction at_ requested taken
  case clearLock => exact goes_clearLock at_ taken
  case clearing => exact goes_clearing at_ taken
  case awaitingFlushTask => exact goes_awaitingFlushTask at_ taken
  case closeEndingBackup => exact goes_closeEndingBackup at_ taken
  case reading =>
    rcases outcome with _ | _ | _ | _
    case cancelled.true => cases taken
    all_goals
      obtain rfl := Option.some.inj taken
      exact still.retires at_ Nat.one_pos _
  case optimizing =>
    rcases outcome with _ | _ | _ | _
    case cancelled.true => cases taken
    all_goals
      obtain rfl := Option.some.inj taken
      exact still.out at_ Nat.one_pos _
  case closingBackend =>
    rcases outcome with _ | _ | _ | _
    case cancelled.true => cases taken
    all_goals
      obtain rfl := Option.some.inj taken
      exact still.out at_ Nat.one_pos _
  all_goals exact absurd rfl evicts

end KnxTelegramStore.Buffered
