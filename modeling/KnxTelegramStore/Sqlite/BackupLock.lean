import KnxTelegramStore.Lib.Runs
import KnxTelegramStore.Lib.WriteAhead

/-!
The write lock that a SQLite store holds while its file is copied
(`SqliteStore.begin_backup`, `end_backup` and `close` in `backends/sqlite.py`).
The calls run as tasks, await by await, and the statements they await take
effect in the thread of a connection; every other connection, of this process
or another, reads, writes and checkpoints between any two of them.
-/
namespace KnxTelegramStore.Sqlite.BackupLock
open WriteAhead

/-- A store is opened read-only, or on a database in memory, or neither. -/
structure Config where
  readOnly : Bool := false
  memory : Bool := false

/-- A connection: that of a call of `begin_backup`, or any other. -/
inductive Connection where
  | backup (t : ℕ)
  | other (c : ℕ)
  deriving DecidableEq

/-- Where a call is. -/
inductive Pc where
  | idle
  /-- `await engine.connect()` -/
  | connecting
  /-- `PRAGMA wal_checkpoint(TRUNCATE)` -/
  | checkpointing
  /-- `BEGIN IMMEDIATE` -/
  | locking
  /-- `except BaseException: await conn.close()`, perhaps with a `BEGIN` that
  is still on its way; it too ends the transaction if it is cancelled -/
  | abandoning (asked : Bool)
  /-- `COMMIT` on the connection of a backup, in `end_backup()` itself or
  called by `close()` -/
  | committing (connection : ℕ) (closing : Bool)
  /-- `finally: await conn.close()`, which ends the transaction also if it is
  cancelled -/
  | releasing (connection : ℕ) (closing failed : Bool)
  /-- `PRAGMA optimize` in `close()` -/
  | optimizing
  /-- `await super().close()` -/
  | disposing
  | done (raised : Bool)
  deriving DecidableEq

structure State (Page Data : Type) where
  file : File Page Data
  /-- the connection that holds the write lock -/
  writer : Option Connection := none
  /-- the other connections that read, each at its snapshot -/
  readers : List (ℕ × ℕ) := []
  backupInProgress : Bool := false
  backupConnection : Option ℕ := none
  calls : ℕ → Pc := fun _ => .idle

inductive Outcome where
  | returned
  | raised
  | cancelled
  deriving DecidableEq

inductive Event (Page Data : Type) where
  | beginBackup (t : ℕ)
  | endBackup (t : ℕ)
  | close (t : ℕ)
  /-- the await of a call ends -/
  | resume (t : ℕ) (outcome : Outcome)
  /-- a checkpoint moves this many commits at most, by whichever connection -/
  | checkpoint (k : ℕ)
  /-- the `BEGIN IMMEDIATE` of a call gets the lock -/
  | locks (t : ℕ)
  /-- the `COMMIT` or `close` of a call ends the transaction of its connection -/
  | unlocks (t : ℕ)
  /-- another connection reads, writes -/
  | read (c : ℕ)
  | finishRead (c : ℕ)
  | lock (c : ℕ)
  | commit (c : ℕ) (write : Page → Option Data)
  | rollback (c : ℕ)

variable {Page Data : Type}

namespace State

variable (cfg : Config) (s : State Page Data)

def setCall (t : ℕ) (pc : Pc) : State Page Data := { s with calls := Function.update s.calls t pc }

/-- `begin_backup()` up to its first await. -/
def beginBackup (t : ℕ) : State Page Data :=
  if cfg.readOnly ∨ s.backupInProgress then s.setCall t (.done true)
  else if cfg.memory then { s with backupInProgress := true }.setCall t (.done false)
  else s.setCall t .connecting

/-- What `close()` does behind the backup. -/
def closing (t : ℕ) : State Page Data :=
  s.setCall t (if cfg.readOnly ∨ cfg.memory then .disposing else .optimizing)

/-- `end_backup()`, on its own or in `close()`, up to its first await. -/
def endBackup (t : ℕ) (closing : Bool) : State Page Data :=
  let ended := { s with backupInProgress := false, backupConnection := none }
  match s.backupConnection with
  | some connection => ended.setCall t (.committing connection closing)
  | none => if closing then ended.closing cfg t else ended.setCall t (.done false)

/-- The await of a call ends. -/
def resume (t : ℕ) (outcome : Outcome) : Option (State Page Data) :=
  match s.calls t, outcome with
  | .idle, _ | .done _, _ => none
  | .connecting, .returned => some (s.setCall t .checkpointing)
  | .connecting, _ => some (s.setCall t (.done true))
  | .checkpointing, .returned => some (s.setCall t .locking)
  | .checkpointing, _ => some (s.setCall t (.abandoning false))
  | .locking, .returned =>
    if s.writer = some (.backup t) then
      some ({ s with backupInProgress := true, backupConnection := some t }.setCall t (.done false))
    else none
  | .locking, _ => some (s.setCall t (.abandoning true))
  | .abandoning _, _ => if s.writer = some (.backup t) then none else some (s.setCall t (.done true))
  | .committing connection closing, .returned =>
    if s.writer = some (.backup connection) then none
    else some (s.setCall t (.releasing connection closing false))
  | .committing connection closing, _ => some (s.setCall t (.releasing connection closing true))
  | .releasing connection closing failed, outcome =>
    if s.writer = some (.backup connection) then none
    else if failed ∨ outcome ≠ .returned then some (s.setCall t (.done true))
    else if closing then some (s.closing cfg t)
    else some (s.setCall t (.done false))
  | .optimizing, .cancelled => some (s.setCall t (.done true))
  | .optimizing, _ => some (s.setCall t .disposing)
  | .disposing, outcome => some (s.setCall t (.done (outcome ≠ .returned)))

end State

/-- The connection whose transaction a call is ending. -/
def Pc.ending : Pc → Option ℕ
  | .committing connection _ | .releasing connection _ _ => some connection
  | _ => none

/-- A `BEGIN IMMEDIATE` of the call may get the lock. -/
def Pc.asks : Pc → Bool
  | .locking | .abandoning true => true
  | _ => false

def step (cfg : Config) (s : State Page Data) : Event Page Data → Option (State Page Data)
  | .beginBackup t => if s.calls t = .idle then some (s.beginBackup cfg t) else none
  | .endBackup t =>
    if s.calls t = .idle then
      some (if s.backupInProgress then s.endBackup cfg t false else s.setCall t (.done true))
    else none
  | .close t =>
    if s.calls t = .idle then some (if s.backupInProgress then s.endBackup cfg t true else s.closing cfg t) else none
  | .resume t outcome => s.resume cfg t outcome
  | .checkpoint k =>
    if s.readers.all fun reader => k ≤ reader.2 then some { s with file := s.file.checkpoint k } else none
  | .locks t =>
    if (s.calls t).asks ∧ s.writer = none then some { s with writer := some (.backup t) } else none
  | .unlocks t =>
    match s.calls t with
    | .abandoning _ => if s.writer = some (.backup t) then some { s with writer := none } else none
    | .committing connection _ | .releasing connection _ _ =>
      if s.writer = some (.backup connection) then some { s with writer := none } else none
    | _ => none
  | .read c => some { s with readers := (c, s.file.commits.length) :: s.readers }
  | .finishRead c => some { s with readers := s.readers.filter fun reader => reader.1 ≠ c }
  | .lock c => if s.writer = none then some { s with writer := some (.other c) } else none
  | .commit c write =>
    if s.writer = some (.other c) then some { s with file := s.file.commit write, writer := none } else none
  | .rollback c => if s.writer = some (.other c) then some { s with writer := none } else none

abbrev run (cfg : Config) (file : File Page Data) (events : List (Event Page Data)) : Option (State Page Data) :=
  EventMachine.run (step cfg) { file } events

variable {cfg : Config} {file : File Page Data} {s s' : State Page Data} {t n : ℕ} {pc : Pc}
variable {event : Event Page Data} {events : List (Event Page Data)}

/-! ## Who holds the lock -/

/-- What the calls of a store keep of its lock. -/
structure Inv (cfg : Config) (s : State Page Data) : Prop where
  held : ∀ n, s.backupConnection = some n →
    s.backupInProgress = true ∧ s.writer = some (.backup n) ∧ s.calls n = .done false
  connected : s.backupInProgress = true → cfg.memory = false → s.backupConnection.isSome
  owned : ∀ n, s.writer = some (.backup n) →
    s.backupConnection = some n ∨ (s.calls n).asks = true ∨ ∃ t, (s.calls t).ending = some n
  taken : ∀ t n, (s.calls t).ending = some n → s.backupConnection ≠ some n ∧ s.calls n = .done false
  read : ∀ reader ∈ s.readers, s.file.checkpointed ≤ reader.2 ∧ reader.2 ≤ s.file.commits.length

theorem Inv.init (cfg : Config) (file : File Page Data) : Inv cfg { file } where
  held _ nothing := by cases nothing
  connected never := by cases never
  owned _ nothing := by cases nothing
  taken _ _ nothing := by cases nothing
  read _ nothing := by cases nothing

/-- A call goes on: it has not returned, lets go of no lock, and takes no
connection over. -/
theorem Inv.setCall (inv : Inv cfg s) (running : ∀ raised, s.calls t ≠ .done raised)
    (asks : (s.calls t).asks = true → pc.asks = true ∨ s.writer ≠ some (.backup t))
    (ends : ∀ n, (s.calls t).ending = some n → pc.ending = some n ∨ s.writer ≠ some (.backup n))
    (takes : ∀ n, pc.ending = some n → s.backupConnection ≠ some n ∧ s.calls n = .done false) :
    Inv cfg (s.setCall t pc) := by
  have finished {n : ℕ} (done : s.calls n = .done false) : (s.setCall t pc).calls n = .done false := by
    have other : n ≠ t := by
      rintro rfl
      exact running false done
    exact (Function.update_of_ne other ..).trans done
  refine ⟨fun n mine => ?_, inv.connected, fun n mine => ?_, fun u n ending => ?_, inv.read⟩
  · obtain ⟨flag, lock, done⟩ := inv.held n mine
    exact ⟨flag, lock, finished done⟩
  · rcases inv.owned n mine with connection | asking | ⟨u, ending⟩
    · exact .inl connection
    · by_cases same : n = t
      · subst same
        refine .inr (.inl ?_)
        show (Function.update s.calls n pc n).asks = true
        rw [Function.update_self]
        exact (asks asking).resolve_right fun free => free mine
      · refine .inr (.inl ?_)
        show (Function.update s.calls t pc n).asks = true
        rw [Function.update_of_ne same]
        exact asking
    · refine .inr (.inr ⟨u, ?_⟩)
      show (Function.update s.calls t pc u).ending = some n
      by_cases same : u = t
      · subst same
        rw [Function.update_self]
        exact (ends n ending).resolve_right fun free => free mine
      · rw [Function.update_of_ne same]
        exact ending
  · replace ending : (Function.update s.calls t pc u).ending = some n := ending
    by_cases same : u = t
    · rw [same, Function.update_self] at ending
      obtain ⟨other, done⟩ := takes n ending
      exact ⟨other, finished done⟩
    · rw [Function.update_of_ne same] at ending
      obtain ⟨other, done⟩ := inv.taken u n ending
      exact ⟨other, finished done⟩

/-- The lock changes hands where nobody had it, or where it is let go of by
who ends a transaction. -/
theorem Inv.setWriter (inv : Inv cfg s) (free : ∀ n, s.backupConnection = some n → s.writer ≠ some (.backup n))
    {writer : Option Connection} (asking : ∀ n, writer = some (.backup n) → (s.calls n).asks = true) :
    Inv cfg { s with writer } where
  held n mine := absurd (inv.held n mine).2.1 (free n mine)
  connected := inv.connected
  owned n mine := .inr (.inl (asking n mine))
  taken := inv.taken
  read := inv.read

/-- A backup begins with the lock of its own connection. -/
theorem Inv.begins (inv : Inv cfg s) (locking : s.calls t = .locking) (mine : s.writer = some (.backup t)) :
    Inv cfg ({ s with backupInProgress := true, backupConnection := some t }.setCall t (.done false)) := by
  have unfinished {n : ℕ} (done : s.calls n = .done false) : n ≠ t := by
    rintro rfl
    rw [locking] at done
    cases done
  refine ⟨fun n same => ?_, fun _ _ => rfl, fun n lock => ?_, fun u n ending => ?_, inv.read⟩
  · obtain rfl := Option.some.inj same
    exact ⟨rfl, mine, Function.update_self ..⟩
  · obtain rfl := Connection.backup.inj (Option.some.inj (mine.symm.trans lock))
    exact .inl rfl
  · replace ending : (Function.update s.calls t (.done false) u).ending = some n := ending
    by_cases same : u = t
    · rw [same, Function.update_self] at ending
      cases ending
    · rw [Function.update_of_ne same] at ending
      have other := unfinished (inv.taken u n ending).2
      exact ⟨fun taken => other (Option.some.inj taken).symm,
        (Function.update_of_ne other ..).trans (inv.taken u n ending).2⟩

/-- The backup is no longer in progress; whoever ends it has its connection. -/
theorem Inv.ends (inv : Inv cfg s) (idle : s.calls t = .idle) (closing : Bool) :
    Inv cfg (s.endBackup cfg t closing) := by
  have fresh {pc : Pc} (other : pc ≠ .idle) {n : ℕ} (own : s.calls n = pc) : n ≠ t := by
    rintro rfl
    exact other (own.symm.trans idle)
  unfold State.endBackup
  dsimp only
  split
  · rename_i connection connected
    obtain ⟨_, lock, done⟩ := inv.held connection connected
    have finished : connection ≠ t := fresh (by decide) done
    refine ⟨fun n nothing => ?_, fun never => ?_, fun n mine => ?_, fun u n ending => ?_, inv.read⟩
    · cases nothing
    · cases never
    · have same : connection = n := Connection.backup.inj (Option.some.inj (lock.symm.trans mine))
      refine .inr (.inr ⟨t, ?_⟩)
      show (Function.update s.calls t (.committing connection closing) t).ending = some n
      rw [Function.update_self, same]
      rfl
    · replace ending : (Function.update s.calls t (.committing connection closing) u).ending = some n := ending
      have done : s.calls n = .done false := by
        by_cases same : u = t
        · rw [same, Function.update_self] at ending
          rwa [← Option.some.inj ending]
        · rw [Function.update_of_ne same] at ending
          exact (inv.taken u n ending).2
      have other : n ≠ t := fresh (by decide) done
      refine ⟨fun nothing => ?_, (Function.update_of_ne other ..).trans done⟩
      cases nothing
  · rename_i unconnected
    have ended : Inv cfg { s with backupInProgress := false, backupConnection := none } := by
      refine ⟨fun n nothing => ?_, fun never => ?_, fun n mine => ?_, fun u n ending => ?_, inv.read⟩
      · cases nothing
      · cases never
      · refine .inr ((inv.owned n mine).resolve_left fun connected => ?_)
        rw [unconnected] at connected
        cases connected
      · refine ⟨fun nothing => ?_, (inv.taken u n ending).2⟩
        cases nothing
    have goes (pc : Pc) (plain : pc.ending = none) :
        Inv cfg ({ s with backupInProgress := false, backupConnection := none }.setCall t pc) := by
      apply ended.setCall
      · intro raised done
        rw [show s.calls t = .idle from idle] at done
        cases done
      · intro asks
        rw [show s.calls t = .idle from idle] at asks
        cases asks
      · intro n ending
        rw [show s.calls t = .idle from idle] at ending
        cases ending
      · intro n ending
        rw [plain] at ending
        cases ending
    split
    · unfold State.closing
      apply goes
      split <;> rfl
    · exact goes _ rfl

theorem Inv.resume (inv : Inv cfg s) {outcome : Outcome} (taken : s.resume cfg t outcome = some s') : Inv cfg s' := by
  -- a call that holds no connection goes on to where it holds none
  have plain {before after : Pc} (at_ : s.calls t = before) (running : ∀ raised, before ≠ .done raised)
      (quiet : before.asks = false) (unheld : before.ending = none) (plain : after.ending = none) :
      Inv cfg (s.setCall t after) := by
    apply inv.setCall
    · intro raised done
      exact running raised (at_.symm.trans done)
    · intro asks
      rw [at_, quiet] at asks
      cases asks
    · intro n ending
      rw [at_, unheld] at ending
      cases ending
    · intro n ending
      rw [plain] at ending
      cases ending
  -- a call that ends the transaction of a connection has ended it, or goes on with it
  have ends {connection : ℕ} {before after : Pc} (at_ : s.calls t = before) (running : ∀ raised, before ≠ .done raised)
      (quiet : before.asks = false) (held : before.ending = some connection)
      (goes : after.ending = some connection ∨ after.ending = none ∧ s.writer ≠ some (.backup connection)) :
      Inv cfg (s.setCall t after) := by
    apply inv.setCall
    · intro raised done
      exact running raised (at_.symm.trans done)
    · intro asks
      rw [at_, quiet] at asks
      cases asks
    · intro n ending
      rw [at_, held] at ending
      obtain rfl := Option.some.inj ending
      exact goes.imp id And.right
    · intro n ending
      rcases goes with same | ⟨nothing, _⟩
      · exact inv.taken t n (by rw [at_, held, ← same, ending])
      · rw [nothing] at ending
        cases ending
  unfold State.resume at taken
  split at taken
  case h_1 | h_2 => cases taken
  case h_3 at_ | h_4 at_ _ | h_5 at_ | h_6 at_ _ =>
    cases taken
    exact plain at_ (fun _ same => by cases same) rfl rfl rfl
  case h_7 at_ =>
    split at taken
    · rename_i mine
      cases taken
      exact inv.begins at_ mine
    · cases taken
  case h_8 at_ _ =>
    cases taken
    apply inv.setCall
    · intro raised done
      rw [at_] at done
      cases done
    · exact fun _ => .inl rfl
    · intro n ending
      rw [at_] at ending
      cases ending
    · intro n ending
      cases ending
  case h_9 at_ =>
    split at taken
    · cases taken
    · rename_i unlocked
      cases taken
      apply inv.setCall
      · intro raised done
        rw [at_] at done
        cases done
      · exact fun _ => .inr unlocked
      · intro n ending
        rw [at_] at ending
        cases ending
      · intro n ending
        cases ending
  case h_10 at_ =>
    split at taken
    · cases taken
    · cases taken
      exact ends at_ (fun _ same => by cases same) rfl rfl (.inl rfl)
  case h_11 at_ _ =>
    cases taken
    exact ends at_ (fun _ same => by cases same) rfl rfl (.inl rfl)
  case h_12 at_ =>
    split at taken
    · cases taken
    · rename_i unlocked
      have out {after : Pc} (plain : after.ending = none) : Inv cfg (s.setCall t after) :=
        ends at_ (fun _ same => by cases same) rfl rfl (.inr ⟨plain, unlocked⟩)
      split at taken
      · cases taken
        exact out rfl
      · split at taken
        · cases taken
          unfold State.closing
          apply out
          split <;> rfl
        · cases taken
          exact out rfl
  case h_13 at_ | h_14 at_ _ | h_15 at_ =>
    cases taken
    exact plain at_ (fun _ same => by cases same) rfl rfl rfl

/-- A call starts. -/
theorem Inv.starts (inv : Inv cfg s) (idle : s.calls t = .idle) (plain : pc.ending = none) :
    Inv cfg (s.setCall t pc) := by
  apply inv.setCall
  · intro raised done
    rw [idle] at done
    cases done
  · intro asks
    rw [idle] at asks
    cases asks
  · intro n ending
    rw [idle] at ending
    cases ending
  · intro n ending
    rw [plain] at ending
    cases ending

theorem Inv.closing (inv : Inv cfg s) (idle : s.calls t = .idle) : Inv cfg (s.closing cfg t) := by
  unfold State.closing
  apply inv.starts idle
  split <;> rfl

theorem Inv.beginBackup (inv : Inv cfg s) (idle : s.calls t = .idle) : Inv cfg (s.beginBackup cfg t) := by
  unfold State.beginBackup
  split
  · exact inv.starts idle rfl
  · split
    · rename_i memory
      have flagged : Inv cfg { s with backupInProgress := true } := by
        refine ⟨fun n mine => ?_, fun _ file => ?_, inv.owned, inv.taken, inv.read⟩
        · exact ⟨rfl, (inv.held n mine).2⟩
        · rw [memory] at file
          cases file
      exact flagged.starts idle rfl
    · exact inv.starts idle rfl

/-- The lock is let go of by a call that ends a transaction. -/
theorem Inv.unlocks (inv : Inv cfg s) {n : ℕ} (own : s.writer = some (.backup n))
    (other : s.backupConnection ≠ some n) : Inv cfg { s with writer := none } := by
  apply inv.setWriter
  · intro m connected lock
    rw [own] at lock
    obtain rfl := Connection.backup.inj (Option.some.inj lock)
    exact other connected
  · intro m nothing
    cases nothing

theorem Inv.step (inv : Inv cfg s) (taken : step cfg s event = some s') : Inv cfg s' := by
  have free {writer : Option Connection} (others : ∀ n, writer ≠ some (.backup n)) (now : s.writer = writer) (n : ℕ)
      (_ : s.backupConnection = some n) : s.writer ≠ some (.backup n) := now ▸ others n
  unfold BackupLock.step at taken
  split at taken
  case h_1 t =>
    split at taken
    · rename_i idle
      cases taken
      exact inv.beginBackup idle
    · cases taken
  case h_2 t =>
    split at taken
    · rename_i idle
      cases taken
      split
      · exact inv.ends idle false
      · exact inv.starts idle rfl
    · cases taken
  case h_3 t =>
    split at taken
    · rename_i idle
      cases taken
      split
      · exact inv.ends idle true
      · exact inv.closing idle
    · cases taken
  case h_4 t outcome => exact inv.resume taken
  case h_5 k =>
    split at taken
    · rename_i behind
      cases taken
      refine ⟨inv.held, inv.connected, inv.owned, inv.taken, fun reader mem => ?_⟩
      have bound : k ≤ reader.2 := of_decide_eq_true (List.all_eq_true.mp behind reader mem)
      have before := inv.read reader mem
      refine ⟨?_, before.2⟩
      exact max_le before.1 ((min_le_left ..).trans bound)
    · cases taken
  case h_6 t =>
    split at taken
    · rename_i asking
      cases taken
      apply inv.setWriter (free (fun n same => by cases same) asking.2)
      intro n mine
      rw [← Connection.backup.inj (Option.some.inj mine)]
      exact asking.1
    · cases taken
  case h_7 t =>
    split at taken
    · rename_i at_
      split at taken
      · rename_i own
        cases taken
        refine inv.unlocks own fun connected => ?_
        rw [(inv.held t connected).2.2] at at_
        cases at_
      · cases taken
    · rename_i connection _ at_
      split at taken
      · rename_i own
        cases taken
        exact inv.unlocks own (inv.taken t connection (by rw [at_]; rfl)).1
      · cases taken
    · rename_i connection _ _ at_
      split at taken
      · rename_i own
        cases taken
        exact inv.unlocks own (inv.taken t connection (by rw [at_]; rfl)).1
      · cases taken
    · cases taken
  case h_8 c =>
    cases taken
    refine ⟨inv.held, inv.connected, inv.owned, inv.taken, fun reader mem => ?_⟩
    rcases List.mem_cons.mp mem with rfl | older
    · exact ⟨s.file.bounded, le_rfl⟩
    · exact inv.read reader older
  case h_9 c =>
    cases taken
    exact ⟨inv.held, inv.connected, inv.owned, inv.taken, fun reader mem =>
      inv.read reader (List.mem_of_mem_filter mem)⟩
  case h_10 c =>
    split at taken
    · rename_i unlocked
      cases taken
      exact inv.setWriter (free (fun n same => by cases same) unlocked) fun n mine => by cases mine
    · cases taken
  case h_11 c write =>
    split at taken
    · rename_i own
      cases taken
      have released : Inv cfg { s with writer := none } :=
        inv.setWriter (free (fun n same => by cases same) own) fun n mine => by cases mine
      refine ⟨released.held, released.connected, released.owned, released.taken, fun reader mem => ?_⟩
      have before := inv.read reader mem
      refine ⟨before.1, before.2.trans ?_⟩
      show s.file.commits.length ≤ (s.file.commits ++ [write]).length
      rw [List.length_append]
      exact Nat.le_add_right ..
    · cases taken
  case h_12 c =>
    split at taken
    · rename_i own
      cases taken
      exact inv.setWriter (free (fun n same => by cases same) own) fun n mine => by cases mine
    · cases taken

theorem run_inv (ran : run cfg file events = some s) : Inv cfg s :=
  EventMachine.run_keeps (fun _ _ _ inv taken => Inv.step inv taken) (Inv.init cfg file) ran

/-- **A backup has the lock, and no one else of its store.** In every state of
every run, however calls overlap, fail and are cancelled: while a backup of a
file is in progress its connection holds the write lock, and once all calls
have returned or raised the store holds the lock for no other reason. -/
theorem lock_held_for_backup (ran : run cfg file events = some s) (onDisk : cfg.memory = false) :
    (s.backupInProgress = true → ∃ n, s.backupConnection = some n ∧ s.writer = some (.backup n)) ∧
      ((∀ t, s.calls t = .idle ∨ ∃ raised, s.calls t = .done raised) → ∀ n, s.writer = some (.backup n) →
        s.backupInProgress = true ∧ s.backupConnection = some n) := by
  have inv := run_inv ran
  constructor
  · intro inProgress
    obtain ⟨n, connected⟩ := Option.isSome_iff_exists.mp (inv.connected inProgress onDisk)
    exact ⟨n, connected, (inv.held n connected).2.1⟩
  · intro ended n lock
    have quiet (t : ℕ) : (s.calls t).asks = false ∧ (s.calls t).ending = none := by
      rcases ended t with idle | ⟨raised, done⟩
      · rw [idle]
        exact ⟨rfl, rfl⟩
      · rw [done]
        exact ⟨rfl, rfl⟩
    rcases inv.owned n lock with connected | asks | ⟨t, ending⟩
    · exact ⟨(inv.held n connected).1, connected⟩
    · rw [(quiet n).1] at asks
      cases asks
    · rw [(quiet t).2] at ending
      cases ending

/-- Two calls of `begin_backup` at once, the second of which is cancelled. -/
def overlapping : List (Event ℕ ℕ) :=
  [.beginBackup 0, .beginBackup 1, .resume 0 .returned, .resume 1 .returned, .resume 0 .returned, .resume 1 .returned,
    .locks 0, .resume 1 .cancelled, .resume 0 .returned, .resume 1 .returned]

theorem overlapping_locked : ∃ s, run {} { base := fun _ => 0 } overlapping = some s ∧ s.calls 1 = .done true ∧
    ∃ n, s.backupConnection = some n ∧ s.writer = some (.backup n) := by
  obtain ⟨s, ran, failed, inProgress⟩ : ∃ s, run {} { base := fun _ => 0 } overlapping = some s ∧
      s.calls 1 = .done true ∧ s.backupInProgress = true := ⟨_, rfl, rfl, rfl⟩
  exact ⟨s, ran, failed, (lock_held_for_backup ran rfl).1 inProgress⟩

/-! ## What is copied -/

/-- What a step does to the file. -/
theorem file_of_step (taken : step cfg s event = some s') :
    s'.file = s.file ∨ (∃ k, s'.file = s.file.checkpoint k) ∨
      ∃ c write, s.writer = some (.other c) ∧ s'.file = s.file.commit write := by
  unfold BackupLock.step at taken
  split at taken
  case h_1 t =>
    split at taken <;> cases taken
    unfold State.beginBackup
    split
    · exact .inl rfl
    · split <;> exact .inl rfl
  case h_2 t =>
    split at taken <;> cases taken
    split
    · unfold State.endBackup
      dsimp only
      split <;> exact .inl rfl
    · exact .inl rfl
  case h_3 t =>
    split at taken <;> cases taken
    split
    · unfold State.endBackup
      dsimp only
      split <;> exact .inl rfl
    · exact .inl rfl
  case h_4 t outcome =>
    left
    unfold State.resume at taken
    split at taken
    case h_1 | h_2 => cases taken
    case h_7 | h_9 | h_10 =>
      split at taken <;> cases taken
      rfl
    case h_12 =>
      split at taken
      · cases taken
      · split at taken
        · cases taken
          rfl
        · split at taken <;> cases taken <;> rfl
    all_goals
      cases taken
      rfl
  case h_5 k =>
    split at taken <;> cases taken
    exact .inr (.inl ⟨k, rfl⟩)
  case h_7 t =>
    split at taken
    case h_4 => cases taken
    all_goals
      split at taken <;> cases taken
      exact .inl rfl
  case h_8 | h_9 =>
    cases taken
    exact .inl rfl
  case h_11 c write =>
    split at taken
    · rename_i own
      cases taken
      exact .inr (.inr ⟨c, write, own, rfl⟩)
    · cases taken
  all_goals
    split at taken <;> cases taken
    exact .inl rfl

/-- The database of two states is the same, and a main file that has it all
still does. -/
structure Frozen (s s' : State Page Data) : Prop where
  base : s'.file.base = s.file.base
  commits : s'.file.commits = s.file.commits
  complete : s.file.Complete → s'.file.Complete

theorem Frozen.whole (frozen : Frozen s s') : s'.file.whole = s.file.whole := by
  rw [File.whole, File.whole, File.snapshot, File.snapshot, frozen.base, frozen.commits]

/-- Under the lock of a backup no one commits. -/
theorem Inv.frozen (inv : Inv cfg s) (onDisk : cfg.memory = false) (inProgress : s.backupInProgress = true)
    (taken : BackupLock.step cfg s event = some s') : Frozen s s' := by
  rcases file_of_step taken with same | ⟨k, same⟩ | ⟨c, write, own, _⟩
  · exact ⟨by rw [same], by rw [same], fun complete => by rwa [same]⟩
  · refine ⟨by rw [same]; rfl, by rw [same]; rfl, fun complete => ?_⟩
    rw [same]
    exact complete.checkpoint k
  · obtain ⟨n, connected⟩ := Option.isSome_iff_exists.mp (inv.connected inProgress onDisk)
    rw [(inv.held n connected).2.1] at own
    cases own

theorem run_frozen (inv : Inv cfg s) (onDisk : cfg.memory = false)
    (held : EventMachine.Along (step cfg) (fun s _ => s.backupInProgress = true) s events)
    (ran : EventMachine.run (step cfg) s events = some s') : Frozen s s' := by
  have both : Inv cfg s' ∧ Frozen s s' := by
    refine EventMachine.run_invariant (I := fun now => Inv cfg now ∧ Frozen s now) ?_
      ⟨inv, rfl, rfl, id⟩ held ran
    rintro now event next ⟨inv, frozen⟩ inProgress taken
    have step := inv.frozen onDisk inProgress taken
    exact ⟨inv.step taken, step.base.trans frozen.base, step.commits.trans frozen.commits,
      fun complete => step.complete (frozen.complete complete)⟩
  exact both.2

/-- Since a checkpoint that has moved everything, nothing is missing in the
main file until the next commit. -/
theorem complete_of_unwritten (complete : s.file.Complete) (ran : EventMachine.run (step cfg) s events = some s')
    (unwritten : s'.file.commits.length = s.file.commits.length) :
    s'.file.Complete ∧ s'.file.whole = s.file.whole := by
  have grown : s.file.commits.length ≤ s'.file.commits.length ∧
      (s'.file.commits.length = s.file.commits.length → s'.file.Complete ∧ s'.file.whole = s.file.whole) := by
    refine EventMachine.run_keeps (I := fun now => s.file.commits.length ≤ now.file.commits.length ∧
      (now.file.commits.length = s.file.commits.length → now.file.Complete ∧ now.file.whole = s.file.whole)) ?_
      ⟨le_rfl, fun _ => ⟨complete, rfl⟩⟩ ran
    rintro now event next ⟨most, same⟩ taken
    rcases file_of_step taken with file | ⟨k, file⟩ | ⟨c, write, _, file⟩
    · rw [file]
      exact ⟨most, same⟩
    · rw [file]
      refine ⟨most, fun unwritten => ?_⟩
      obtain ⟨complete, whole⟩ := same unwritten
      exact ⟨complete.checkpoint k, whole⟩
    · rw [file]
      have longer : (now.file.commit write).commits.length = now.file.commits.length + 1 := List.length_append
      exact ⟨by omega, fun unwritten => by omega⟩
  exact grown.2 unwritten

/-- **A copy is a snapshot.** As long as a backup is in progress the database
stays what it was. The main file alone is that database, at every moment in
which a page of it is copied, if the checkpoint had moved everything and no
one has committed from there to the `BEGIN IMMEDIATE`: the lock itself does not
see to it. -/
theorem copy_is_snapshot {start : State Page Data} {between during : List (Event Page Data)}
    (ran : run cfg file events = some start) (onDisk : cfg.memory = false)
    (locked : EventMachine.run (step cfg) start between = some s)
    (held : EventMachine.Along (step cfg) (fun s _ => s.backupInProgress = true) s during)
    (copied : EventMachine.run (step cfg) s during = some s') :
    s'.file.whole = s.file.whole ∧
      (start.file.Complete → s.file.commits.length = start.file.commits.length →
        s'.file.main = start.file.whole) := by
  have inv : Inv cfg s := EventMachine.run_keeps (fun _ _ _ inv taken => Inv.step inv taken) (run_inv ran) locked
  have frozen := run_frozen inv onDisk held copied
  refine ⟨frozen.whole, fun complete unwritten => ?_⟩
  obtain ⟨complete, whole⟩ := complete_of_unwritten complete locked unwritten
  rw [(frozen.complete complete).main, frozen.whole, whole]

/-- A file with a page in its log. -/
def sampleFile : File ℕ ℕ := File.commit { base := fun _ => 0 } fun page => if page = 3 then some 9 else none

/-- `begin_backup()` up to its checkpoint. -/
def checkpointed : List (Event ℕ ℕ) := [.beginBackup 0, .resume 0 .returned, .checkpoint 1]

/-- The rest of it. -/
def locked : List (Event ℕ ℕ) := [.resume 0 .returned, .locks 0, .resume 0 .returned]

theorem checkpointed_copy : ∃ start s s', run {} sampleFile checkpointed = some start ∧
    EventMachine.run (step {}) start locked = some s ∧
      EventMachine.run (step {}) s [.read 1, .beginBackup 2] = some s' ∧
      s'.file.main = start.file.whole ∧ s'.calls 2 = .done true := by
  obtain ⟨start, s, s', ran, between, held, during, complete, unwritten, refused⟩ : ∃ start s s',
      run {} sampleFile checkpointed = some start ∧ EventMachine.run (step {}) start locked = some s ∧
      EventMachine.Along (step {}) (fun s _ => s.backupInProgress = true) s [.read 1, .beginBackup 2] ∧
      EventMachine.run (step {}) s [.read 1, .beginBackup 2] = some s' ∧ start.file.Complete ∧
      s.file.commits.length = start.file.commits.length ∧ s'.calls 2 = .done true := by
    refine ⟨_, _, _, rfl, rfl, ⟨rfl, fun next taken => ?_⟩, rfl, rfl, rfl, rfl⟩
    cases taken
    exact ⟨rfl, fun _ _ => trivial⟩
  have copied := copy_is_snapshot ran rfl between held during
  exact ⟨start, s, s', ran, between, during, copied.2 complete unwritten, refused⟩

/-- Between the checkpoint and the lock another process commits. -/
example : ∃ s, run {} sampleFile (checkpointed ++ [.lock 1, .commit 1 fun _ => some 5] ++ locked) = some s ∧
    s.backupInProgress = true ∧ s.file.main 0 = 0 ∧ s.file.whole 0 = 5 := ⟨_, rfl, rfl, rfl, rfl⟩

/-! ## After the end -/

/-- What a step does to the calls, and to the connection of the backup. -/
inductive Moved (s s' : State Page Data) : Event Page Data → Prop where
  | none {event : Event Page Data} (calls : s'.calls = s.calls)
      (connection : s'.backupConnection = s.backupConnection) : Moved s s' event
  | goes {event : Event Page Data} {t : ℕ} {pc : Pc} (running : ∀ raised, s.calls t ≠ .done raised)
      (calls : s'.calls = Function.update s.calls t pc) (ending : ∀ n, pc.ending = some n → (s.calls t).ending = some n)
      (connection : s'.backupConnection = s.backupConnection) : Moved s s' event
  | begins {t : ℕ} (locking : s.calls t = .locking) (calls : s'.calls = Function.update s.calls t (.done false))
      (connection : s'.backupConnection = some t) : Moved s s' (.resume t .returned)
  | ends {event : Event Page Data} {t : ℕ} {pc : Pc} (idle : s.calls t = .idle)
      (calls : s'.calls = Function.update s.calls t pc) (ending : ∀ n, pc.ending = some n → s.backupConnection = some n)
      (connection : s'.backupConnection = none) : Moved s s' event

theorem moved_of_start (idle : s.calls t = .idle) (plain : pc.ending = none) : Moved s (s.setCall t pc) event := by
  refine .goes (fun raised done => ?_) rfl (fun n ending => ?_) rfl
  · rw [idle] at done
    cases done
  · rw [plain] at ending
    cases ending

theorem moved_of_closing (cfg : Config) (idle : s.calls t = .idle) : Moved s (s.closing cfg t) event := by
  unfold State.closing
  apply moved_of_start idle
  split <;> rfl

theorem moved_of_endBackup (cfg : Config) (idle : s.calls t = .idle) (closing : Bool) :
    Moved s (s.endBackup cfg t closing) event := by
  unfold State.endBackup
  dsimp only
  split
  · rename_i connection connected
    refine .ends idle rfl (fun n ending => ?_) rfl
    exact connected.trans ending
  · have goes (pc : Pc) (plain : pc.ending = none) :
        Moved s ({ s with backupInProgress := false, backupConnection := none }.setCall t pc) event :=
      .ends idle rfl (fun n ending => by rw [plain] at ending; cases ending) rfl
    split
    · unfold State.closing
      apply goes
      split <;> rfl
    · exact goes _ rfl

theorem moved_of_resume {outcome : Outcome} (taken : s.resume cfg t outcome = some s') :
    Moved s s' (.resume t outcome) := by
  have goes {event : Event Page Data} {before after : Pc} (at_ : s.calls t = before)
      (running : ∀ raised, before ≠ .done raised) (ending : ∀ n, after.ending = some n → before.ending = some n) :
      Moved s (s.setCall t after) event :=
    .goes (fun raised done => running raised (at_.symm.trans done)) rfl (fun n own => at_ ▸ ending n own) rfl
  unfold State.resume at taken
  split at taken
  case h_1 | h_2 => cases taken
  case h_7 at_ =>
    split at taken <;> cases taken
    exact .begins at_ rfl rfl
  case h_9 at_ =>
    split at taken <;> cases taken
    exact goes at_ (fun _ same => by cases same) fun _ nothing => by cases nothing
  case h_10 at_ =>
    split at taken <;> cases taken
    exact goes at_ (fun _ same => by cases same) fun _ own => own
  case h_11 at_ _ =>
    cases taken
    exact goes at_ (fun _ same => by cases same) fun _ own => own
  case h_12 at_ =>
    have out {event : Event Page Data} {after : Pc} (plain : after.ending = none) : Moved s (s.setCall t after) event :=
      goes at_ (fun _ same => by cases same) fun n own => by rw [plain] at own; cases own
    split at taken
    · cases taken
    · split at taken
      · cases taken
        exact out rfl
      · split at taken <;> cases taken
        · unfold State.closing
          apply out
          split <;> rfl
        · exact out rfl
  case h_3 at_ | h_4 at_ _ | h_5 at_ | h_6 at_ _ | h_8 at_ _ | h_13 at_ | h_14 at_ _ | h_15 at_ =>
    cases taken
    exact goes at_ (fun _ same => by cases same) fun _ nothing => by cases nothing

theorem moved_of_step (taken : step cfg s event = some s') : Moved s s' event := by
  unfold BackupLock.step at taken
  split at taken
  case h_1 t =>
    split at taken
    · rename_i idle
      cases taken
      unfold State.beginBackup
      split
      · exact moved_of_start idle rfl
      · split
        · exact .goes (fun raised done => by rw [idle] at done; cases done) rfl (fun _ nothing => by cases nothing) rfl
        · exact moved_of_start idle rfl
    · cases taken
  case h_2 t =>
    split at taken
    · rename_i idle
      cases taken
      split
      · exact moved_of_endBackup cfg idle false
      · exact moved_of_start idle rfl
    · cases taken
  case h_3 t =>
    split at taken
    · rename_i idle
      cases taken
      split
      · exact moved_of_endBackup cfg idle true
      · exact moved_of_closing cfg idle
    · cases taken
  case h_4 t outcome => exact moved_of_resume taken
  case h_7 t =>
    split at taken
    case h_4 => cases taken
    all_goals
      split at taken <;> cases taken
      exact .none rfl rfl
  case h_8 | h_9 =>
    cases taken
    exact .none rfl rfl
  all_goals
    split at taken <;> cases taken
    exact .none rfl rfl

/-- Only a `begin_backup()` that returns makes its connection that of the
backup. -/
theorem Moved.connection_some (moved : Moved s s' event) (fresh : s.backupConnection ≠ some n)
    (connected : s'.backupConnection = some n) : event = .resume n .returned ∧ s.calls n = .locking := by
  cases moved with
  | none _ connection => exact absurd (connection ▸ connected) fresh
  | goes _ _ _ connection => exact absurd (connection ▸ connected) fresh
  | begins locking _ connection =>
    rw [connection] at connected
    cases connected
    exact ⟨rfl, locking⟩
  | ends _ _ _ connection =>
    rw [connection] at connected
    cases connected

/-- The connection of a backup that `t`, and no one else, is to let go of. -/
structure Released (t n : ℕ) (s : State Page Data) : Prop where
  done : s.calls n = .done false
  taken : s.backupConnection ≠ some n
  mine : ∀ u, (s.calls u).ending = some n → u = t

theorem Released.step (released : Released t n s) (moved : Moved s s' event) : Released t n s' := by
  have kept {u : ℕ} {pc : Pc} (running : ∀ raised, s.calls u ≠ .done raised) :
      Function.update s.calls u pc n = .done false := by
    have other : n ≠ u := by
      rintro rfl
      exact running false released.done
    exact (Function.update_of_ne other ..).trans released.done
  have owned {u : ℕ} {pc : Pc} (ending : pc.ending = some n → u = t) (v : ℕ)
      (own : (Function.update s.calls u pc v).ending = some n) : v = t := by
    by_cases same : v = u
    · rw [same, Function.update_self] at own
      exact same.trans (ending own)
    · rw [Function.update_of_ne same] at own
      exact released.mine v own
  cases moved with
  | none calls connection => exact ⟨calls ▸ released.done, connection ▸ released.taken, calls ▸ released.mine⟩
  | @goes _ u pc running calls ending connection =>
    refine ⟨calls ▸ kept running, connection ▸ released.taken, ?_⟩
    rw [calls]
    exact owned fun own => released.mine u (ending n own)
  | @begins u locking calls connection =>
    refine ⟨calls ▸ kept fun raised done => ?_, fun connected => ?_, ?_⟩
    · rw [locking] at done
      cases done
    · rw [connection] at connected
      cases connected
      rw [released.done] at locking
      cases locking
    · rw [calls]
      exact owned fun own => by cases own
  | @ends _ u pc idle calls ending connection =>
    refine ⟨calls ▸ kept fun raised done => ?_, fun connected => ?_, ?_⟩
    · rw [idle] at done
      cases done
    · rw [connection] at connected
      cases connected
    · rw [calls]
      exact owned fun own => absurd (ending n own) released.taken

/-- A `close()` takes the connection of the backup, if there is one. -/
theorem Inv.released (inv : Inv cfg s) (connected : s.backupConnection = some n)
    (closes : BackupLock.step cfg s (.close t) = some s') : s'.backupConnection = none ∧ Released t n s' := by
  obtain ⟨inProgress, _, done⟩ := inv.held n connected
  obtain ⟨idle, closed⟩ := Option.ite_none_right_eq_some.mp closes
  rw [if_pos inProgress, State.endBackup, connected] at closed
  obtain rfl := Option.some.inj closed
  have other : n ≠ t := by
    rintro rfl
    rw [idle] at done
    cases done
  refine ⟨rfl, (Function.update_of_ne other ..).trans done, ?_, fun u own => ?_⟩
  · intro nothing
    cases nothing
  replace own : (Function.update s.calls t (.committing n true) u).ending = some n := own
  by_contra different
  rw [Function.update_of_ne different] at own
  exact (inv.taken u n own).1 connected

/-- **What a `close()` leaves locked.** Once it has ended, in whatever way, the
connection of the backup that was in progress when it was called does not have
the lock. Where that of any `begin_backup()` has, this call is still on its way
or has returned since, or another call is on its way to end its transaction. -/
theorem locked_after_close (ran : run cfg file events = some s) (closes : step cfg s (.close t) = some s')
    {later : List (Event Page Data)} {last : State Page Data} (went : EventMachine.run (step cfg) s' later = some last)
    {raised : Bool} (ended : last.calls t = .done raised) :
    (∀ n, s.backupConnection = some n → last.writer ≠ some (.backup n)) ∧
      ∀ n, last.writer = some (.backup n) →
        (last.calls n).asks = true ∨ (∃ u, u ≠ t ∧ (last.calls u).ending = some n) ∨
        ∃ before rest middle, later = before ++ .resume n .returned :: rest ∧
          EventMachine.run (step cfg) s' before = some middle ∧ middle.calls n = .locking := by
  have inv := run_inv ran
  have inv' : Inv cfg last :=
    EventMachine.run_keeps (fun _ _ _ inv taken => Inv.step inv taken) (inv.step closes) went
  have other {n u : ℕ} (ending : (last.calls u).ending = some n) : u ≠ t := by
    rintro rfl
    rw [ended] at ending
    cases ending
  constructor
  · intro n connected lock
    have released : Released t n last := EventMachine.run_keeps
      (fun _ _ _ released taken => Released.step released (moved_of_step taken)) (inv.released connected closes).2 went
    rcases inv'.owned n lock with mine | asks | ⟨u, ending⟩
    · exact released.taken mine
    · rw [released.done] at asks
      cases asks
    · exact other ending (released.mine u ending)
  · intro n lock
    rcases inv'.owned n lock with mine | asks | ⟨u, ending⟩
    · have fresh : s'.backupConnection ≠ some n := by
        intro connected
        cases before : s.backupConnection with
        | some m =>
          rw [(inv.released before closes).1] at connected
          cases connected
        | none =>
          have unconnected : s.backupConnection ≠ some n := fun taken => by cases before.symm.trans taken
          cases ((moved_of_step closes).connection_some unconnected connected).1
      obtain ⟨before, event, rest, middle, next, split, reached, taken, apart, now⟩ :=
        EventMachine.run_crossing (P := fun now : State Page Data => now.backupConnection = some n) went fresh mine
      obtain ⟨rfl, locking⟩ := (moved_of_step taken).connection_some apart now
      exact .inr (.inr ⟨before, rest, middle, split, reached, locking⟩)
    · exact .inl asks
    · exact .inr (.inl ⟨u, other ending, ending⟩)

/-- A `close()` between the checkpoint and the lock of a `begin_backup()`. -/
def overtaken : List (Event ℕ ℕ) :=
  [.resume 1 .returned, .resume 0 .returned, .resume 1 .returned, .locks 0, .resume 0 .returned]

theorem overtaken_close : ∃ s s' last, run {} sampleFile [.beginBackup 0, .resume 0 .returned] = some s ∧
    step {} s (.close 1) = some s' ∧ EventMachine.run (step {}) s' overtaken = some last ∧
    last.calls 1 = .done false ∧ last.writer = some (.backup 0) ∧
    ∃ before rest middle, overtaken = before ++ .resume 0 .returned :: rest ∧
      EventMachine.run (step {}) s' before = some middle ∧ middle.calls 0 = .locking := by
  obtain ⟨s, s', last, ran, closes, went, ended, lock, returned, quiet⟩ : ∃ s s' last,
      run {} sampleFile [.beginBackup 0, .resume 0 .returned] = some s ∧ step {} s (.close 1) = some s' ∧
      EventMachine.run (step {}) s' overtaken = some last ∧ last.calls 1 = .done false ∧
      last.writer = some (.backup 0) ∧ (last.calls 0).asks = false ∧ ∀ u, (last.calls u).ending = none := by
    refine ⟨_, _, _, rfl, rfl, rfl, rfl, rfl, rfl, fun u => ?_⟩
    rcases u with _ | _ | u
    all_goals rfl
  refine ⟨s, s', last, ran, closes, went, ended, lock, ?_⟩
  rcases (locked_after_close ran closes went ended).2 0 lock with asks | ⟨u, other, ending⟩ | since
  · rw [returned] at asks
    cases asks
  · rw [quiet] at ending
    cases ending
  · exact since

end KnxTelegramStore.Sqlite.BackupLock
