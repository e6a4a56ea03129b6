import KnxTelegramStore.Sqlite.Conversion

/-!
The VACUUM that `SqliteStore.initialize` (`backends/sqlite.py`) owes a file
whose rows it has rewritten as integers. Whether one is due is known to a
start by what the conversion returns, which is in memory, and to later starts
by `vacuum_pending`, which is written after the conversion's own flag. The
obligation is met as long as no start is cut off in between
(`vacuum_not_forgotten`).
-/
namespace KnxTelegramStore.Sqlite
open EventMachine

inductive Stage where
  /-- no start is under way, or the last one has raised -/
  | down
  | converting
  /-- VACUUM has run, and `vacuum_pending` is to be reset -/
  | vacuumed
  | completed
  deriving DecidableEq

/-- The writer's starts. `owed` is no data of the program: a row has been
rewritten since the last VACUUM. -/
structure Writer where
  base : System
  stage : Stage
  /-- what `_convert_timestamps_to_integers` returns -/
  converted : Bool
  vacuumPending : Bool
  owed : Bool

inductive StartEvent where
  /-- `room` for the conversion -/
  | start (room : Bool)
  | commit
  /-- step 2.5, with `room` for a VACUUM -/
  | compact (room : Bool)
  /-- `vacuum_pending` is reset -/
  | settle

/-- The commit rewrites a row. -/
def rewrites (disk : Disk) : Commit → Bool
  | .convertRows table low high =>
    (disk.rows table).any fun row => row.timestamp.isText ∧ low < row.rowid ∧ row.rowid ≤ high
  | _ => false

def Writer.step (batchRows : ℕ+) (w : Writer) : StartEvent → Option Writer
  | .start room => do
    let base ← w.base.step batchRows (.start room)
    let converted := !w.base.disk.timestampsInteger && hasText w.base.disk
    return { w with base, converted, stage := if converted && !room then .down else .converting }
  | .commit =>
    match w.stage, w.base.todo with
    | .converting, next :: _ => do
      let base ← w.base.step batchRows .commit
      return { w with base, owed := w.owed || rewrites w.base.disk next }
    | _, _ => none
  | .compact room =>
    match w.stage, w.base.todo with
    | .converting, [] =>
      if w.converted || w.vacuumPending then
        -- `_vacuum_when_room`
        if room then some { w with stage := .vacuumed, owed := false }
        else some { w with stage := .completed, vacuumPending := true }
      else some { w with stage := .completed }
    | _, _ => none
  | .settle =>
    if w.stage = .vacuumed then some { w with stage := .completed, vacuumPending := false } else none

/-- A file that no start has been made on. -/
def Writer.of (disk : Disk) : Writer := ⟨.of disk, .down, false, false, false⟩

/-- A start does not cut the one before it off between the batch that rewrites
the last text row and the VACUUM or the flag that stands in for it, nor
between the VACUUM and the reset of a flag that was set. -/
def Harmless (w : Writer) : StartEvent → Prop
  | .start _ =>
    match w.stage with
    | .converting => w.owed = true → w.vacuumPending = true ∨ hasText w.base.disk = true
    | .vacuumed => w.vacuumPending = false
    | .down | .completed => True
  | .commit | .compact _ | .settle => True

variable {batchRows : ℕ+} {origin : Disk} {w w' : Writer} {next : Commit}

/-! ## What is owed is known -/

/-- Rows that are text are rewritten by a commit, or still text after it. -/
theorem text_of_rewrites (text : hasText w.base.disk = true) (next : Commit) :
    rewrites w.base.disk next = true ∨ hasText (w.base.disk.commit next) = true := by
  obtain ⟨table, row, mem, isText⟩ := hasText_iff.mp text
  rcases rows_commit w.base.disk next table with same | ⟨low, high, rfl, converted⟩
  · exact .inr (hasText_iff.mpr ⟨table, row, same ▸ mem, isText⟩)
  · by_cases inside : low < row.rowid ∧ row.rowid ≤ high
    · exact .inl (List.any_eq_true.mpr ⟨row, mem, decide_eq_true ⟨isText, inside⟩⟩)
    · refine .inr (hasText_iff.mpr ⟨table, row, ?_, isText⟩)
      rw [converted]
      exact List.mem_map.mpr ⟨row, mem, if_neg fun both => inside both.2⟩

theorem hasText_of_rewrites (rewritten : rewrites w.base.disk next = true) : hasText w.base.disk = true := by
  cases next with
  | dropIndex | setFlag => cases rewritten
  | convertRows table low high =>
    obtain ⟨row, mem, inside⟩ := List.any_eq_true.mp rewritten
    exact hasText_iff.mpr ⟨table, row, mem, (of_decide_eq_true inside).1⟩

/-- Whatever is owed, the start under way or the next one knows of; and a flag
that is set stands for something owed. -/
structure Known (origin : Disk) (w : Writer) : Prop where
  sound : w.base.Sound origin
  /-- a start that goes on to step 2.5 has set the flag by then -/
  flagging : w.stage = .converting → w.base.Flagging
  flagged : w.stage = .vacuumed ∨ w.stage = .completed → w.base.disk.timestampsInteger = true
  owed : w.owed = true → w.vacuumPending = true ∨
    if w.stage = .converting then w.converted = true else hasText w.base.disk = true
  pending : w.vacuumPending = true → w.owed = true ∨ w.stage = .vacuumed
  vacuumed : w.stage = .vacuumed → w.owed = false
  converted : w.stage = .converting → w.converted = true → w.owed = true ∨ hasText w.base.disk = true
  unconverted : w.stage = .converting → w.converted = false → hasText w.base.disk = false

theorem known_of (convertible : Convertible origin) : Known origin (.of origin) where
  sound := sound_of convertible
  flagging := nofun
  flagged := by rintro (_ | _) <;> contradiction
  owed := nofun
  pending := nofun
  vacuumed := nofun
  converted := nofun
  unconverted := nofun

/-- The flag rules out texts. -/
theorem System.Sound.hasText {s : System} (sound : s.Sound origin) (flagged : s.disk.timestampsInteger = true) :
    Sqlite.hasText s.disk = false := by
  refine Bool.eq_false_iff.mpr fun text => ?_
  obtain ⟨table, row, mem, isText⟩ := hasText_iff.mp text
  rw [sound.flagged flagged table row mem] at isText
  cases isText

/-- What a start that cuts the last one off harmlessly finds. -/
theorem Known.cut (known : Known origin w) {room : Bool} (harmless : Harmless w (.start room)) :
    (w.owed = true → w.vacuumPending = true ∨ hasText w.base.disk = true) ∧
    (w.vacuumPending = true → w.owed = true) := by
  have owed := known.owed
  have pending := known.pending
  unfold Harmless at harmless
  cases stage : w.stage with
  | converting =>
    simp only [stage] at harmless pending
    exact ⟨harmless, fun set => (pending set).resolve_right nofun⟩
  | vacuumed =>
    simp only [stage] at harmless
    refine ⟨fun due => ?_, fun set => ?_⟩
    · rw [known.vacuumed stage] at due
      cases due
    · rw [harmless] at set
      cases set
  | down | completed =>
    simp only [stage, reduceCtorEq, if_false] at owed pending
    exact ⟨owed, fun set => (pending set).resolve_right nofun⟩

theorem Known.start (convertible : Convertible origin) (known : Known origin w) {room : Bool}
    (harmless : Harmless w (.start room)) (taken : w.step batchRows (.start room) = some w') : Known origin w' := by
  obtain ⟨owed, pending⟩ := known.cut harmless
  simp only [Writer.step] at taken
  obtain ⟨base, started, done⟩ := Option.bind_eq_some_iff.mp taken
  have sound := known.sound.step convertible started
  have same : base.disk = w.base.disk := by
    cases started
    rfl
  have text : (!w.base.disk.timestampsInteger && hasText w.base.disk) = hasText w.base.disk := by
    cases flag : w.base.disk.timestampsInteger with
    | true => rw [known.sound.hasText flag, Bool.and_false]
    | false => rfl
  rw [text] at done
  by_cases raised : (hasText w.base.disk && !room) = true
  · rw [if_pos raised] at done
    cases done
    refine ⟨sound, nofun, by rintro (_ | _) <;> contradiction, fun due => ?_,
      fun set => .inl (pending set), nofun, nofun,
      nofun⟩
    rw [if_neg nofun, same]
    exact owed due
  · rw [if_neg raised] at done
    cases done
    refine ⟨sound, fun _ => flagging_start ?_ started, by rintro (_ | _) <;> contradiction, fun due => ?_,
      fun set => .inl (pending set), nofun, fun _ converted => .inr (same ▸ converted),
        fun _ converted => same ▸ converted⟩
    · cases room with
      | true => exact .inl rfl
      | false => simpa using raised
    · rw [if_pos rfl]
      exact owed due

theorem Known.commit (convertible : Convertible origin) (known : Known origin w)
    (taken : w.step batchRows .commit = some w') : Known origin w' := by
  simp only [Writer.step] at taken
  split at taken
  · rename_i next todo stage pending_
    obtain ⟨base, committed, done⟩ := Option.bind_eq_some_iff.mp taken
    cases done
    have sound := known.sound.step convertible committed
    have disk : base.disk = w.base.disk.commit next := by
      simp only [System.step, pending_] at committed
      cases committed
      rfl
    have owed := known.owed
    rw [if_pos stage] at owed
    have textless : hasText w.base.disk = false → rewrites w.base.disk next = false ∧ hasText base.disk = false := by
      intro none
      refine ⟨Bool.eq_false_iff.mpr fun rewritten => ?_, Bool.eq_false_iff.mpr fun text => ?_⟩
      · exact Bool.eq_false_iff.mp none (hasText_of_rewrites rewritten)
      · obtain ⟨table, row, mem, isText⟩ := hasText_iff.mp text
        rw [disk] at mem
        exact Bool.eq_false_iff.mp none (hasText_iff.mpr ⟨table, row, text_of_commit mem isText, isText⟩)
    refine ⟨sound, fun _ => (known.flagging stage).commit committed, ?_, fun due => ?_, fun set => ?_,
      ?_, fun _ converted => ?_,
      fun _ unconverted => (textless (known.unconverted stage unconverted)).2⟩
    · rintro (other | other) <;> (rw [stage] at other; cases other)
    · rw [if_pos stage]
      rcases Bool.or_eq_true_iff.mp due with before | now
      · exact owed before
      · refine .inr (Bool.eq_true_of_not_eq_false fun unconverted => ?_)
        rw [(textless (known.unconverted stage unconverted)).1] at now
        cases now
    · have due := (known.pending set).resolve_right fun other => by
        rw [stage] at other
        cases other
      exact .inl (Bool.or_eq_true_iff.mpr (.inl due))
    · intro other
      rw [stage] at other
      cases other
    · rw [Bool.or_eq_true_iff]
      rcases known.converted stage converted with due | text
      · exact .inl (.inl due)
      · rw [disk]
        exact (text_of_rewrites text next).imp_left .inr
  · cases taken

theorem Known.compact (known : Known origin w) {room : Bool} (taken : w.step batchRows (.compact room) = some w') :
    Known origin w' ∧ (w'.stage = .vacuumed → w.owed = true) ∧ (room = true → w'.owed = false) := by
  simp only [Writer.step] at taken
  split at taken
  · rename_i stage ended
    have flag := (known.flagging stage).ended ended
    have textless := known.sound.hasText flag
    have owed := known.owed
    rw [if_pos stage] at owed
    have due : w.converted = true ∨ w.vacuumPending = true → w.owed = true := by
      rintro (converted | set)
      · refine (known.converted stage converted).resolve_right fun text => ?_
        rw [textless] at text
        cases text
      · exact (known.pending set).resolve_right fun other => absurd (stage.symm.trans other) nofun
    split at taken
    · rename_i needed
      have due := due (Bool.or_eq_true_iff.mp needed)
      split at taken
      · cases taken
        exact ⟨⟨known.sound, nofun, fun _ => flag, nofun, fun _ => .inr rfl, fun _ => rfl, nofun, nofun⟩, fun _ => due,
          fun _ => rfl⟩
      · rename_i full
        cases taken
        exact ⟨⟨known.sound, nofun, fun _ => flag, fun _ => .inl rfl, fun _ => .inl due, nofun, nofun, nofun⟩, nofun,
          fun room => absurd room full⟩
    · rename_i unneeded
      have paid : w.owed = false := by
        refine Bool.eq_false_iff.mpr fun due => unneeded (Bool.or_eq_true_iff.mpr ?_)
        exact (owed due).symm
      cases taken
      refine ⟨⟨known.sound, nofun, fun _ => flag, fun due => ?_, fun set => ?_, nofun, nofun, nofun⟩,
        nofun, fun _ => paid⟩
      · rw [paid] at due
        cases due
      · exact absurd (Bool.or_eq_true_iff.mpr (.inr set)) unneeded
  · cases taken

theorem Known.settle (known : Known origin w) (taken : w.step batchRows .settle = some w') : Known origin w' := by
  simp only [Writer.step] at taken
  split at taken
  · rename_i stage
    cases taken
    have flag := known.flagged (.inl stage)
    have paid := known.vacuumed stage
    refine ⟨known.sound, nofun, fun _ => flag, fun due => ?_, nofun, fun _ => paid, nofun, nofun⟩
    rw [paid] at due
    cases due
  · cases taken

theorem Known.step (convertible : Convertible origin) (known : Known origin w) {event : StartEvent}
    (harmless : Harmless w event) (taken : w.step batchRows event = some w') : Known origin w' := by
  cases event with
  | start room => exact known.start convertible harmless taken
  | commit => exact known.commit convertible taken
  | compact room => exact (known.compact taken).1
  | settle => exact known.settle taken

/-- Through every run whose cuts are harmless. -/
theorem run_known (convertible : Convertible origin) {events : List StartEvent}
    (harmless : Along (Writer.step batchRows) Harmless (.of origin) events)
    (ran : run (Writer.step batchRows) (.of origin) events = some w) : Known origin w :=
  run_invariant (fun _ _ _ known harmless taken => known.step convertible harmless taken)
    (known_of convertible) harmless ran

/-! ## The obligation is met -/

/-- Wherever the starts of a run have come to: a completed one has left nothing
owed, or `vacuum_pending`; and a start that is through with the conversion
compacts the file when there is room and something is owed, and only then. -/
def Compacts (batchRows : ℕ+) (w : Writer) : Prop :=
  (w.stage = .completed → w.owed = true → w.vacuumPending = true) ∧
    (w.stage = .vacuumed → w.owed = false) ∧
    ∀ room w', w.step batchRows (.compact room) = some w' →
      (w'.stage = .vacuumed → w.owed = true) ∧ (room = true → w'.owed = false)

/-- **The VACUUM that a conversion owes is not forgotten, nor run twice**, in
every run that does not cut a start off where only its memory knows of it. -/
theorem vacuum_not_forgotten (convertible : Convertible origin) {events : List StartEvent}
    (harmless : Along (Writer.step batchRows) Harmless (.of origin) events)
    (ran : run (Writer.step batchRows) (.of origin) events = some w) : Compacts batchRows w := by
  have known := run_known convertible harmless ran
  refine ⟨fun completed due => ?_, known.vacuumed, fun room w' taken => (known.compact taken).2⟩
  have owed := known.owed due
  rw [if_neg (completed ▸ nofun)] at owed
  refine owed.resolve_right fun text => ?_
  rw [known.sound.hasText (known.flagged (.inr completed))] at text
  cases text

/-- There is no room for a VACUUM at first, and at the next start there is. -/
def waitsForRoom : List StartEvent :=
  [.start true, .commit, .commit, .commit, .compact false, .start true, .compact true]

theorem vacuum_waits_for_room :
    ∃ w, run (Writer.step conversionBatchRows) (.of halfSecondDisk) waitsForRoom = some w ∧ w.stage = .vacuumed ∧
      Compacts conversionBatchRows w := by
  obtain ⟨w, ran⟩ : ∃ w, run (Writer.step conversionBatchRows) (.of halfSecondDisk) waitsForRoom = some w := ⟨_, rfl⟩
  have harmless : Along (Writer.step conversionBatchRows) Harmless (.of halfSecondDisk) waitsForRoom := by
    refine ⟨trivial, fun _ taken => ?_⟩
    cases taken
    refine ⟨trivial, fun _ taken => ?_⟩
    cases taken
    refine ⟨trivial, fun _ taken => ?_⟩
    cases taken
    refine ⟨trivial, fun _ taken => ?_⟩
    cases taken
    refine ⟨trivial, fun _ taken => ?_⟩
    cases taken
    refine ⟨trivial, fun _ taken => ?_⟩
    cases taken
    exact ⟨trivial, fun _ _ => trivial⟩
  have stage : w.stage = .vacuumed := by
    cases ran
    rfl
  exact ⟨w, ran, stage, vacuum_not_forgotten half_second_convertible harmless ran⟩

/-- A start is cut off behind the flag of its conversion, and the next ones have
all the room there is; or behind a VACUUM that had been pending. -/
theorem vacuum_forgotten :
    (∃ w, run (Writer.step conversionBatchRows) (.of halfSecondDisk)
        [.start true, .commit, .commit, .commit, .start true, .compact true] = some w ∧
      w.stage = .completed ∧ w.owed = true ∧ w.vacuumPending = false) ∧
    ∃ w w', run (Writer.step conversionBatchRows) (.of halfSecondDisk) (waitsForRoom ++ [.start true]) = some w ∧
      w.step conversionBatchRows (.compact true) = some w' ∧ w'.stage = .vacuumed ∧ w.owed = false :=
  ⟨⟨_, rfl, rfl, rfl, rfl⟩, _, _, rfl, rfl, rfl, rfl⟩

end KnxTelegramStore.Sqlite
