import KnxTelegramStore.Postgres.Schema

/-!
Which tables `PostgresStore._upgrade_schema` (`backends/postgres.py`) upgrades.
Whether its statements fail is decided by the columns alone, so they are run
over the columns first, and over the rows only where none of them fails.
-/
namespace KnxTelegramStore.Postgres
open EventMachine
open Sql (Category IdSource StringLookup)

/-! ## Statements over the columns -/

/-- Each statement finds the columns that it names. -/
def Executable : Types → List Statement → Prop
  | _, [] => True
  | types, statement :: rest => statement.Sound types ∧ Executable (statement.retype types) rest

/-- The columns that statements leave. -/
def retyped (types : Types) (statements : List Statement) : Types := statements.foldl Statement.retype types

/-- The session that statements leave, none of which fails. -/
def Session.applied (ids : IdSource) (s : Session) (statements : List Statement) : Session :=
  statements.foldl (Statement.apply ids) s

def Command.statement : Command → Statement
  | .issue statement | .attempt statement => statement

variable {ids : IdSource} {s after next : Session} {types : Types} {statement : Statement} {command : Command}
variable {statements before rest : List Statement} {commands : List Command} {column : Column} {type : ColumnType}
variable {category : Category} {lookup : StringLookup} {row : Row} {loop : Renaming} {entry : Column × Column}

theorem retyped_append : retyped types (before ++ rest) = retyped (retyped types before) rest := List.foldl_append

theorem retyped_cons : retyped types (statement :: rest) = retyped (statement.retype types) rest := rfl

theorem executable_append :
    Executable types (before ++ rest) ↔ Executable types before ∧ Executable (retyped types before) rest := by
  induction before generalizing types with
  | nil => simp [Executable, retyped]
  | cons statement before ih => simp only [List.cons_append, Executable, ih, and_assoc, retyped_cons]

theorem applied_append :
    s.applied ids (before ++ rest) = (s.applied ids before).applied ids rest := List.foldl_append

theorem types_applied (ids : IdSource) (s : Session) (statements : List Statement) :
    (s.applied ids statements).table.types = retyped s.table.types statements := by
  induction statements generalizing s with
  | nil => rfl
  | cons statement statements ih => exact ih (statement.apply ids s)

theorem aborted_applied (ids : IdSource) (s : Session) (statements : List Statement) :
    (s.applied ids statements).aborted = s.aborted := by
  induction statements generalizing s with
  | nil => rfl
  | cons statement statements ih => exact ih (statement.apply ids s)

theorem step_sound (alive : s.aborted = false) (sound : command.statement.Sound s.table.types) :
    step ids s command = some (command.statement.apply ids s) := by
  cases command with
  | issue statement => exact if_pos ⟨alive, sound⟩
  | attempt statement =>
    have executed : execute ids s statement = some (statement.apply ids s) := if_pos ⟨alive, sound⟩
    rw [step, executed]
    rfl

/-- A step that does not leave the transaction aborted has not failed. -/
theorem sound_of_step (taken : step ids s command = some next) (alive : next.aborted = false) :
    s.aborted = false ∧ command.statement.Sound s.table.types ∧ next = command.statement.apply ids s := by
  by_cases sound : s.aborted = false ∧ command.statement.Sound s.table.types
  · rw [step_sound sound.1 sound.2] at taken
    exact ⟨sound.1, sound.2, (Option.some.inj taken).symm⟩
  · cases command with
    | issue statement => exact absurd (Option.ite_none_right_eq_some.mp taken).1 sound
    | attempt statement =>
      have failed : execute ids s statement = none := if_neg sound
      rw [step, failed] at taken
      cases taken
      cases alive

theorem run_executable (alive : s.aborted = false)
    (executable : Executable s.table.types (commands.map Command.statement)) :
    run (step ids) s commands = some (s.applied ids (commands.map Command.statement)) := by
  induction commands generalizing s with
  | nil => rfl
  | cons command commands ih =>
    obtain ⟨sound, executable⟩ := executable
    exact run_cons.mpr ⟨_, step_sound alive sound, ih alive executable⟩

theorem executable_of_run (ran : run (step ids) s commands = some after) (alive : after.aborted = false) :
    s.aborted = false ∧ Executable s.table.types (commands.map Command.statement) := by
  induction commands generalizing s with
  | nil =>
    cases ran
    exact ⟨alive, trivial⟩
  | cons command commands ih =>
    obtain ⟨next, taken, ran⟩ := run_cons.mp ran
    obtain ⟨alive, executable⟩ := ih ran
    obtain ⟨first, sound, rfl⟩ := sound_of_step taken alive
    exact ⟨first, sound, executable⟩

namespace Statement

def Brings (column : Column) : Statement → Prop
  | renameColumn _ new => new = column
  | addColumn added _ => added = column
  | encodeRawData => .rawData = column
  | _ => False

def Removes (column : Column) : Statement → Prop
  | renameColumn old _ => old = column
  | dropColumn dropped => dropped = column
  | _ => False

theorem isSome_of_retype (brings : ¬ statement.Brings column) (held : (statement.retype types column).isSome) :
    (types column).isSome := by
  cases statement with
  | renameColumn old new =>
    have other : column ≠ new := fun same => brings same.symm
    by_cases removed : column = old <;> simp_all [retype]
  | encodeRawData =>
    have other : column ≠ .rawData := fun same => brings same.symm
    simpa [retype, other] using held
  | addColumn added type =>
    have other : column ≠ added := fun same => brings same.symm
    simpa [retype, other] using held
  | dropColumn dropped => by_cases removed : column = dropped <;> simp_all [retype]
  | insertLookup category | updateId category => exact held

theorem isSome_of_brings (sound : statement.Sound types) (brings : statement.Brings column) :
    (statement.retype types column).isSome := by
  cases statement with
  | renameColumn old new =>
    cases brings
    simpa [retype] using sound.1
  | addColumn _ _ | encodeRawData =>
    cases brings
    simp [retype]
  | _ => exact brings.elim

theorem isSome_retype (sound : statement.Sound types) (removes : ¬ statement.Removes column)
    (held : (types column).isSome) : (statement.retype types column).isSome := by
  cases statement with
  | renameColumn old new =>
    have other : column ≠ old := fun same => removes same.symm
    by_cases brought : column = new
    · exact isSome_of_brings sound brought.symm
    · simpa [retype, other, brought] using held
  | encodeRawData => by_cases raw : column = .rawData <;> simp_all [retype]
  | addColumn added type => by_cases brought : column = added <;> simp_all [retype]
  | dropColumn dropped =>
    have other : column ≠ dropped := fun same => removes same.symm
    simpa [retype, other] using held
  | insertLookup category | updateId category => exact held

theorem retype_of_removes (removes : statement.Removes column) (brings : ¬ statement.Brings column) :
    statement.retype types column = none := by
  cases statement with
  | renameColumn old new =>
    have other : column ≠ new := fun same => brings same.symm
    cases removes
    simp [retype, other]
  | dropColumn dropped =>
    cases removes
    simp [retype]
  | _ => exact removes.elim

end Statement

/-- What nothing brings was there before. -/
theorem isSome_of_retyped (never : ∀ statement ∈ statements, ¬ statement.Brings column)
    (held : (retyped types statements column).isSome) : (types column).isSome := by
  induction statements generalizing types with
  | nil => exact held
  | cons statement statements ih =>
    obtain ⟨first, never⟩ := List.forall_mem_cons.mp never
    exact Statement.isSome_of_retype first (ih never held)

/-- What nothing removes stays. -/
theorem isSome_retyped (executable : Executable types statements)
    (never : ∀ statement ∈ statements, ¬ statement.Removes column) (held : (types column).isSome) :
    (retyped types statements column).isSome := by
  induction statements generalizing types with
  | nil => exact held
  | cons statement statements ih =>
    obtain ⟨first, never⟩ := List.forall_mem_cons.mp never
    exact ih executable.2 never (Statement.isSome_retype executable.1 first held)

theorem isSome_of_brought (executable : Executable types statements) (mem : statement ∈ statements)
    (brings : statement.Brings column) (never : ∀ statement ∈ statements, ¬ statement.Removes column) :
    (retyped types statements column).isSome := by
  obtain ⟨before, rest, rfl⟩ := List.append_of_mem mem
  obtain ⟨_, sound, executable⟩ := executable_append.mp executable
  rw [retyped_append, retyped_cons]
  have stays := fun other own => never other (List.mem_append_right before (List.mem_cons_of_mem statement own))
  exact isSome_retyped executable stays (Statement.isSome_of_brings sound brings)

theorem retyped_of_removed (types : Types) (mem : statement ∈ statements) (removes : statement.Removes column)
    (never : ∀ statement ∈ statements, ¬ statement.Brings column) : retyped types statements column = none := by
  obtain ⟨before, rest, rfl⟩ := List.append_of_mem mem
  rw [← Option.not_isSome_iff_eq_none, retyped_append]
  intro held
  have brought := isSome_of_retyped
    (fun other own => never other (List.mem_append_right _ (List.mem_cons_of_mem _ own))) held
  rw [Statement.retype_of_removes removes (never statement mem)] at brought
  cases brought

/-- A column that a statement asks for, and nothing brings, was there before. -/
theorem isSome_of_asked (executable : Executable types statements) (mem : statement ∈ statements)
    (asks : ∀ types, statement.Sound types → (types column).isSome)
    (never : ∀ statement ∈ statements, ¬ statement.Brings column) : (types column).isSome := by
  obtain ⟨before, rest, rfl⟩ := List.append_of_mem mem
  obtain ⟨_, sound, _⟩ := executable_append.mp executable
  exact isSome_of_retyped (fun other own => never other (List.mem_append_left _ own)) (asks _ sound)

/-- A column that is added, and that nothing removes, was not there before. -/
theorem eq_none_of_added (executable : Executable types statements) (mem : .addColumn column type ∈ statements)
    (never : ∀ statement ∈ statements, ¬ statement.Removes column) : types column = none := by
  obtain ⟨before, rest, rfl⟩ := List.append_of_mem mem
  obtain ⟨executable, sound, _⟩ := executable_append.mp executable
  rw [← Option.not_isSome_iff_eq_none]
  intro held
  have stays := isSome_retyped executable (fun other own => never other (List.mem_append_left _ own)) held
  rw [sound] at stays
  cases stays

/-! ## The loop over `renames` -/

/-- What the loop may issue: an entry, or the last of them the other way. -/
def renameEntries : List (Column × Column) := renames ++ [(.value, .valueLegacyFloat)]

/-- `existing_columns` is what the statements issued so far leave, and each of
them runs. -/
structure Renaming.Tracks (types : Types) (loop : Renaming) : Prop where
  executable : Executable types loop.issued
  existing : ∀ column, loop.existing column = (retyped types loop.issued column).isSome
  listed : ∀ statement ∈ loop.issued, ∃ entry ∈ renameEntries, statement = .renameColumn entry.1 entry.2
  once : loop.existing .valueLegacyFloat = true → loop.existing .value = false

theorem tracks_rename (tracks : loop.Tracks types) (listed : entry ∈ renameEntries)
    (held : loop.existing entry.1 = true) (free : loop.existing entry.2 = false) :
    (loop.rename entry.1 entry.2).Tracks types := by
  have old := tracks.existing entry.1
  have new := tracks.existing entry.2
  rw [held] at old
  rw [free] at new
  refine ⟨?_, ?_, ?_, ?_⟩
  · have unnamed : retyped types loop.issued entry.2 = none :=
      Option.not_isSome_iff_eq_none.mp (Bool.eq_false_iff.mp new.symm)
    exact executable_append.mpr ⟨tracks.executable, ⟨old.symm, unnamed⟩, trivial⟩
  · intro column
    have renamed : retyped types (loop.rename entry.1 entry.2).issued = Function.update
        (Function.update (retyped types loop.issued) entry.1 none) entry.2 (retyped types loop.issued entry.1) :=
      retyped_append
    rw [renamed]
    simp only [Renaming.rename, Function.update_apply]
    split_ifs
    · exact old
    · rfl
    · exact tracks.existing column
  · intro statement mem
    rcases List.mem_append.mp mem with before | last
    · exact tracks.listed statement before
    · exact ⟨entry, listed, List.mem_singleton.mp last⟩
  · intro legacyFloat
    simp only [renameEntries, renames, currentNames, List.mem_append, List.mem_cons, List.not_mem_nil,
      or_false] at listed
    have once := tracks.once
    rcases listed with (((rfl | rfl | rfl) | rfl | rfl) | rfl) <;>
      simp_all [Renaming.rename]

theorem tracks_visit (tracks : loop.Tracks types) (listed : entry ∈ renames) :
    (loop.visit types entry).Tracks types := by
  unfold Renaming.visit
  by_cases held : loop.existing entry.1 = true
  · rw [if_pos held]
    by_cases free : loop.existing entry.2 = false
    · rw [if_pos (by simp [free])]
      exact tracks_rename tracks (List.mem_append_left _ listed) held free
    · rw [if_neg (by simpa using free)]
      split_ifs with double
      · rw [double.1] at held
        have other : (.value, .valueLegacyFloat) ∈ renameEntries := by simp [renameEntries]
        refine tracks_rename tracks other held (Bool.eq_false_of_not_eq_true fun legacyFloat => ?_)
        rw [tracks.once legacyFloat] at held
        cases held
      · exact tracks
  · rwa [if_neg held]

theorem tracks_foldl {entries : List (Column × Column)} (tracks : loop.Tracks types)
    (listed : ∀ entry ∈ entries, entry ∈ renames) : (entries.foldl (Renaming.visit types) loop).Tracks types := by
  induction entries generalizing loop with
  | nil => exact tracks
  | cons entry entries ih =>
    obtain ⟨first, listed⟩ := List.forall_mem_cons.mp listed
    exact ih (tracks_visit tracks first) listed

/-- The loop before its first turn. -/
def Renaming.start (types : Types) : Renaming := ⟨fun column => (types column).isSome, []⟩

theorem tracks_start (pristine : types .valueLegacyFloat = none) : (Renaming.start types).Tracks types where
  executable := trivial
  existing _ := rfl
  listed := by simp [Renaming.start]
  once := by simp [Renaming.start, pristine]

theorem existing_visit (old : column ≠ entry.1) (new : column ≠ entry.2) (other : column ≠ .valueLegacyFloat) :
    (loop.visit types entry).existing column = loop.existing column := by
  unfold Renaming.visit
  split_ifs with held free double
  · simp [Renaming.rename, old, new]
  · have unnamed : column ≠ .value := double.1 ▸ old
    simp [Renaming.rename, unnamed, other]
  · rfl
  · rfl

theorem existing_foldl {entries : List (Column × Column)}
    (unnamed : ∀ entry ∈ entries, column ≠ entry.1 ∧ column ≠ entry.2) (other : column ≠ .valueLegacyFloat) :
    (entries.foldl (Renaming.visit types) loop).existing column = loop.existing column := by
  induction entries generalizing loop with
  | nil => rfl
  | cons entry entries ih =>
    obtain ⟨first, unnamed⟩ := List.forall_mem_cons.mp unnamed
    exact (ih unnamed).trans (existing_visit first.1 first.2 other)

/-- A string that has one of its two names has the current one behind its turn. -/
theorem visit_current (distinct : entry.1 ≠ entry.2) (named : loop.existing entry.1 = !loop.existing entry.2) :
    (loop.visit types entry).existing entry.1 = false ∧ (loop.visit types entry).existing entry.2 = true := by
  unfold Renaming.visit
  cases held : loop.existing entry.1 with
  | false =>
    rw [held] at named
    have current : loop.existing entry.2 = true := by simpa using named.symm
    exact ⟨by simpa using held, by simpa using current⟩
  | true =>
    rw [held] at named
    have free : loop.existing entry.2 = false := by simpa using named
    simp [free, Renaming.rename, distinct]

/-- Two entries without a column in common. -/
def Apart (first second : Column × Column) : Prop :=
  (first.1 ≠ second.1 ∧ first.1 ≠ second.2) ∧ first.2 ≠ second.1 ∧ first.2 ≠ second.2

instance : DecidableRel Apart := fun _ _ => inferInstanceAs (Decidable ((_ ∧ _) ∧ _ ∧ _))

theorem existing_foldl_current {entries : List (Column × Column)} (apart : entries.Pairwise Apart)
    (regular : ∀ entry ∈ entries, entry.1 ≠ entry.2 ∧ entry.1 ≠ .valueLegacyFloat ∧ entry.2 ≠ .valueLegacyFloat)
    (named : ∀ entry ∈ entries, loop.existing entry.1 = !loop.existing entry.2) (own : entry ∈ entries) :
    (entries.foldl (Renaming.visit types) loop).existing entry.1 = false ∧
      (entries.foldl (Renaming.visit types) loop).existing entry.2 = true := by
  induction entries generalizing loop with
  | nil => cases own
  | cons first entries ih =>
    obtain ⟨others, apart⟩ := List.pairwise_cons.mp apart
    obtain ⟨⟨distinct, old, new⟩, regular⟩ := List.forall_mem_cons.mp regular
    rw [List.foldl_cons]
    rcases List.mem_cons.mp own with rfl | own
    · rw [existing_foldl (fun other mem => (others other mem).1) old, existing_foldl
        (fun other mem => (others other mem).2) new]
      exact visit_current distinct (named entry List.mem_cons_self)
    · refine ih apart regular (fun other mem => ?_) own
      obtain ⟨⟨old₁, old₂⟩, new₁, new₂⟩ := others other mem
      obtain ⟨_, old, new⟩ := regular other mem
      rw [existing_visit old₁.symm new₁.symm old, existing_visit old₂.symm new₂.symm new]
      exact named other (List.mem_cons_of_mem _ mem)

/-! ## The statements of an upgrade -/

/-- A legacy table: each of three strings under its current name or the one
before, and no ids yet. -/
structure Legacy (types : Types) : Prop where
  named : ∀ entry ∈ currentNames, (types entry.1).isSome = !(types entry.2).isSome
  unnormalized : ∀ category, types (.id category) = none
  pristine : types .valueLegacyFloat = none

/-- The loop behind the three strings. -/
def Renaming.current (types : Types) : Renaming :=
  currentNames.foldl (Renaming.visit types) (Renaming.start types)

theorem renameLoop_eq (types : Types) : renameLoop types =
    ((Renaming.current types).visit types (.valueJson, .payload)).visit types (.value, .valueNumeric) := rfl

theorem existing_current (legacy : Legacy types) (own : entry ∈ currentNames) :
    (Renaming.current types).existing entry.1 = false ∧ (Renaming.current types).existing entry.2 = true :=
  existing_foldl_current (by decide) (by decide) legacy.named own

theorem tracks_renameLoop (legacy : Legacy types) : (renameLoop types).Tracks types :=
  tracks_foldl (tracks_start legacy.pristine) fun _ listed => listed

theorem existing_renameLoop (legacy : Legacy types) (own : entry ∈ currentNames) :
    (renameLoop types).existing entry.2 = true := by
  have regular : ∀ entry ∈ currentNames, entry.2 ≠ .valueJson ∧ entry.2 ≠ .payload ∧ entry.2 ≠ .value ∧
      entry.2 ≠ .valueNumeric ∧ entry.2 ≠ .valueLegacyFloat := by decide
  obtain ⟨valueJson, payload, value, valueNumeric, legacyFloat⟩ := regular entry own
  rw [renameLoop_eq, existing_visit value valueNumeric legacyFloat, existing_visit valueJson payload legacyFloat]
  exact (existing_current legacy own).2

/-- The columns as the passes behind the normalization see them. -/
def refetched (types : Types) : Column → Bool :=
  if (renameLoop types).existing (.string .source) then fun column => (types column).isSome
  else (renameLoop types).existing

/-- The statements in front of the ones for missing columns. -/
def leadingStatements (types : Types) : List Statement :=
  (renameLoop types).issued ++ encoding types (renameLoop types).existing ++
    (if (renameLoop types).existing (.string .source) then normalizing (renameLoop types).existing else []) ++
      (legacyColumns.filter (refetched types)).map .dropColumn

def upgradeStatements (types : Types) : List Statement := leadingStatements types ++ completing (refetched types)

def upgradeCommands (types : Types) : List Command :=
  ((renameLoop types).issued ++ encoding types (renameLoop types).existing ++
    if (renameLoop types).existing (.string .source) then normalizing (renameLoop types).existing else []).map .issue ++
      finishing (refetched types)

theorem statements_upgradeCommands (types : Types) :
    (upgradeCommands types).map Command.statement = upgradeStatements types := by
  simp [upgradeCommands, upgradeStatements, leadingStatements, finishing, Function.comp_def, Command.statement]

theorem upgradeSchema_eq {inspector : Inspector} (caches : inspector.Caches) (ids : IdSource) (s : Session) :
    s.upgradeSchema inspector ids = run (step ids) s (upgradeCommands s.table.types) := by
  simp only [Session.upgradeSchema, upgradeCommands, refetched]
  split_ifs with flat
  · ext after
    simp only [caches s.table.types, Option.bind_eq_some_iff]
    exact run_append.symm
  · rw [List.append_nil]

/-- An upgrade that returns, without an aborted transaction, is one whose
statements all run over the columns. -/
theorem upgradeSchema_iff {inspector : Inspector} (caches : inspector.Caches) (alive : s.aborted = false) :
    (s.upgradeSchema inspector ids = some after ∧ after.aborted = false) ↔
      Executable s.table.types (upgradeStatements s.table.types) ∧
        after = s.applied ids (upgradeStatements s.table.types) := by
  rw [upgradeSchema_eq caches, ← statements_upgradeCommands]
  constructor
  · rintro ⟨ran, survived⟩
    have executable := (executable_of_run ran survived).2
    rw [run_executable alive executable] at ran
    exact ⟨executable, (Option.some.inj ran).symm⟩
  · rintro ⟨executable, rfl⟩
    exact ⟨run_executable alive executable, (aborted_applied ids s _).trans alive⟩

/-! ## The tables that fail -/

/-- The tables that are upgraded. -/
structure Upgradable (types : Types) : Prop where
  strings : ∀ category ∈ [Category.direction, .sourceName, .destinationName], (types (.string category)).isSome
  undescribed : ∀ column ∈ [Column.dptName, .unit], types column = none
  payload : (types .valueJson).isSome → (types .payload).isSome
  value : (types .value).isSome → (types .valueNumeric).isSome ∧ types .value ≠ some .double

theorem mem_leadingStatements (legacy : Legacy types) (mem : statement ∈ leadingStatements types) :
    (∃ entry ∈ renameEntries, statement = .renameColumn entry.1 entry.2) ∨ statement = .encodeRawData ∨
      (∃ category, statement = .insertLookup category ∨ statement = .addColumn (.id category) .integer ∨
        statement = .updateId category ∨ statement = .dropColumn (.string category)) ∨
      ∃ column ∈ legacyColumns, statement = .dropColumn column := by
  simp only [leadingStatements, List.mem_append] at mem
  rcases mem with ((issued | encoded) | normalized) | dropped
  · exact .inl ((tracks_renameLoop legacy).listed statement issued)
  · refine .inr (.inl ?_)
    unfold encoding at encoded
    split_ifs at encoded
    · exact List.mem_singleton.mp encoded
    · cases encoded
  · split_ifs at normalized
    · simp only [normalizing, List.mem_append, List.mem_map, List.mem_filter] at normalized
      rcases normalized with ((⟨category, _, rfl⟩ | ⟨category, _, rfl⟩) | ⟨category, _, rfl⟩) | ⟨column, ⟨own, _⟩, rfl⟩
      · exact .inr (.inr (.inl ⟨category, .inl rfl⟩))
      · exact .inr (.inr (.inl ⟨category, .inr (.inl rfl)⟩))
      · exact .inr (.inr (.inl ⟨category, .inr (.inr (.inl rfl))⟩))
      · rcases own with ⟨category, _, rfl⟩ | described
        · exact .inr (.inr (.inl ⟨category, .inr (.inr (.inr rfl))⟩))
        · refine .inr (.inr (.inr ⟨column, ?_, rfl⟩))
          simp only [List.mem_cons, List.not_mem_nil, or_false] at described
          rcases described with rfl | rfl <;> decide
    · cases normalized
  · obtain ⟨column, own, rfl⟩ := List.mem_map.mp dropped
    exact .inr (.inr (.inr ⟨column, List.mem_of_mem_filter own, rfl⟩))

theorem mem_completing {existing : Column → Bool} :
    statement ∈ completing existing ↔
      ∃ entry ∈ expectedColumns, existing entry.1 = false ∧ statement = .addColumn entry.1 entry.2 := by
  simp only [completing, List.mem_map, List.mem_filter, Bool.not_eq_eq_eq_not, Bool.not_true, and_assoc]
  exact exists_congr fun entry => and_congr_right fun _ => and_congr_right fun _ => eq_comm

/-- The columns that an upgrade brings. -/
theorem brings_leading (legacy : Legacy types) (mem : statement ∈ leadingStatements types)
    (brings : statement.Brings column) :
    column ∈ renameEntries.map Prod.snd ∨ column = .rawData ∨ ∃ category, column = .id category := by
  rcases mem_leadingStatements legacy mem with ⟨entry, own, rfl⟩ | rfl | ⟨category, rfl | rfl | rfl | rfl⟩ |
    ⟨other, _, rfl⟩
  · exact .inl (brings ▸ List.mem_map_of_mem own)
  · exact .inr (.inl brings.symm)
  · cases brings
  · exact .inr (.inr ⟨category, brings.symm⟩)
  · cases brings
  · cases brings
  · cases brings

/-- The columns that it removes. -/
theorem removes_leading (legacy : Legacy types) (mem : statement ∈ leadingStatements types)
    (removes : statement.Removes column) :
    column ∈ renameEntries.map Prod.fst ∨ column ∈ legacyColumns ∨ ∃ category, column = .string category := by
  rcases mem_leadingStatements legacy mem with ⟨entry, own, rfl⟩ | rfl | ⟨category, rfl | rfl | rfl | rfl⟩ |
    ⟨other, own, rfl⟩
  · exact .inl (removes ▸ List.mem_map_of_mem own)
  · cases removes
  · cases removes
  · cases removes
  · cases removes
  · exact .inr (.inr ⟨category, removes.symm⟩)
  · exact .inr (.inl (removes ▸ own))

theorem refetched_eq (legacy : Legacy types) (column : Column) : refetched types column = (types column).isSome := by
  rw [refetched, if_pos (existing_renameLoop legacy List.mem_cons_self)]

/-- The UPDATE names all six columns. -/
theorem strings_of_executable (legacy : Legacy types) (executable : Executable types (upgradeStatements types))
    (own : category ∈ [Category.direction, .sourceName, .destinationName]) : (types (.string category)).isSome := by
  have leading := (executable_append.mp executable).1
  have issued : .updateId category ∈ leadingStatements types := by
    simp only [leadingStatements, if_pos (existing_renameLoop legacy List.mem_cons_self), normalizing]
    have listed : category ∈ categories := by cases category <;> decide
    simp [List.mem_append, List.mem_map_of_mem listed]
  refine isSome_of_asked leading issued (fun _ sound => sound.1) fun statement mem brings => ?_
  have other : ∀ category ∈ [Category.direction, .sourceName, .destinationName],
      Column.string category ∉ renameEntries.map Prod.snd := by decide
  rcases brings_leading legacy mem brings with renamed | raw | ⟨_, id⟩
  · exact other category own renamed
  · cases raw
  · cases id

/-- A column that is dropped with the strings is tried again, and is not there. -/
theorem undescribed_of_executable (legacy : Legacy types) (executable : Executable types (upgradeStatements types))
    (own : column ∈ [Column.dptName, .unit]) : types column = none := by
  have leading := (executable_append.mp executable).1
  have other : ∀ column ∈ [Column.dptName, .unit], column ∉ renameEntries.map Prod.snd ∧
      column ∉ renameEntries.map Prod.fst ∧ column ≠ .rawData ∧ column ∈ legacyColumns := by decide
  obtain ⟨brought, removed, raw, listed⟩ := other column own
  have never (statement : Statement) (mem : statement ∈ leadingStatements types) : ¬ statement.Brings column := by
    intro brings
    rcases brings_leading legacy mem brings with renamed | same | ⟨category, rfl⟩
    · exact brought renamed
    · exact raw same
    · simp [legacyColumns] at listed
  by_contra described
  have held : (types column).isSome := Option.isSome_iff_ne_none.mpr described
  have tracks := tracks_renameLoop legacy
  have existing : (renameLoop types).existing column = true := by
    rw [tracks.existing]
    refine isSome_retyped tracks.executable (fun statement mem removes => ?_) held
    obtain ⟨entry, renames, rfl⟩ := tracks.listed statement mem
    exact removed (removes ▸ List.mem_map_of_mem renames)
  have dropped : .dropColumn column ∈ normalizing (renameLoop types).existing := by
    refine List.mem_append_right _ (List.mem_map_of_mem (List.mem_filter.mpr ⟨List.mem_append_right _ own, existing⟩))
  have again : .dropColumn column ∈ (legacyColumns.filter (refetched types)).map Statement.dropColumn := by
    refine List.mem_map_of_mem (List.mem_filter.mpr ⟨listed, ?_⟩)
    rw [refetched_eq legacy, held]
  rw [leadingStatements, if_pos (existing_renameLoop legacy List.mem_cons_self)] at leading never
  have front := retyped_of_removed types (List.mem_append_right _ dropped) rfl
    fun statement mem => never statement (List.mem_append_left _ mem)
  have asked := isSome_of_asked (executable_append.mp leading).2 again (fun _ sound => sound)
    fun statement mem => never statement (List.mem_append_right _ mem)
  rw [front] at asked
  cases asked

theorem issued_visit (mem : statement ∈ loop.issued) : statement ∈ (loop.visit types entry).issued := by
  unfold Renaming.visit
  split_ifs
  · exact List.mem_append_left _ mem
  · exact List.mem_append_left _ mem
  · exact mem
  · exact mem

/-- The columns that no turn for a string changes. -/
theorem existing_current_other (own : column ∈ [Column.valueJson, .payload, .value, .valueNumeric]) :
    (Renaming.current types).existing column = (types column).isSome := by
  have other : ∀ column ∈ [Column.valueJson, .payload, .value, .valueNumeric],
      (∀ entry ∈ currentNames, column ≠ entry.1 ∧ column ≠ entry.2) ∧ column ≠ .valueLegacyFloat := by decide
  exact existing_foldl (other column own).1 (other column own).2

theorem existing_value (own : column ∈ [Column.value, .valueNumeric]) :
    ((Renaming.current types).visit types (.valueJson, .payload)).existing column = (types column).isSome := by
  have other : ∀ column ∈ [Column.value, .valueNumeric], column ∈ [Column.valueJson, .payload, .value, .valueNumeric] ∧
      column ≠ .valueJson ∧ column ≠ .payload ∧ column ≠ .valueLegacyFloat := by decide
  obtain ⟨listed, json, payload, legacyFloat⟩ := other column own
  rw [existing_visit json payload legacyFloat, existing_current_other listed]

theorem issued_valueJson (held : (types .valueJson).isSome) (free : types .payload = none) :
    .renameColumn .valueJson .payload ∈ (renameLoop types).issued := by
  rw [renameLoop_eq]
  refine issued_visit ?_
  have json : (Renaming.current types).existing .valueJson = true := (existing_current_other (by simp)).trans held
  have payload : (Renaming.current types).existing .payload = false := by
    rw [existing_current_other (by simp), free]
    rfl
  simp [Renaming.visit, Renaming.rename, json, payload]

theorem issued_value (held : (types .value).isSome) (free : types .valueNumeric = none) :
    .renameColumn .value .valueNumeric ∈ (renameLoop types).issued := by
  rw [renameLoop_eq]
  have value : ((Renaming.current types).visit types (.valueJson, .payload)).existing .value = true :=
    (existing_value (by simp)).trans held
  have numeric : ((Renaming.current types).visit types (.valueJson, .payload)).existing .valueNumeric = false := by
    rw [existing_value (by simp), free]
    rfl
  rw [Renaming.visit, if_pos value, if_pos (by simp [numeric])]
  simp [Renaming.rename]

/-- A `value` that is a float is moved out of the way. -/
theorem issued_float (double : types .value = some .double) (numeric : (types .valueNumeric).isSome) :
    .renameColumn .value .valueLegacyFloat ∈ (renameLoop types).issued := by
  rw [renameLoop_eq]
  have value : ((Renaming.current types).visit types (.valueJson, .payload)).existing .value = true := by
    rw [existing_value (by simp), double]
    rfl
  have taken : ((Renaming.current types).visit types (.valueJson, .payload)).existing .valueNumeric = true :=
    (existing_value (by simp)).trans numeric
  rw [Renaming.visit, if_pos value, if_neg (by simp [taken]), if_pos ⟨rfl, double⟩]
  simp [Renaming.rename]

/-- A column that is renamed to an expected one is added again, and there by now. -/
theorem expected_of_executable (legacy : Legacy types) (executable : Executable types (upgradeStatements types))
    {old : Column} (renamed : .renameColumn old column ∈ (renameLoop types).issued)
    (expected : (column, type) ∈ expectedColumns)
    (kept : column ∉ renameEntries.map Prod.fst ∧ column ∉ legacyColumns ∧ ∀ category, column ≠ .string category) :
    (types column).isSome := by
  obtain ⟨leading, completed⟩ := executable_append.mp executable
  by_contra absent
  have added : .addColumn column type ∈ completing (refetched types) := by
    refine mem_completing.mpr ⟨(column, type), expected, ?_, rfl⟩
    rw [refetched_eq legacy]
    exact Bool.eq_false_of_not_eq_true absent
  have issued : .renameColumn old column ∈ leadingStatements types := by
    simp only [leadingStatements, List.append_assoc]
    exact List.mem_append_left _ renamed
  have brought := isSome_of_brought leading issued rfl fun statement mem removes => by
    rcases removes_leading legacy mem removes with renamed | dropped | ⟨category, flat⟩
    · exact kept.1 renamed
    · exact kept.2.1 dropped
    · exact kept.2.2 category flat
  have free := eq_none_of_added completed added fun statement mem removes => by
    obtain ⟨_, _, _, rfl⟩ := mem_completing.mp mem
    cases removes
  rw [free] at brought
  cases brought

/-- The upgrade returns with its transaction intact, every row says what it said
before, and a second upgrade changes nothing. -/
def UpgradePreserves (inspector : Inspector) (ids : IdSource) (s : Session) : Prop :=
  ∃ after, s.upgradeSchema inspector ids = some after ∧ after.aborted = false ∧ after.resolved = s.resolved ∧
    after.upgradeSchema inspector ids = some after

theorem refetched_value (absent : types .value = none) : refetched types .value = false := by
  have existing : (renameLoop types).existing .value = false := by
    have turn : ((Renaming.current types).visit types (.valueJson, .payload)).existing .value = false := by
      rw [existing_value (by simp), absent]
      rfl
    rw [renameLoop_eq, Renaming.visit, if_neg (by simp [turn]), turn]
  unfold refetched
  split_ifs
  · exact congrArg Option.isSome absent
  · exact existing

/-- What an upgrade leaves without a `value`, the next one gives one. -/
theorem value_of_idle (executable : Executable types (upgradeStatements types))
    (idle : retyped types (upgradeStatements types) = types) : (types .value).isSome := by
  by_contra absent
  have added : .addColumn .value .jsonb ∈ completing (refetched types) :=
    mem_completing.mpr ⟨(.value, .jsonb), by simp [expectedColumns], refetched_value
      (Option.not_isSome_iff_eq_none.mp absent), rfl⟩
  have brought := isSome_of_brought (executable_append.mp executable).2 added rfl fun statement mem removes => by
    obtain ⟨_, _, _, rfl⟩ := mem_completing.mp mem
    cases removes
  rw [← retyped_append] at brought
  rw [upgradeStatements] at idle
  rw [idle] at brought
  exact absent brought

theorem value_of_float (legacy : Legacy types) (double : types .value = some .double)
    (numeric : (types .valueNumeric).isSome) :
    retyped types (upgradeStatements types) .value = none := by
  have issued : .renameColumn .value .valueLegacyFloat ∈ upgradeStatements types := by
    simp only [upgradeStatements, leadingStatements, List.append_assoc]
    exact List.mem_append_left _ (issued_float double numeric)
  refine retyped_of_removed types issued rfl fun statement mem brings => ?_
  rcases List.mem_append.mp mem with leading | completed
  · rcases brings_leading legacy leading brings with renamed | raw | ⟨category, id⟩
    · simp [renameEntries, renames, currentNames] at renamed
    · cases raw
    · cases id
  · obtain ⟨entry, _, missing, rfl⟩ := mem_completing.mp completed
    rw [refetched_eq legacy, show entry.1 = .value from brings, double] at missing
    cases missing

theorem upgradable_of_preserves {inspector : Inspector} (caches : inspector.Caches) (alive : s.aborted = false)
    (legacy : Legacy s.table.types) (preserves : UpgradePreserves inspector ids s) : Upgradable s.table.types := by
  obtain ⟨after, ran, survived, _, again⟩ := preserves
  obtain ⟨executable, reached⟩ := (upgradeSchema_iff caches alive).mp ⟨ran, survived⟩
  obtain ⟨executable', idle⟩ := (upgradeSchema_iff caches survived).mp ⟨again, survived⟩
  refine ⟨fun category own => ?_, fun column own => ?_, fun held => ?_, fun held => ?_⟩
  · exact strings_of_executable legacy executable own
  · exact undescribed_of_executable legacy executable own
  · by_contra absent
    have renamed := issued_valueJson held (Option.not_isSome_iff_eq_none.mp absent)
    have expected : (.payload, .jsonb) ∈ expectedColumns := by decide
    exact absent (expected_of_executable legacy executable renamed expected ⟨by decide, by decide, by simp⟩)
  · have numeric : (s.table.types .valueNumeric).isSome := by
      by_contra absent
      have renamed := issued_value held (Option.not_isSome_iff_eq_none.mp absent)
      have expected : (.valueNumeric, .double) ∈ expectedColumns := by decide
      exact absent (expected_of_executable legacy executable renamed expected ⟨by decide, by decide, by simp⟩)
    refine ⟨numeric, fun double => ?_⟩
    have gone : after.table.types .value = none := by
      rw [reached, types_applied]
      exact value_of_float legacy double numeric
    have stays : retyped after.table.types (upgradeStatements after.table.types) = after.table.types := by
      rw [← types_applied ids, ← idle]
    have there := value_of_idle executable' stays
    rw [gone] at there
    cases there

/-! ## The statements of a table that is upgraded -/

theorem visit_idle (idle : loop.existing entry.1 = true →
    loop.existing entry.2 = true ∧ ¬ (entry.1 = .value ∧ types .value = some .double)) :
    loop.visit types entry = loop := by
  unfold Renaming.visit
  split_ifs with held free double
  · rw [(idle held).1] at free
    cases free
  · exact absurd double (idle held).2
  · rfl
  · rfl

theorem issued_foldl {entries : List (Column × Column)} (own : ∀ entry ∈ entries, entry.1 ≠ .value)
    (mem : statement ∈ (entries.foldl (Renaming.visit types) loop).issued) :
    statement ∈ loop.issued ∨ ∃ entry ∈ entries, statement = .renameColumn entry.1 entry.2 := by
  induction entries generalizing loop with
  | nil => exact .inl mem
  | cons entry entries ih =>
    obtain ⟨first, own⟩ := List.forall_mem_cons.mp own
    rcases ih own mem with issued | ⟨other, later, rfl⟩
    · unfold Renaming.visit at issued
      split_ifs at issued with held free double
      · rcases List.mem_append.mp issued with before | last
        · exact .inl before
        · exact .inr ⟨entry, List.mem_cons_self, List.mem_singleton.mp last⟩
      · exact absurd double.1 first
      · exact .inl issued
      · exact .inl issued
    · exact .inr ⟨other, List.mem_cons_of_mem _ later, rfl⟩

theorem issued_current (mem : statement ∈ (Renaming.current types).issued) :
    ∃ entry ∈ currentNames, statement = .renameColumn entry.1 entry.2 := by
  rcases issued_foldl (by decide) mem with before | listed
  · cases before
  · exact listed

/-- Only strings are renamed. -/
theorem renameLoop_upgradable (upgradable : Upgradable types) : renameLoop types = Renaming.current types := by
  have payload : (Renaming.current types).visit types (.valueJson, .payload) = Renaming.current types := by
    refine visit_idle fun held => ⟨?_, by simp⟩
    rw [existing_current_other (by simp)] at held ⊢
    exact upgradable.payload held
  rw [renameLoop_eq, payload]
  refine visit_idle fun held => ?_
  rw [existing_current_other (by simp)] at held ⊢
  obtain ⟨numeric, float⟩ := upgradable.value held
  exact ⟨numeric, fun double => float double.2⟩

/-- The statements behind the INSERTs. -/
def trailing (types : Types) : List Statement :=
  categories.map (fun category => .addColumn (.id category) .integer) ++
    (categories.map .updateId ++ (categories.map (fun category => .dropColumn (.string category)) ++
      ((legacyColumns.filter fun column => (types column).isSome).map .dropColumn ++
        completing fun column => (types column).isSome)))

theorem existing_current_string (legacy : Legacy types) (upgradable : Upgradable types) (category : Category) :
    (Renaming.current types).existing (.string category) = true := by
  have named : ∀ category ∈ [Category.source, .destination, .telegramtype],
      ∃ entry ∈ currentNames, entry.2 = .string category := by decide
  have unnamed : ∀ category ∈ [Category.direction, .sourceName, .destinationName],
      ∀ entry ∈ currentNames, Column.string category ≠ entry.1 ∧ Column.string category ≠ entry.2 := by decide
  by_cases current : category ∈ [Category.source, .destination, .telegramtype]
  · obtain ⟨entry, own, same⟩ := named category current
    exact same ▸ (existing_current legacy own).2
  · have other : category ∈ [Category.direction, .sourceName, .destinationName] := by
      cases category <;> first | decide | exact absurd (by decide) current
    rw [Renaming.current, existing_foldl (unnamed category other) (by simp)]
    exact upgradable.strings category other

theorem existing_current_unnamed (unnamed : ∀ entry ∈ currentNames, column ≠ entry.1 ∧ column ≠ entry.2)
    (other : column ≠ .valueLegacyFloat) : (Renaming.current types).existing column = (types column).isSome :=
  existing_foldl unnamed other

theorem normalizing_current (legacy : Legacy types) (upgradable : Upgradable types) :
    normalizing (Renaming.current types).existing = categories.map .insertLookup ++
      categories.map (fun category => .addColumn (.id category) .integer) ++ categories.map .updateId ++
        categories.map fun category => .dropColumn (.string category) := by
  have strings : categories.filter
    (fun category => (Renaming.current types).existing (.string category)) = categories :=
    List.filter_eq_self.mpr fun category _ => existing_current_string legacy upgradable category
  have ids : categories.filter (fun category => !(Renaming.current types).existing (.id category)) = categories := by
    refine List.filter_eq_self.mpr fun category _ => ?_
    rw [existing_current_unnamed (by simp [currentNames]) (by simp), legacy.unnormalized category]
    rfl
  have flat : (categories.map Column.string).filter (Renaming.current types).existing =
    categories.map Column.string := by
    refine List.filter_eq_self.mpr fun column mem => ?_
    obtain ⟨category, _, rfl⟩ := List.mem_map.mp mem
    exact existing_current_string legacy upgradable category
  have undescribed : [Column.dptName, .unit].filter (Renaming.current types).existing = [] := by
    have unnamed : ∀ column ∈ [Column.dptName, .unit],
        (∀ entry ∈ currentNames, column ≠ entry.1 ∧ column ≠ entry.2) ∧ column ≠ .valueLegacyFloat := by decide
    refine List.filter_eq_nil_iff.mpr fun column own => ?_
    rw [existing_current_unnamed (unnamed column own).1 (unnamed column own).2, upgradable.undescribed column own]
    simp
  rw [normalizing, strings, ids, List.filter_append, flat, undescribed, List.append_nil, List.map_map]
  rfl

theorem upgradeStatements_upgradable (legacy : Legacy types) (upgradable : Upgradable types) :
    upgradeStatements types = (Renaming.current types).issued ++ encoding types (Renaming.current types).existing ++
      (categories.map .insertLookup ++ trailing types) := by
  have flat := existing_current_string legacy upgradable .source
  have columns : refetched types = fun column => (types column).isSome := funext (refetched_eq legacy)
  rw [upgradeStatements, leadingStatements, columns, renameLoop_upgradable upgradable, if_pos flat,
    normalizing_current legacy upgradable]
  simp only [trailing, List.append_assoc]

end KnxTelegramStore.Postgres
