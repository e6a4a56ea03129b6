import KnxTelegramStore.Sqlite.Schema
import KnxTelegramStore.Sql.Interning

/-!
Whether the table rebuild loses rows. A start that finds the `source` column
writes data before any DDL, so that a cut undoes all of it. Otherwise the
RENAME and the CREATE commit on their own: a start cut between the RENAME and
its commit leaves an empty `telegrams` without a legacy column, and no later
start looks for the rows in `_telegrams_old` (`rows_kept_iff`).
-/
namespace KnxTelegramStore.Sqlite
open EventMachine ImplicitTransactions
open Sql (Category IdSource StringLookup mapM_some_iff)

variable {α : Type} {f f' : File α} {table : Table α} {statement : Statement} {statements : List Statement}
variable {kept : List α} {interruption : Interruption}

/-! ## What the statements do to the rows -/

/-- The rows of `telegrams`, and its legacy columns. -/
def File.summary (f : File α) : Option (List α × List Column) :=
  f.telegrams.map fun table => (table.contents, table.columns.filter (· ∈ legacyColumns))

/-- The rows of `telegrams`. -/
def File.contents (f : File α) : Option (List α) := f.telegrams.map Table.contents

theorem File.contents_eq (f : File α) : f.contents = f.summary.map Prod.fst := by
  simp [File.contents, File.summary, Function.comp_def]

/-- A statement that neither moves rows between the tables nor creates one,
and brings no legacy column back. -/
def Statement.Still : Statement → Prop
  | .createAll | .renameTelegrams | .createTelegrams | .copyRows _ => False
  | .addColumn column => column ∉ legacyColumns
  | _ => True

theorem contents_addColumn (table : Table α) (column : Column) :
    (table.addColumn column).contents = table.contents := by
  unfold Table.addColumn Table.contents
  split
  · rw [List.map_map]
    rfl
  · rfl

theorem execute_still (done : execute f statement = some f') (still : statement.Still) :
    f'.summary = f.summary := by
  cases statement with
  | createAll | renameTelegrams | createTelegrams | copyRows => exact still.elim
  | insertLookup category =>
    obtain ⟨table, _, done⟩ := Option.bind_eq_some_iff.mp done
    split at done
    · cases done
      rfl
    · cases done
  | addColumn column =>
    obtain ⟨table, held, done⟩ := Option.bind_eq_some_iff.mp done
    split at done
    · cases done
    · cases done
      have added : column ∉ legacyColumns := still
      have same : (table.addColumn column).columns.filter (· ∈ legacyColumns) =
          table.columns.filter (· ∈ legacyColumns) := by
        simp [Table.addColumn, added]
      simp only [File.summary, held, Option.map_some, contents_addColumn, same]
  | updateId category =>
    obtain ⟨table, held, done⟩ := Option.bind_eq_some_iff.mp done
    split at done
    · cases done
      simp [File.summary, held, Table.updateId, Table.contents]
    · cases done
  | dropIndex name =>
    cases done
    simp [File.summary, Function.comp_def, Table.contents]
  | createIndex name =>
    obtain ⟨table, held, done⟩ := Option.bind_eq_some_iff.mp done
    split at done
    · cases done
    · cases done
      simp [File.summary, held, Table.contents]
  | dropOldIfExists =>
    cases done
    rfl
  | dropOld =>
    simp only [execute] at done
    split at done
    · cases done
      rfl
    · cases done
  | recoverNulls | unwrapRow =>
    obtain ⟨_, _, rfl⟩ := Option.map_eq_some_iff.mp done
    rfl
  | setNullsRecovered | setDataUnwrapped =>
    cases done
    rfl

theorem execute_createAll (done : execute f .createAll = some f') : f'.summary = some (f.summary.getD ([], [])) := by
  cases done
  unfold File.summary
  cases f.telegrams <;> rfl

/-- Rows that no statement moves stay as they are. -/
theorem run_still (still : ∀ statement ∈ statements, statement.Still)
    (ran : run execute f statements = some f') : f'.summary = f.summary :=
  run_invariant (I := fun now => now.summary = f.summary)
    (fun _ _ _ same still done => (execute_still done still).trans same) rfl
    (along_of_mem fun statement mem _ => still statement mem) ran

theorem contents_copied {columns : List Column} {old rows : List (Row α)}
    (copied : old.mapM (Row.copied columns) = some rows) : rows.map Row.content = old.map Row.content := by
  have same : List.Forall₂ (fun old row => row.content = old.content) old rows := by
    refine (mapM_some_iff.mp copied).imp fun old row made => ?_
    obtain ⟨_, same⟩ := Option.ite_none_right_eq_some.mp made
    cases same
    rfl
  clear copied
  induction same with
  | nil => rfl
  | cons first _ ih => rw [List.map_cons, List.map_cons, first, ih]

/-- Creating an index touches no row of either table. -/
theorem run_createIndexes {names : List String} (ran : run execute f (names.map .createIndex) = some f') :
    f'.summary = f.summary ∧ f'.telegramsOld = f.telegramsOld := by
  have creates : Along execute (fun _ statement => ∃ name, statement = .createIndex name) f
      (names.map .createIndex) := by
    refine along_of_mem fun _ mem _ => ?_
    obtain ⟨name, _, rfl⟩ := List.mem_map.mp mem
    exact ⟨name, rfl⟩
  refine run_invariant (I := fun now => now.summary = f.summary ∧ now.telegramsOld = f.telegramsOld) ?_ ⟨rfl, rfl⟩
    creates ran
  · rintro now _ next ⟨same, old⟩ ⟨name, rfl⟩ done
    have still := execute_still done trivial
    obtain ⟨table, _, done⟩ := Option.bind_eq_some_iff.mp done
    split at done
    · cases done
    · cases done
      exact ⟨still.trans same, old⟩

/-- The rebuild as a whole copies every row. -/
theorem run_rebuild {columns : List Column} {indexes : List String} {legacy : List Column}
    (held : f.summary = some (kept, legacy)) (ran : run execute f (rebuild columns indexes) = some f') :
    f'.summary = some (kept, []) := by
  unfold rebuild at ran
  simp only [List.append_assoc, List.cons_append, List.nil_append] at ran
  obtain ⟨f₁, dropped, ran⟩ := run_append.mp ran
  obtain ⟨f₂, cleared, ran⟩ := run_cons.mp ran
  obtain ⟨f₃, renamed, ran⟩ := run_cons.mp ran
  obtain ⟨f₄, created, ran⟩ := run_cons.mp ran
  obtain ⟨f₅, indexed, ran⟩ := run_append.mp ran
  obtain ⟨f₆, copied, ran⟩ := run_cons.mp ran
  obtain ⟨f₇, ended, ran⟩ := run_cons.mp ran
  cases ran
  have before : f₂.summary = some (kept, legacy) := by
    rw [execute_still cleared trivial, ← held]
    refine run_still (fun statement mem => ?_) dropped
    obtain ⟨name, _, rfl⟩ := List.mem_map.mp mem
    trivial
  obtain ⟨table, old, contents⟩ : ∃ table, f₃.telegramsOld = some table ∧ table.contents = kept ∧
      f₃.telegrams = none := by
    simp only [execute] at renamed
    split at renamed
    · rename_i table present _
      cases renamed
      rw [File.summary, present] at before
      exact ⟨table, rfl, (Prod.mk.inj (Option.some.inj before)).1, rfl⟩
    · cases renamed
  have fresh : f₄.summary = some ([], []) ∧ f₄.telegramsOld = some table := by
    simp only [execute, contents.2] at created
    cases created
    exact ⟨rfl, old⟩
  obtain ⟨same, old'⟩ := run_createIndexes indexed
  have filled : f₆.summary = some (kept, []) := by
    obtain ⟨new, present, copied⟩ := Option.bind_eq_some_iff.mp copied
    obtain ⟨source, held, copied⟩ := Option.bind_eq_some_iff.mp copied
    obtain ⟨rows, made, copied⟩ := Option.bind_eq_some_iff.mp copied
    rw [old', fresh.2] at held
    cases held
    rw [fresh.1, File.summary, present] at same
    obtain ⟨empty, modern⟩ := Prod.mk.inj (Option.some.inj same)
    split at copied
    · cases copied
      have rows_eq : (new.rows ++ rows).map Row.content = kept := by
        rw [List.map_append, contents_copied made, ← contents.1]
        exact congrArg (· ++ table.contents) empty
      simp only [File.summary, Option.map_some, Table.contents, rows_eq, modern]
    · cases copied
  rw [execute_still ended trivial, filled]

/-! ## Starts that complete -/

theorem still_migrateStrings (columns : List Column) :
    ∀ statement ∈ migrateStrings columns, statement.Still := by
  intro statement mem
  simp only [migrateStrings, List.mem_append, List.mem_map, List.mem_filter] at mem
  rcases mem with (⟨category, _, rfl⟩ | ⟨category, _, rfl⟩) | ⟨category, _, rfl⟩
  · trivial
  · show Column.id category ∉ legacyColumns
    cases category <;> decide
  · trivial

theorem still_addMissing {missing : List Column} (expected : ∀ column ∈ missing, column ∈ expectedColumns) :
    ∀ statement ∈ missing.map Statement.addColumn, statement.Still := by
  intro statement mem
  obtain ⟨column, own, rfl⟩ := List.mem_map.mp mem
  have modern : ∀ column ∈ expectedColumns, column ∉ legacyColumns := by decide
  exact modern column (expected column own)

theorem still_recoverNulls (nullsRecovered : Bool) (columns : List Column) :
    ∀ statement ∈ recoverNulls nullsRecovered columns, statement.Still := by
  intro statement mem
  unfold recoverNulls at mem
  split at mem
  · cases mem
  · rcases List.mem_append.mp mem with recovering | flag
    · split at recovering
      · rw [List.mem_singleton.mp recovering]
        trivial
      · cases recovering
    · rw [List.mem_singleton.mp flag]
      trivial

theorem still_unwrapData (dataUnwrapped : Bool) (wrapped : ℕ) :
    ∀ statement ∈ unwrapData dataUnwrapped wrapped, statement.Still := by
  intro statement mem
  unfold unwrapData at mem
  split at mem
  · cases mem
  · rcases List.mem_append.mp mem with unwrapping | flag
    · rw [List.eq_of_mem_replicate unwrapping]
      trivial
    · rw [List.mem_singleton.mp flag]
      trivial

/-- The shape of an upgrade: statements that leave the rows alone, the rebuild
of a table with legacy columns, and the recovery of values. What precedes the
rebuild is DDL alone, or begins with an INSERT where there is a `source`
column. -/
theorem upgradeSchema_shape (table : Table α) (nullsRecovered : Bool) :
    ∃ before columns, upgradeSchema table nullsRecovered =
        before ++ (if ∃ column ∈ table.columns, column ∈ legacyColumns then rebuild columns table.indexes else []) ++
          recoverNulls nullsRecovered columns ∧
      (∀ statement ∈ before, statement.Still) ∧
      (.string .source ∉ table.columns → ∀ statement ∈ before, statement.isDml = false) ∧
      (.string .source ∈ table.columns → ∃ rest, before = .insertLookup .source :: rest) := by
  refine ⟨_, _, rfl, fun statement mem => ?_, fun normalized statement mem => ?_, fun flat => ?_⟩
  · rcases List.mem_append.mp mem with migrating | adding
    · split at migrating
      · exact still_migrateStrings _ statement migrating
      · cases migrating
    · exact still_addMissing (fun column mem => List.mem_of_mem_filter mem) statement adding
  · rw [if_neg normalized, List.nil_append] at mem
    obtain ⟨column, _, rfl⟩ := List.mem_map.mp mem
    rfl
  · rw [if_pos flat, migrateStrings, categories, List.filter_cons, if_pos (decide_eq_true flat)]
    exact ⟨_, rfl⟩

/-- A start that completes keeps the rows it finds. -/
theorem completed_contents {wrapped unwrapped : ℕ} (completed : completedStart f wrapped unwrapped = some f') :
    f'.contents = some (f.contents.getD []) := by
  obtain ⟨conn, ran, rfl⟩ := Option.map_eq_some_iff.mp completed
  obtain ⟨f₄, upgraded, unwrapping⟩ := run_append.mp (run_working ran)
  obtain ⟨f₁, created, upgraded⟩ := run_cons.mp upgraded
  obtain ⟨before, columns, shape, still, _⟩ :=
    upgradeSchema_shape (f.telegrams.getD (.new modelIndexes)) f.nullsRecovered
  rw [shape] at upgraded
  obtain ⟨f₃, upgraded, recovering⟩ := run_append.mp upgraded
  obtain ⟨f₂, preparing, rebuilding⟩ := run_append.mp upgraded
  have prepared : f₂.summary = some (f.summary.getD ([], [])) :=
    (run_still still preparing).trans (execute_createAll created)
  have rebuilt : f₃.contents = some (f.contents.getD []) := by
    rw [File.contents_eq f]
    split at rebuilding
    · rw [File.contents_eq, run_rebuild prepared rebuilding]
      cases f.summary <;> rfl
    · cases rebuilding
      rw [File.contents_eq, prepared]
      cases f.summary <;> rfl
  have recovered := run_still (still_recoverNulls _ _) recovering
  have ended := run_still (fun statement mem => still_unwrapData _ _ statement (List.mem_of_mem_take mem)) unwrapping
  rw [File.contents_eq, ended, recovered, ← File.contents_eq, rebuilt]

/-! ## Starts that are cut off -/

/-- All rows are in `telegrams`, which has no flat `source` column. -/
def Intact (kept : List α) (f : File α) : Prop :=
  ∃ legacy, f.summary = some (kept, legacy) ∧ .string .source ∉ legacy

/-- `telegrams` is empty and has no legacy column, or there is none. -/
def Lost (f : File α) : Prop := ∀ summary, f.summary = some summary → summary = ([], [])

/-- DDL that brings no legacy column back does not bring lost rows back
either. -/
theorem Lost.keeps (lost : Lost f) (ddl : statement.isDml = false)
    (modern : ∀ column, statement = .addColumn column → column ∉ legacyColumns)
    (done : execute f statement = some f') : Lost f' := by
  cases statement with
  | createAll =>
    intro summary held
    rw [execute_createAll done] at held
    cases at_ : f.summary with
    | none =>
      rw [at_] at held
      exact (Option.some.inj held).symm
    | some summary' =>
      rw [at_, lost summary' at_] at held
      exact (Option.some.inj held).symm
  | renameTelegrams =>
    simp only [execute] at done
    split at done
    · cases done
      intro summary held
      cases held
    · cases done
  | createTelegrams =>
    simp only [execute] at done
    split at done
    · cases done
      intro summary held
      exact (Option.some.inj held).symm
    · cases done
  | addColumn column =>
    intro summary held
    exact lost summary ((execute_still done (modern column rfl)).symm.trans held)
  | dropIndex | dropOldIfExists | createIndex | dropOld =>
    intro summary held
    exact lost summary ((execute_still done trivial).symm.trans held)
  | insertLookup | updateId | copyRows | recoverNulls | setNullsRecovered | unwrapRow | setDataUnwrapped =>
    cases ddl

theorem Intact.keeps (intact : Intact kept f) (still : statement = .createAll ∨ statement.Still)
    (done : execute f statement = some f') : Intact kept f' := by
  obtain ⟨legacy, held, normalized⟩ := intact
  rcases still with rfl | still
  · exact ⟨legacy, (execute_createAll done).trans (by rw [held]; rfl), normalized⟩
  · exact ⟨legacy, (execute_still done still).trans held, normalized⟩

/-- No statement of a start brings a legacy column back. -/
theorem executed_modern (mem : statement ∈ interruption.executed f) :
    ∀ column, statement = .addColumn column → column ∉ legacyColumns := by
  rintro column rfl
  obtain ⟨before, columns, shape, still, _⟩ :=
    upgradeSchema_shape (f.telegrams.getD (.new modelIndexes)) f.nullsRecovered
  have all := List.mem_of_mem_take mem
  rw [upgrading, shape] at all
  simp only [List.mem_append, List.mem_cons, reduceCtorEq, false_or] at all
  rcases all with ((early | rebuilding) | recovering) | unwrapping
  · exact still _ early
  · split at rebuilding <;> simp [rebuild] at rebuilding
  · exact still_recoverNulls _ _ _ recovering
  · exact still_unwrapData _ _ _ unwrapping

/-- Either no row is moved at all, or the start is DDL that moves no row up to
its RENAME. -/
theorem executed_shape (f : File α) (interruption : Interruption)
    (normalized : ∀ table, f.telegrams = some table → .string .source ∉ table.columns) :
    (∀ statement ∈ interruption.executed f, statement = .createAll ∨ statement.Still) ∨
      ∃ before after, interruption.executed f = (before ++ .renameTelegrams :: after).take interruption.cut ∧
        ∀ statement ∈ before, (statement = .createAll ∨ statement.Still) ∧ statement.isDml = false := by
  obtain ⟨before, columns, shape, still, ddl, _⟩ :=
    upgradeSchema_shape (f.telegrams.getD (.new modelIndexes)) f.nullsRecovered
  have flat : .string .source ∉ (f.telegrams.getD (Table.new modelIndexes)).columns := by
    cases held : f.telegrams with
    | none =>
      show Column.string .source ∉ keepColumns
      decide
    | some table => exact normalized table held
  unfold Interruption.executed upgrading
  rw [shape]
  split
  · refine .inr ⟨.createAll :: before ++ (f.telegrams.getD (.new modelIndexes)).indexes.map .dropIndex ++
      [.dropOldIfExists], .createTelegrams :: modelIndexes.map .createIndex ++
      [.copyRows (keepColumns.filter (· ∈ columns)), .dropOld] ++ recoverNulls f.nullsRecovered columns ++
      unwrapData f.dataUnwrapped interruption.wrapped, ?_, fun statement mem => ?_⟩
    · simp only [rebuild, List.cons_append, List.append_assoc, List.nil_append]
    · simp only [List.cons_append, List.append_assoc, List.mem_cons, List.mem_append, List.mem_map,
        List.not_mem_nil, or_false] at mem
      rcases mem with rfl | early | ⟨name, _, rfl⟩ | rfl
      · exact ⟨.inl rfl, rfl⟩
      · exact ⟨.inr (still statement early), ddl flat statement early⟩
      · exact ⟨.inr trivial, rfl⟩
      · exact ⟨.inr trivial, rfl⟩
  · refine .inl fun statement mem => ?_
    have all := List.mem_of_mem_take mem
    simp only [List.append_nil, List.cons_append, List.append_assoc, List.mem_cons, List.mem_append] at all
    rcases all with rfl | early | recovering | unwrapping
    · exact .inl rfl
    · exact .inr (still statement early)
    · exact .inr (still_recoverNulls _ _ statement recovering)
    · exact .inr (still_unwrapData _ _ statement unwrapping)

/-- A cut list, seen from one of its elements. -/
private theorem take_around {ι : Type} {before after : List ι} {x : ι} (fresh : x ∉ before) (cut : ℕ) :
    (x ∉ (before ++ x :: after).take cut → ∀ y ∈ (before ++ x :: after).take cut, y ∈ before) ∧
      (x ∈ (before ++ x :: after).take cut →
        ∃ later, (before ++ x :: after).take cut = before ++ x :: after.take later) := by
  rw [List.take_append]
  by_cases early : cut ≤ before.length
  · rw [Nat.sub_eq_zero_of_le early, List.take_zero, List.append_nil]
    exact ⟨fun _ y mem => List.mem_of_mem_take mem, fun mem => absurd (List.mem_of_mem_take mem) fresh⟩
  · obtain ⟨later, count⟩ : ∃ later, cut - before.length = later + 1 := ⟨cut - before.length - 1, by omega⟩
    rw [count, List.take_succ_cons, List.take_of_length_le (by omega)]
    exact ⟨fun absent => absurd (List.mem_append_right _ List.mem_cons_self) absent, fun _ => ⟨later, rfl⟩⟩

theorem Intact.normalized (intact : Intact kept f) :
    ∀ table, f.telegrams = some table → .string .source ∉ table.columns := by
  intro table present flat
  obtain ⟨legacy, held, normalized⟩ := intact
  rw [File.summary, present] at held
  refine normalized ?_
  rw [← (Prod.mk.inj (Option.some.inj held)).2]
  exact List.mem_filter.mpr ⟨flat, by decide⟩

/-- Cut off before its RENAME, a start leaves the rows in place. -/
theorem Intact.cut_outside (intact : Intact kept f) (outside : .renameTelegrams ∉ interruption.executed f)
    (cut : interruptedStart f interruption = some f') : Intact kept f' := by
  obtain ⟨conn, ran, rfl⟩ := Option.map_eq_some_iff.mp cut
  have still : ∀ statement ∈ interruption.executed f, statement = .createAll ∨ statement.Still := by
    rcases executed_shape f interruption intact.normalized with still | ⟨before, after, shape, early⟩
    · exact still
    · have fresh : .renameTelegrams ∉ before := fun mem => by
        rcases (early _ mem).1 with same | still
        · cases same
        · exact still
      intro statement mem
      rw [shape] at outside mem
      exact (early statement ((take_around fresh interruption.cut).1 outside statement mem)).1
  exact run_committed (fun s statement mem s' intact _ done => intact.keeps (still statement mem) done) intact
    (fun _ => rfl) ran

/-- Cut off behind its RENAME, a start leaves an empty table. -/
theorem Intact.cut_inside (intact : Intact kept f) (inside : .renameTelegrams ∈ interruption.executed f)
    (cut : interruptedStart f interruption = some f') : Lost f' := by
  obtain ⟨conn, ran, rfl⟩ := Option.map_eq_some_iff.mp cut
  rcases executed_shape f interruption intact.normalized with still | ⟨before, after, shape, early⟩
  · rcases still _ inside with same | still
    · cases same
    · exact still.elim
  have fresh : .renameTelegrams ∉ before := fun mem => by
    rcases (early _ mem).1 with same | still
    · cases same
    · exact still
  have modern := fun statement (mem : statement ∈ interruption.executed f) => executed_modern mem
  rw [shape] at inside
  obtain ⟨later, split⟩ := (take_around fresh interruption.cut).2 inside
  rw [shape, split] at ran modern
  obtain ⟨conn₁, preparing, ran⟩ := run_append.mp ran
  obtain ⟨conn₂, moved, ran⟩ := run_cons.mp ran
  obtain ⟨same, closed⟩ := run_committed_closed rfl rfl (fun statement mem => (early statement mem).2) preparing
  obtain ⟨working, renamed, rfl⟩ := Option.map_eq_some_iff.mp moved
  have gone : Lost working := by
    simp only [execute] at renamed
    split at renamed
    · cases renamed
      intro summary held
      cases held
    · cases renamed
  rw [closed] at ran
  exact run_committed (fun s statement mem s' lost ddl done => lost.keeps ddl
    (modern statement (List.mem_append_right _ (List.mem_cons_of_mem _ mem))) done) gone (fun _ => rfl) ran

/-- What is lost stays lost. -/
theorem Lost.cut (lost : Lost f) (cut : interruptedStart f interruption = some f') : Lost f' := by
  obtain ⟨conn, ran, rfl⟩ := Option.map_eq_some_iff.mp cut
  exact run_committed (fun s statement mem s' lost ddl done => lost.keeps ddl (executed_modern mem) done) lost
    (fun _ => rfl) ran

/-- With a flat `source` column, all that a start does is in a transaction. -/
theorem cut_flat (held : f.telegrams = some table) (flat : .string .source ∈ table.columns)
    (cut : interruptedStart f interruption = some f') : f'.telegrams = some table := by
  obtain ⟨conn, ran, rfl⟩ := Option.map_eq_some_iff.mp cut
  obtain ⟨before, columns, shape, _, _, first⟩ := upgradeSchema_shape table f.nullsRecovered
  obtain ⟨rest, rfl⟩ := first flat
  unfold Interruption.executed upgrading at ran
  rw [held, Option.getD_some, shape] at ran
  generalize interruption.cut = cut at ran
  cases cut with
  | zero =>
    cases ran
    exact held
  | succ cut =>
    obtain ⟨conn₁, created, ran⟩ := run_cons.mp ran
    obtain ⟨f₁, done, rfl⟩ := Option.map_eq_some_iff.mp created
    have present : f₁.telegrams = some table := by
      have made := (Option.some.inj done).symm
      rw [made]
      exact congrArg (fun telegrams => some (telegrams.getD (.new modelIndexes))) held
    cases cut with
    | zero =>
      cases ran
      exact present
    | succ cut =>
      obtain ⟨conn₂, inserted, ran⟩ := run_cons.mp ran
      obtain ⟨f₂, _, rfl⟩ := Option.map_eq_some_iff.mp inserted
      rw [(run_committed_open rfl ran).1]
      exact present

/-! ## Any number of interrupted starts -/

/-- The interrupted starts of a run that were not cut behind their RENAME. -/
def CutOutside (f : File α) (interruption : Interruption) : Prop :=
  .renameTelegrams ∉ interruption.executed f

theorem Intact.starts {fₙ : File α} {interruptions : List Interruption} (intact : Intact kept f)
    (interrupted : run interruptedStart f interruptions = some fₙ) :
    (Along interruptedStart CutOutside f interruptions → Intact kept fₙ) ∧
      (¬ Along interruptedStart CutOutside f interruptions → Lost fₙ) := by
  refine ⟨fun outside => ?_, fun inside => ?_⟩
  · exact run_invariant (fun _ _ _ intact outside cut => intact.cut_outside outside cut) intact outside interrupted
  · induction interruptions generalizing f with
    | nil => exact absurd trivial inside
    | cons interruption rest ih =>
      obtain ⟨next, cut, later⟩ := run_cons.mp interrupted
      by_cases outside : CutOutside f interruption
      · refine ih (intact.cut_outside outside cut) later fun along => inside ⟨outside, fun other same => ?_⟩
        rw [cut] at same
        cases same
        exact along
      · exact run_keeps (fun _ _ _ lost cut => lost.cut cut)
          (intact.cut_inside (not_not.mp outside) cut) later

/-- **Which interrupted starts lose rows.** However many starts raise or die
before one completes, at whatever statements, the table then holds the rows of
the beginning just in these cases: it had none; it has a flat `source` column;
or no start was cut behind its RENAME. -/
theorem rows_kept_iff {fₙ : File α} {interruptions : List Interruption} {wrapped unwrapped : ℕ}
    (held : f.telegrams = some table)
    (interrupted : run interruptedStart f interruptions = some fₙ)
    (completed : completedStart fₙ wrapped unwrapped = some f') :
    f'.contents = some table.contents ↔
      table.rows = [] ∨ .string .source ∈ table.columns ∨
        Along interruptedStart CutOutside f interruptions := by
  have after := completed_contents completed
  by_cases flat : .string .source ∈ table.columns
  · have same : fₙ.telegrams = some table :=
      run_keeps (I := fun f => f.telegrams = some table) (fun _ _ _ held cut => cut_flat held flat cut) held interrupted
    rw [after, File.contents, same]
    exact iff_of_true rfl (.inr (.inl flat))
  · have intact : Intact table.contents f := by
      refine ⟨table.columns.filter (· ∈ legacyColumns), by rw [File.summary, held]; rfl, fun mem => ?_⟩
      exact flat (List.mem_of_mem_filter mem)
    obtain ⟨kept, lost⟩ := intact.starts interrupted
    by_cases outside : Along interruptedStart CutOutside f interruptions
    · obtain ⟨legacy, same, _⟩ := kept outside
      rw [after, File.contents_eq, same]
      exact iff_of_true rfl (.inr (.inr outside))
    · have empty : fₙ.contents.getD [] = [] := by
        rw [File.contents_eq]
        cases at_ : fₙ.summary with
        | none => rfl
        | some summary =>
          rw [lost outside summary at_]
          rfl
      rw [after, empty]
      simp only [flat, outside, or_false, Option.some.injEq]
      rw [eq_comm]
      exact List.map_eq_nil_iff

/-- A normalised table of one telegram that still has a `dpt_name` column. -/
def namedFile : File ℕ where
  telegrams := some
    { columns := keepColumns ++ [.dptName]
      indexes := modelIndexes
      rows := [⟨0, fun _ => none, fun _ => some 1⟩] }

/-- A start that dies after `create_all` takes nothing with it. -/
theorem rows_kept_before_rename :
    ∃ fₙ f', run interruptedStart namedFile [⟨1, 0⟩] = some fₙ ∧ completedStart fₙ 0 1 = some f' ∧
      f'.contents = some [0] := by
  have both : ((run interruptedStart namedFile [⟨1, 0⟩]).bind (completedStart · 0 1)).isSome = true := by decide
  obtain ⟨f', both⟩ := Option.isSome_iff_exists.mp both
  obtain ⟨fₙ, interrupted, completed⟩ := Option.bind_eq_some_iff.mp both
  have early : CutOutside namedFile ⟨1, 0⟩ := by
    show Statement.renameTelegrams ∉ [Statement.createAll]
    decide
  have kept := (rows_kept_iff (f := namedFile) rfl interrupted completed).mpr (.inr (.inr ⟨early, fun _ _ => trivial⟩))
  exact ⟨fₙ, f', interrupted, completed, kept⟩

/-- A disk that is full at the INSERT of the rebuild takes every row. -/
theorem rebuild_loses_rows :
    namedFile.contents = some [0] ∧
      (Interruption.executed namedFile ⟨13, 0⟩).getLast? = some (.copyRows keepColumns) ∧
      ((run interruptedStart namedFile [⟨12, 0⟩]).bind (completedStart · 0 1)).bind File.contents = some [] :=
  ⟨rfl, by decide, by decide⟩

end KnxTelegramStore.Sqlite
