import KnxTelegramStore.Lib.Runs
import KnxTelegramStore.Sql.Resolved

/-!
`PostgresStore._upgrade_schema` (`backends/postgres.py`) as the statements it
issues. A statement that fails raises and leaves the transaction aborted, where
every later one fails as well. Four of the DROPs are tried: their failure is
swallowed.

The columns are looked up twice, before the first statement and after the
DROPs, through one inspector.
-/
namespace KnxTelegramStore.Postgres
open EventMachine
open Sql (Category IdSource ResolvedRow StringLookup)

/-! ## The table -/

/-- A column of `telegrams`, in this schema or an older one. -/
inductive Column where
  | timestamp
  /-- the flat string column of a category -/
  | string (category : Category)
  | id (category : Category)
  /-- `source_address`, `target_address` and `telegram_type` -/
  | sourceAddress
  | targetAddress
  | telegramType
  | valueJson
  | value
  | valueNumeric
  | valueLegacyFloat
  | payload
  | dptMain
  | dptSub
  | rawData
  | dataSecure
  | dptName
  | unit
  | dptNameId
  | unitId
  deriving DecidableEq

inductive ColumnType where
  | timestamptz
  | text
  | integer
  | double
  | bytea
  | jsonb
  | boolean
  deriving DecidableEq

inductive Cell where
  | null
  | instant (micros : ℤ)
  | text (s : String)
  | integer (n : ℤ)
  | double (x : PyFloat)
  | bytea (bytes : List UInt8)
  | json (value : PyValue)
  | boolean (b : Bool)

/-- `encode(..., 'hex')`. -/
def encodeHex (bytes : List UInt8) : String :=
  String.ofList (bytes.flatMap fun byte => [Nat.digitChar (byte.toNat / 16), Nat.digitChar (byte.toNat % 16)])

namespace Cell

def string? : Cell → Option String
  | .text s => some s
  | _ => none

def integer? : Cell → Option ℤ
  | .integer n => some n
  | _ => none

def double? : Cell → Option PyFloat
  | .double x => some x
  | _ => none

/-- Raw data as hex digits, in either type of column. -/
def hex? : Cell → Option String
  | .text s => some s
  | .bytea bytes => some (encodeHex bytes)
  | _ => none

/-- `USING encode(raw_data, 'hex')`. -/
def encoded : Cell → Cell
  | .bytea bytes => .text (encodeHex bytes)
  | cell => cell

end Cell

abbrev Types := Column → Option ColumnType

abbrev Row := Column → Cell

/-- `telegrams`: the types of its columns, and its rows. A column that is not
there has no cell to read. -/
structure Table where
  types : Types
  rows : List Row

/-- The values of a flat column. -/
def Table.strings (table : Table) (category : Category) : List String :=
  (table.rows.filterMap fun row => (row (.string category)).string?).dedup

/-! ## Statements -/

/-- The connection of an upgrade. -/
structure Session where
  table : Table
  lookup : StringLookup
  /-- the transaction is aborted -/
  aborted : Bool := false

inductive Statement where
  | renameColumn (old new : Column)
  /-- `ALTER COLUMN raw_data TYPE TEXT USING encode(raw_data, 'hex')` -/
  | encodeRawData
  /-- `INSERT INTO string_lookup ... SELECT DISTINCT ... ON CONFLICT DO NOTHING` -/
  | insertLookup (category : Category)
  | addColumn (column : Column) (type : ColumnType)
  /-- `UPDATE telegrams SET ..._id = sl.id FROM string_lookup sl ...` -/
  | updateId (category : Category)
  | dropColumn (column : Column)

namespace Statement

/-- The columns that it names are there, and the one that it makes is not. -/
def Sound (types : Types) : Statement → Prop
  | renameColumn old new => (types old).isSome ∧ types new = none
  | encodeRawData => (types .rawData).isSome
  | insertLookup category => (types (.string category)).isSome
  | addColumn column _ => types column = none
  | updateId category => (types (.string category)).isSome ∧ (types (.id category)).isSome
  | dropColumn column => (types column).isSome

instance (types : Types) : DecidablePred (Sound types)
  | renameColumn old new => inferInstanceAs (Decidable ((types old).isSome = true ∧ types new = none))
  | encodeRawData => inferInstanceAs (Decidable ((types .rawData).isSome = true))
  | insertLookup category => inferInstanceAs (Decidable ((types (.string category)).isSome = true))
  | addColumn column _ => inferInstanceAs (Decidable (types column = none))
  | updateId category =>
    inferInstanceAs (Decidable ((types (.string category)).isSome = true ∧ (types (.id category)).isSome = true))
  | dropColumn column => inferInstanceAs (Decidable ((types column).isSome = true))

/-- What it does to the columns. -/
def retype (types : Types) : Statement → Types
  | renameColumn old new => Function.update (Function.update types old none) new (types old)
  | encodeRawData => Function.update types .rawData (some .text)
  | addColumn column type => Function.update types column (some type)
  | dropColumn column => Function.update types column none
  | insertLookup _ | updateId _ => types

/-- What it does to a row. The cells of a new column are NULL, and an UPDATE
leaves a row without a match alone. -/
def rewrite (lookup : StringLookup) (row : Row) : Statement → Row
  | renameColumn old new => Function.update (Function.update row old .null) new (row old)
  | encodeRawData => Function.update row .rawData (row .rawData).encoded
  | addColumn column _ | dropColumn column => Function.update row column .null
  | updateId category =>
    match (row (.string category)).string?.bind fun value => lookup.idOf (category, value) with
    | some id => Function.update row (.id category) (.integer id)
    | none => row
  | insertLookup _ => row

/-- What it does to `string_lookup`. -/
def intern (ids : IdSource) (table : Table) (lookup : StringLookup) : Statement → StringLookup
  | insertLookup category => lookup.insertAll ids ((table.strings category).map (category, ·))
  | _ => lookup

def apply (ids : IdSource) (s : Session) (statement : Statement) : Session where
  table := ⟨statement.retype s.table.types, s.table.rows.map (statement.rewrite s.lookup)⟩
  lookup := statement.intern ids s.table s.lookup
  aborted := s.aborted

end Statement

/-- What a statement does; `none` if it fails. -/
def execute (ids : IdSource) (s : Session) (statement : Statement) : Option Session :=
  if s.aborted = false ∧ statement.Sound s.table.types then some (statement.apply ids s) else none

/-- A statement that is issued, or tried: `try: ... except Exception: pass`. -/
inductive Command where
  | issue (statement : Statement)
  | attempt (statement : Statement)

def step (ids : IdSource) (s : Session) : Command → Option Session
  | .issue statement => execute ids s statement
  | .attempt statement => some ((execute ids s statement).getD { s with aborted := true })

/-! ## `_upgrade_schema` -/

/-- `renames`, but for the last. -/
def currentNames : List (Column × Column) :=
  [(.sourceAddress, .string .source), (.targetAddress, .string .destination),
    (.telegramType, .string .telegramtype)]

/-- `renames`. -/
def renames : List (Column × Column) := currentNames ++ [(.valueJson, .payload), (.value, .valueNumeric)]

/-- `existing_columns`, and the statements issued so far. -/
structure Renaming where
  existing : Column → Bool
  issued : List Statement

def Renaming.rename (loop : Renaming) (old new : Column) : Renaming where
  existing := Function.update (Function.update loop.existing old false) new true
  issued := loop.issued ++ [.renameColumn old new]

/-- One turn of the loop over `renames`. -/
def Renaming.visit (types : Types) (loop : Renaming) (entry : Column × Column) : Renaming :=
  if loop.existing entry.1 then
    if !loop.existing entry.2 then loop.rename entry.1 entry.2
    else if entry.1 = .value ∧ types .value = some .double then loop.rename .value .valueLegacyFloat
    else loop
  else loop

/-- 1: the loop. -/
def renameLoop (types : Types) : Renaming :=
  renames.foldl (Renaming.visit types) ⟨fun column => (types column).isSome, []⟩

def encoding (types : Types) (existing : Column → Bool) : List Statement :=
  if existing .rawData ∧ types .rawData = some .bytea then [.encodeRawData] else []

/-- `cols_to_migrate`. -/
def categories : List Category :=
  [.source, .destination, .telegramtype, .direction, .sourceName, .destinationName]

/-- 2: the strings become ids. -/
def normalizing (existing : Column → Bool) : List Statement :=
  (categories.filter fun category => existing (.string category)).map .insertLookup ++
    (categories.filter fun category => !existing (.id category)).map
    (fun category => .addColumn (.id category) .integer) ++
    categories.map .updateId ++
    ((categories.map Column.string ++ [Column.dptName, .unit]).filter existing).map .dropColumn

/-- The legacy columns that are tried. -/
def legacyColumns : List Column := [.dptNameId, .unitId, .dptName, .unit]

/-- `expected_columns`. -/
def expectedColumns : List (Column × ColumnType) :=
  [(.value, .jsonb), (.valueNumeric, .double), (.payload, .jsonb), (.dataSecure, .boolean), (.dptMain, .integer),
    (.dptSub, .integer)]

/-- 3: the missing columns. -/
def completing (existing : Column → Bool) : List Statement :=
  (expectedColumns.filter fun entry => !existing entry.1).map fun entry => .addColumn entry.1 entry.2

def finishing (existing : Column → Bool) : List Command :=
  (legacyColumns.filter existing).map (fun column => .attempt (.dropColumn column)) ++
    (completing existing).map .issue

/-- What an inspector answers that is asked for the columns a second time: from
its first answer, and the columns there are by now. -/
abbrev Inspector := Types → Types → Types

/-- SQLAlchemy's keeps what it has fetched once. -/
def Inspector.Caches (inspector : Inspector) : Prop := ∀ first now, inspector first now = first

/-- `_upgrade_schema` of a table that exists. -/
def Session.upgradeSchema (inspector : Inspector) (ids : IdSource) (s : Session) : Option Session :=
  let types := s.table.types
  let loop := renameLoop types
  let beginning := loop.issued ++ encoding types loop.existing
  if loop.existing (.string .source) then
    (run (step ids) s ((beginning ++ normalizing loop.existing).map .issue)).bind fun normalized =>
      run (step ids) normalized (finishing fun column => (inspector types normalized.table.types column).isSome)
  else run (step ids) s (beginning.map .issue ++ finishing loop.existing)

/-! ## What rows say -/

/-- The column of a string before it had its current name. -/
def legacyName : Category → Option Column
  | .source => some .sourceAddress
  | .destination => some .targetAddress
  | .telegramtype => some .telegramType
  | _ => none

/-- The cell of a row, NULL without a column. -/
def Table.cell (table : Table) (row : Row) (column : Column) : Cell :=
  if (table.types column).isSome then row column else .null

/-- The string of a row in a flat column, under its name or the one before; else
the one that its id resolves to. -/
def Table.string (table : Table) (lookup : StringLookup) (row : Row) (category : Category) : Option String :=
  if (table.types (.string category)).isSome then (row (.string category)).string?
  else if (table.types (.id category)).isSome then
    (row (.id category)).integer?.bind fun id => lookup.stringOf category id.toNat
  else (legacyName category).bind fun column => (table.cell row column).string?

/-- What a row says. Without a column of its own the number is a `value` that
is a float. -/
def Table.resolve (table : Table) (lookup : StringLookup) (row : Row) : ResolvedRow where
  strings category := (table.string lookup row category).getD ""
  dptMain := (table.cell row .dptMain).integer?
  dptSub := (table.cell row .dptSub).integer?
  valueNumeric :=
    if (table.types .valueNumeric).isSome then (row .valueNumeric).double?
    else if table.types .value = some .double then (row .value).double? else none
  rawData := (table.cell row .rawData).hex?

/-- What the rows of `telegrams` say. -/
def Session.resolved (s : Session) : List ResolvedRow := s.table.rows.map (s.table.resolve s.lookup)

end KnxTelegramStore.Postgres
