import KnxTelegramStore.Model

/-!
What a column makes of the values it is given. A JSON column of PostgreSQL
keeps the text that `json.dumps` writes, which has to be JSON: no NaN and no
infinity. On SQLite a JSON column has NUMERIC affinity. The text of a number is
stored as a number there, as an INTEGER of 64 bits or else as a REAL, and comes
back as that number, which need not be the one that was written: some floats of
16 or 17 digits are rounded once more, and so are longer integers. Any other
text is kept. What SQLite rounds to is a parameter (`Reals`).
-/
namespace KnxTelegramStore

/-- Whether SQLite has an INTEGER of this value. -/
def isInteger (n : ℤ) : Prop := -2 ^ 63 ≤ n ∧ n < 2 ^ 63

instance : DecidablePred isInteger := fun n => inferInstanceAs (Decidable (-2 ^ 63 ≤ n ∧ n < 2 ^ 63))

/-- Whether an `Integer` column or parameter takes the number; any other is an
`OverflowError` of `sqlite3`, or a `DataError` of `asyncpg`. -/
def Backend.FitsInteger : Backend → ℤ → Prop
  | .sqlite, n => isInteger n
  | .postgres, n => -2 ^ 31 ≤ n ∧ n < 2 ^ 31

instance (backend : Backend) : DecidablePred backend.FitsInteger := fun n =>
  match backend with
  | .sqlite => inferInstanceAs (Decidable (isInteger n))
  | .postgres => inferInstanceAs (Decidable (-2 ^ 31 ≤ n ∧ n < 2 ^ 31))

/-! ## Numbers in a column of NUMERIC affinity -/

/-- The REAL that SQLite makes of the text of a number: of an integer of more
than 64 bits, and of a float as `repr` writes it. -/
structure Reals where
  ofInt : ℤ → PyFloat
  ofFloat : ℚ → PyFloat

/-- A number as SQLite stores it. -/
inductive SqlNumber where
  | integer (n : ℤ)
  | real (x : PyFloat)

/-- A REAL that is a whole number of 64 bits is stored as INTEGER. -/
def SqlNumber.ofReal : PyFloat → SqlNumber
  | .number x => if x.den = 1 ∧ -2 ^ 63 < x.num ∧ x.num < 2 ^ 63 then .integer x.num else .real (.number x)
  | x => .real x

def SqlNumber.read : SqlNumber → PyValue
  | .integer n => .int n
  | .real x => .float x

/-- The number that the JSON text of the value is stored as, if it is the text
of a number. -/
def PyValue.stored (real : Reals) : PyValue → Option SqlNumber
  | .int n => some (if isInteger n then .integer n else .ofReal (real.ofInt n))
  | .float (.number x) => some (.ofReal (real.ofFloat x))
  | _ => none

/-- No number, so that its JSON text is stored as it is. -/
def PyValue.Textual : PyValue → Prop
  | .int _ | .float (.number _) => False
  | _ => True

/-- A number by its value, as Python compares them. -/
def PyValue.numeric : PyValue → PyValue
  | .int n => .float (.number n)
  | json => json

/-- SQLite gives the number back that it is given, if it is one. -/
def PyValue.HeldExactly (real : Reals) (json : PyValue) : Prop :=
  ∀ number, json.stored real = some number → number.read.numeric = json.numeric

/-- 58.91570855144926, and what SQLite 3.46 makes of it. -/
def longFloat : ℚ where
  num := 8291648846205489
  den := 140737488355328
  reduced := by decide

def longFloatRead : ℚ where
  num := 518228052887843
  den := 8796093022208
  reduced := by decide

/-- SQLite 3.46, as far as it is asked here. -/
def sampleReals : Reals where
  ofInt n := .number (if n = 2 ^ 63 + 1 then 2 ^ 63 else n : ℤ)
  ofFloat x := .number (if x = longFloat then longFloatRead else x)

/-! ## JSON columns -/

/-- The JSON of a payload. -/
def Payload.json : Payload → PyValue
  | .int n => .int n
  | .float x => .float x
  | .tuple bytes | .list bytes => .list (bytes.map .int)

/-- A number by its value. -/
def Payload.numeric : Payload → Payload
  | .int n => .float (.number n)
  | payload => payload

/-- A telegram whose JSON columns have their numbers by their values: what
SQLite reads of a whole float is an integer, which is equal to it. -/
def StoredTelegram.numeric (t : StoredTelegram) : StoredTelegram :=
  { t with payload := t.payload.map Payload.numeric, value := t.value.numeric }

theorem StoredTelegram.numeric_numeric (t : StoredTelegram) : t.numeric.numeric = t.numeric := by
  have value : t.value.numeric.numeric = t.value.numeric := by
    cases t.value <;> rfl
  have payload : (t.payload.map Payload.numeric).map Payload.numeric = t.payload.map Payload.numeric := by
    rcases t.payload with _ | (_ | _ | _ | _) <;> rfl
  simp only [StoredTelegram.numeric, value, payload]

/-- `value` as a JSON column gives it back. -/
def PyValue.jsonColumn (backend : Backend) (real : Reals) (value : PyValue) : PyValue :=
  match backend with
  | .sqlite => ((value.stored real).map SqlNumber.read).getD value.jsonRoundTrip
  | .postgres => value.jsonRoundTrip

def SqlNumber.payload : SqlNumber → Payload
  | .integer n => .int n
  | .real x => .float x

/-- `payload` as a JSON column gives it back. -/
def Payload.jsonColumn (backend : Backend) (real : Reals) (payload : Payload) : Payload :=
  match backend with
  | .sqlite => ((payload.json.stored real).map SqlNumber.payload).getD payload.jsonRoundTrip
  | .postgres => payload.jsonRoundTrip

mutual

/-- No NaN and no infinity, here or inside. -/
def PyValue.finite : PyValue → Bool
  | .float .nan | .float (.infinity _) => false
  | .list items | .tuple items => finiteItems items
  | .dict entries => finiteEntries entries
  | _ => true

def finiteItems : List PyValue → Bool
  | [] => true
  | item :: items => item.finite && finiteItems items

def finiteEntries : List (String × PyValue) → Bool
  | [] => true
  | (_, value) :: entries => value.finite && finiteEntries entries

end

/-- Whether a JSON column takes the value. -/
def PyValue.fitsJson (backend : Backend) (value : PyValue) : Bool :=
  match backend with
  | .sqlite => true
  | .postgres => value.finite

end KnxTelegramStore
