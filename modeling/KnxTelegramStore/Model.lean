import KnxTelegramStore.DateTime
import Mathlib.Data.Rat.Defs

/-!
The records that pass between a host and a store: a telegram in its stored
form, the declarative query, and a page of results. JSON values are Python
values here, and `jsonRoundTrip` is what writing and reading their text does to
them.
-/
namespace KnxTelegramStore

/-- The two databases behind `BaseSQLStore`. -/
inductive Backend where
  | sqlite
  | postgres
  deriving DecidableEq

/-- A Python float. -/
inductive PyFloat where
  | nan
  | infinity (negative : Bool)
  | number (value : ℚ)
  deriving DecidableEq

/-- What `StoredTelegram.value` may hold. -/
inductive PyValue where
  | bool (b : Bool)
  | int (n : ℤ)
  | float (x : PyFloat)
  | str (s : String)
  | null
  | list (items : List PyValue)
  | tuple (items : List PyValue)
  | dict (entries : List (String × PyValue))

mutual

/-- `json.loads(json.dumps(value))`: a tuple comes back as a list. -/
def PyValue.jsonRoundTrip : PyValue → PyValue
  | .list items => .list (jsonRoundTripList items)
  | .tuple items => .list (jsonRoundTripList items)
  | .dict entries => .dict (jsonRoundTripEntries entries)
  | value => value

def jsonRoundTripList : List PyValue → List PyValue
  | [] => []
  | item :: items => item.jsonRoundTrip :: jsonRoundTripList items

def jsonRoundTripEntries : List (String × PyValue) → List (String × PyValue)
  | [] => []
  | (key, value) :: entries => (key, value.jsonRoundTrip) :: jsonRoundTripEntries entries

end

/-- `StoredTelegram.payload`: the integer of a `DPTBinary` or the bytes of a
`DPTArray`. A float is what a column may make of an integer. -/
inductive Payload where
  | int (value : ℤ)
  | float (value : PyFloat)
  | tuple (bytes : List ℤ)
  | list (bytes : List ℤ)
  deriving DecidableEq

/-- `json.loads(json.dumps(payload))` -/
def Payload.jsonRoundTrip : Payload → Payload
  | .tuple bytes => .list bytes
  | payload => payload

/-- `model.py::StoredTelegram`. -/
structure StoredTelegram where
  timestamp : DateTime
  source : String
  destination : String
  telegramtype : String
  direction : String
  payload : Option Payload := none
  dptMain : Option ℤ := none
  dptSub : Option ℤ := none
  value : PyValue := .null
  valueNumeric : Option PyFloat := none
  rawData : Option String := none
  dataSecure : Option Bool := none
  sourceName : String := ""
  destinationName : String := ""

/-- `query.py::TelegramQuery`; an empty list is no restriction. -/
structure TelegramQuery where
  sources : List String := []
  destinations : List String := []
  telegramTypes : List String := []
  directions : List String := []
  dptMains : List ℤ := []
  dpts : List (ℤ × Option ℤ) := []
  startTime : Option DateTime := none
  endTime : Option DateTime := none
  deltaBeforeMs : ℤ := 0
  deltaAfterMs : ℤ := 0
  limit : ℕ := 25000
  offset : ℕ := 0
  orderDescending : Bool := true

/-- No filter and no time bound, from the first row on. -/
structure TelegramQuery.Unrestricted (q : TelegramQuery) : Prop where
  sources : q.sources = []
  destinations : q.destinations = []
  telegramTypes : q.telegramTypes = []
  directions : q.directions = []
  dptMains : q.dptMains = []
  dpts : q.dpts = []
  startTime : q.startTime = none
  endTime : q.endTime = none
  offset : q.offset = 0

/-- `query.py::TelegramQueryResult`. -/
structure TelegramQueryResult where
  telegrams : List StoredTelegram
  totalCount : ℕ
  limitReached : Bool

end KnxTelegramStore
