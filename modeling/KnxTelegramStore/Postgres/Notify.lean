import KnxTelegramStore.Lib.IsoFormat
import KnxTelegramStore.Sql.Results

/-!
The live feed of a PostgreSQL store: the trigger that announces what a
transaction inserts into `telegrams` (`_setup_notify_trigger` in
`backends/postgres.py`), and `listen_for_new_telegrams`, which turns each
notification into a telegram. PostgreSQL sends the notifications of a
transaction when it commits, to every session that listens by then, in the
order of the commits, and sends a text that the transaction repeats once.
-/
namespace KnxTelegramStore.Postgres.Notify
open Sql

/-! ## The trigger -/

/-- What depends on the sessions: the `TimeZone` of the writer's, as the UTC
offset at an instant in seconds, the text of a JSON value there, and
`json.loads` at the listener. -/
structure Wire where
  timeZone : ℤ → ℤ
  text : PyValue → String
  loads : String → Option PyValue

/-- A `timestamptz` in JSON. -/
def timestampText (timeZone : ℤ → ℤ) (micros : ℤ) : String :=
  String.ofList (IsoFormat.trimmed {
    wall := (micros + timeZone micros * 1000000 - DateTime.minWall).toNat
    offset := some (timeZone micros * 1000000) })

def textJson : Option String → PyValue
  | none => .null
  | some s => .str s

def integerJson : Option ℤ → PyValue
  | none => .null
  | some n => .int n

def booleanJson : Option Bool → PyValue
  | none => .null
  | some b => .bool b

def payloadJson : Option Payload → PyValue
  | none => .null
  | some payload => payload.json

/-- A FLOAT in JSON. JSON has no NaN, and a whole number is written without a
point until it gets an exponent. -/
def doubleJson : Option PyFloat → PyValue
  | none => .null
  | some .nan => .str "NaN"
  | some (.infinity false) => .str "Infinity"
  | some (.infinity true) => .str "-Infinity"
  | some (.number x) => if x.den = 1 ∧ x.num.natAbs < 10 ^ 15 then .int x.num else .float (.number x)

/-- `row_to_json(rec)` -/
def rowToJson (timeZone : ℤ → ℤ) (record : Fetched ℤ) : PyValue :=
  .dict [("timestamp", .str (timestampText timeZone record.row.timestamp)),
    ("source", textJson record.source), ("destination", textJson record.destination),
    ("telegramtype", textJson record.telegramtype), ("direction", textJson record.direction),
    ("source_name", textJson record.sourceName), ("destination_name", textJson record.destinationName),
    ("payload", payloadJson record.row.payload), ("dpt_main", integerJson record.row.dptMain),
    ("dpt_sub", integerJson record.row.dptSub), ("value", record.row.value),
    ("value_numeric", doubleJson record.row.valueNumeric), ("raw_data", textJson record.row.rawData),
    ("data_secure", booleanJson record.row.dataSecure)]

/-- A new row through the joins of the trigger, the first four of them
inner. -/
def recordOf (lookup : StringLookup) (row : TelegramRow ℤ) : List (Fetched ℤ) := do
  let source ← innerJoined lookup .source row.sourceId
  let destination ← innerJoined lookup .destination row.destinationId
  let telegramtype ← innerJoined lookup .telegramtype row.telegramtypeId
  let direction ← innerJoined lookup .direction row.directionId
  let sourceName ← joined lookup .sourceName row.sourceNameId
  let destinationName ← joined lookup .destinationName row.destinationNameId
  return {
    row
    source := some source
    destination := some destination
    telegramtype := some telegramtype
    direction := some direction
    sourceName, destinationName }

/-- The first item of each key. -/
def collapse {α κ : Type} [DecidableEq κ] (key : α → κ) (items : List α) : List α :=
  items.foldl (fun kept item => if key item ∈ kept.map key then kept else kept ++ [item]) []

/-- `octet_length(notify_payload) < 8000` -/
def announceable (text : String) : Bool := text.utf8ByteSize < 8000

/-- The notifications of a transaction that inserts these rows. -/
def notifications (wire : Wire) (lookup : StringLookup) (rows : List (TelegramRow ℤ)) : List String :=
  collapse id (((rows.flatMap (recordOf lookup)).map fun record => wire.text (rowToJson wire.timeZone record)).filter
    announceable)

/-! ## The listener -/

/-- A `StoredTelegram` with its fields as `json.loads` has them. -/
structure Received where
  timestamp : DateTime
  source : PyValue
  destination : PyValue
  telegramtype : PyValue
  direction : PyValue
  payload : PyValue
  dptMain : PyValue
  dptSub : PyValue
  value : PyValue
  valueNumeric : PyValue
  rawData : PyValue
  dataSecure : PyValue
  sourceName : PyValue
  destinationName : PyValue

/-- `data[key]`; `none` is the `KeyError`, or the `TypeError` of what is no
dict. -/
def getItem (key : String) : PyValue → Option PyValue
  | .dict entries => (entries.find? (·.1 = key)).map Prod.snd
  | _ => none

/-- `datetime.fromisoformat`; `none` is the `ValueError` or `TypeError`. -/
def fromisoformat : PyValue → Option DateTime
  | .str text => (IsoFormat.fromisoformat text.toList).map fun reading =>
    { wall := reading.wall + DateTime.minWall, tzinfo := reading.offset.map .fixed }
  | _ => none

def truthy : PyValue → Bool
  | .null | .bool false | .int 0 | .str "" | .list [] | .tuple [] | .dict [] => false
  | .float x => x ≠ .number 0
  | _ => true

/-- `value or ""` -/
def orEmpty (value : PyValue) : PyValue := if truthy value then value else .str ""

/-- `_telegram_from_notify_payload` -/
def telegramFromNotifyPayload (loads : String → Option PyValue) (payload : String) : Option Received := do
  let data ← loads payload
  return {
    timestamp := ← fromisoformat (← getItem "timestamp" data)
    source := ← getItem "source" data
    destination := ← getItem "destination" data
    telegramtype := ← getItem "telegramtype" data
    direction := ← getItem "direction" data
    payload := ← getItem "payload" data
    dptMain := ← getItem "dpt_main" data
    dptSub := ← getItem "dpt_sub" data
    value := ← getItem "value" data
    valueNumeric := ← getItem "value_numeric" data
    rawData := ← getItem "raw_data" data
    dataSecure := ← getItem "data_secure" data
    sourceName := orEmpty (← getItem "source_name" data)
    destinationName := orEmpty (← getItem "destination_name" data) }

/-! ## The channel -/

/-- A `listen_for_new_telegrams()` that goes on: its queue, what it has
yielded, and how many transactions had committed before. -/
structure Listener where
  queue : List String := []
  yielded : List Received := []
  since : ℕ

/-- A store with its listeners; `committed` records the batches of its
transactions. -/
structure Channel where
  store : Store := {}
  listeners : ℕ → Option Listener := fun _ => none
  committed : List (List StoredTelegram) := []

inductive Event where
  | store (event : StoreEvent)
  /-- the LISTEN of a new listener takes effect -/
  | listen (l : ℕ)
  /-- the head of its queue is yielded; what cannot be read ends it -/
  | next (l : ℕ)
  /-- its generator is closed -/
  | stop (l : ℕ)

def Listener.notify (texts : List String) (listener : Listener) : Listener :=
  { listener with queue := listener.queue ++ texts }

namespace Channel

variable (wire : Wire) (engine : Engine) (c : Channel)

def setListener (l : ℕ) (listener : Option Listener) : Channel :=
  { c with listeners := Function.update c.listeners l listener }

/-- The store has taken a step; a commit is announced. -/
def follow (store : Store) : StoreEvent → Channel
  | .commit .. =>
    let texts := notifications wire store.db.lookup (store.db.telegrams.drop c.store.db.telegrams.length)
    { store
      listeners := fun l => (c.listeners l).map (Listener.notify texts)
      committed := c.committed ++ [store.stored.drop c.store.stored.length] }
  | _ => { c with store }

end Channel

def step (wire : Wire) (engine : Engine) (c : Channel) : Event → Option Channel
  | .store event => (c.store.step engine event).map fun store => c.follow wire store event
  | .listen l =>
    match c.listeners l with
    | none => some (c.setListener l (some { since := c.committed.length }))
    | some _ => none
  | .next l =>
    match c.listeners l with
    | some { queue := text :: queue, yielded, since } =>
      some (c.setListener l ((telegramFromNotifyPayload wire.loads text).map fun telegram =>
        { queue, yielded := yielded ++ [telegram], since }))
    | _ => none
  | .stop l => some (c.setListener l none)

abbrev run (wire : Wire) (engine : Engine) (events : List Event) : Option Channel :=
  EventMachine.run (step wire engine) {} events

/-! ## What is announced of a batch -/

variable {wire : Wire} {engine : Engine} {lookup : StringLookup} {t : StoredTelegram} {telegrams : List StoredTelegram}
variable {c c' : Channel} {event : Event} {events : List Event}

/-- The row of a telegram, but for its ids. -/
def storedRow (engine : Engine) (t : StoredTelegram) : TelegramRow ℤ where
  timestamp := t.timestamp.toMicros engine.tzdb
  sourceId := 0
  destinationId := 0
  telegramtypeId := 0
  directionId := 0
  sourceNameId := none
  destinationNameId := none
  payload := t.payload.map (Payload.jsonColumn engine.backend engine.real)
  dptMain := t.dptMain
  dptSub := t.dptSub
  value := t.value.jsonColumn engine.backend engine.real
  valueNumeric := bindDouble engine.backend t.valueNumeric
  rawData := t.rawData
  dataSecure := t.dataSecure
  rowid := 0

/-- The JSON of a telegram that is inserted, and the text of it. -/
def telegramJson (wire : Wire) (engine : Engine) (t : StoredTelegram) : PyValue :=
  rowToJson wire.timeZone (.of (storedRow engine t) t)

def announcement (wire : Wire) (engine : Engine) (t : StoredTelegram) : String := wire.text (telegramJson wire engine t)

/-- The telegrams of a batch that are announced: those with a short text, one
of each text. -/
def announced (wire : Wire) (engine : Engine) (telegrams : List StoredTelegram) : List StoredTelegram :=
  collapse (announcement wire engine) (telegrams.filter fun t => announceable (announcement wire engine t))

theorem recordOf_labels {row : TelegramRow ℤ} (labels : Labels lookup row.toColumns t) :
    recordOf lookup row = [.of row t] := by
  obtain ⟨sourceName, at_source, named⟩ := labels.sourceName
  obtain ⟨destinationName, at_destination, named'⟩ := labels.destinationName
  simp only [recordOf, innerJoined_names labels.source, innerJoined_names labels.destination,
    innerJoined_names labels.telegramtype, innerJoined_names labels.direction, at_source, at_destination,
    joined_names named, joined_names named', List.bind_eq_flatMap, List.flatMap_cons, List.flatMap_nil,
    List.append_nil]
  rfl

theorem rowToJson_stores {row : TelegramRow ℤ} (stores : Stores engine lookup row.toColumns t) :
    rowToJson wire.timeZone (.of row t) = telegramJson wire engine t := by
  simp only [telegramJson, rowToJson, Fetched.of, storedRow, stores.timestamp, stores.payload, stores.dptMain,
    stores.dptSub, stores.value, stores.valueNumeric, stores.rawData, stores.dataSecure]

section
variable {α κ : Type} [DecidableEq κ] {key : α → κ} {kept items : List α}

theorem map_collapse (key : α → κ) (items : List α) : (collapse key items).map key = collapse id (items.map key) := by
  have general (kept : List α) :
      (items.foldl (fun kept item => if key item ∈ kept.map key then kept else kept ++ [item]) kept).map key =
        (items.map key).foldl (fun kept item => if id item ∈ kept.map id then kept else kept ++ [item])
          (kept.map key) := by
    induction items generalizing kept with
    | nil => rfl
    | cons item items ih =>
      rw [List.foldl_cons, ih, List.map_cons, List.foldl_cons, List.map_id, id]
      by_cases known : key item ∈ kept.map key
      · rw [if_pos known, if_pos known]
      · rw [if_neg known, if_neg known, List.map_append, List.map_singleton]
  exact general []

/-- Each key is left once, with the first item that has it. -/
theorem collapse_keys (key : α → κ) (items : List α) :
    ((collapse key items).map key).Nodup ∧ (∀ item ∈ collapse key items, item ∈ items) ∧
      ∀ item ∈ items, key item ∈ (collapse key items).map key := by
  induction items using List.reverseRecOn with
  | nil => exact ⟨.nil, nofun, nofun⟩
  | append_singleton items item ih =>
    obtain ⟨distinct, own, found⟩ := ih
    have last : collapse key (items ++ [item]) =
        if key item ∈ (collapse key items).map key then collapse key items else collapse key items ++ [item] := by
      rw [collapse, List.foldl_append]
      rfl
    rw [last]
    split
    · rename_i known
      refine ⟨distinct, fun other mem => List.mem_append_left _ (own other mem), fun other mem => ?_⟩
      rcases List.mem_append.mp mem with earlier | last
      · exact found other earlier
      · rw [List.mem_singleton.mp last]
        exact known
    · rename_i unknown
      refine ⟨?_, fun other mem => ?_, fun other mem => ?_⟩
      · rw [List.map_append]
        exact distinct.append (List.nodup_singleton _) (by simpa [List.disjoint_singleton] using unknown)
      · rcases List.mem_append.mp mem with earlier | last
        · exact List.mem_append_left _ (own other earlier)
        · exact List.mem_append_right _ last
      · rw [List.map_append, List.mem_append]
        rcases List.mem_append.mp mem with earlier | last
        · exact .inl (found other earlier)
        · rw [List.mem_singleton.mp last]
          exact .inr (List.mem_singleton_self _)

end

/-- The notifications of a transaction are the texts of its telegrams. -/
theorem notifications_eq {rows : List (TelegramRow ℤ)}
    (stores : List.Forall₂ (Stores engine lookup) (rows.map TelegramRow.toColumns) telegrams) :
    notifications wire lookup rows = (announced wire engine telegrams).map (announcement wire engine) := by
  have texts : ((rows.flatMap (recordOf lookup)).map fun record => wire.text (rowToJson wire.timeZone record)) =
      telegrams.map (announcement wire engine) := by
    rw [List.forall₂_map_left_iff] at stores
    induction stores with
    | nil => rfl
    | cons first _ ih =>
      rw [List.flatMap_cons, recordOf_labels first.labels, List.singleton_append, List.map_cons, List.map_cons, ih,
        rowToJson_stores first]
      rfl
  rw [notifications, texts, announced, map_collapse, List.filter_map]
  rfl

/-! ## What is heard of a telegram -/

/-- A telegram as a query returns it, in the form it is heard in. -/
def heard (timeZone : ℤ → ℤ) (t : StoredTelegram) : Received where
  timestamp :=
    { wall := t.timestamp.wall + timeZone t.timestamp.wall * 1000000
      tzinfo := some (.fixed (timeZone t.timestamp.wall * 1000000)) }
  source := .str t.source
  destination := .str t.destination
  telegramtype := .str t.telegramtype
  direction := .str t.direction
  payload := payloadJson t.payload
  dptMain := integerJson t.dptMain
  dptSub := integerJson t.dptSub
  value := t.value
  valueNumeric := doubleJson t.valueNumeric
  rawData := textJson t.rawData
  dataSecure := booleanJson t.dataSecure
  sourceName := .str t.sourceName
  destinationName := .str t.destinationName

/-- `json.loads` reads its announcement, and the writer's `TimeZone` shows its
instant in the years 1 to 9999. -/
structure Legible (wire : Wire) (engine : Engine) (t : StoredTelegram) : Prop where
  loads : wire.loads (announcement wire engine t) = some (telegramJson wire engine t)
  offset : (wire.timeZone (t.timestamp.toMicros engine.tzdb)).natAbs < 86400
  early : DateTime.minWall ≤
    t.timestamp.toMicros engine.tzdb + wire.timeZone (t.timestamp.toMicros engine.tzdb) * 1000000
  late : t.timestamp.toMicros engine.tzdb + wire.timeZone (t.timestamp.toMicros engine.tzdb) * 1000000 ≤
    DateTime.maxWall

theorem fromisoformat_timestampText {timeZone : ℤ → ℤ} {micros : ℤ} (offset : (timeZone micros).natAbs < 86400)
    (early : DateTime.minWall ≤ micros + timeZone micros * 1000000)
    (late : micros + timeZone micros * 1000000 ≤ DateTime.maxWall) :
    fromisoformat (.str (timestampText timeZone micros)) =
      some { wall := micros + timeZone micros * 1000000, tzinfo := some (.fixed (timeZone micros * 1000000)) } := by
  have span : Calendar.daysBeforeYear 10000 * 86400000000 = 315537897600000000 := rfl
  have back : ((micros + timeZone micros * 1000000 - DateTime.minWall).toNat : ℤ) + DateTime.minWall =
      micros + timeZone micros * 1000000 := by
    rw [Int.toNat_of_nonneg (by omega), Int.sub_add_cancel]
  obtain ⟨reading, own⟩ : ∃ reading : IsoFormat.Reading, reading =
      { wall := (micros + timeZone micros * 1000000 - DateTime.minWall).toNat
        offset := some (timeZone micros * 1000000) } := ⟨_, rfl⟩
  have read : IsoFormat.fromisoformat (IsoFormat.trimmed reading) = some reading := by
    apply IsoFormat.fromisoformat_trimmed
    · rw [own, span]
      simp only [DateTime.minWall, DateTime.maxWall] at early late ⊢
      omega
    · rw [own]
      rintro _ ⟨⟩
      omega
  rw [fromisoformat, timestampText, String.toList_ofList, ← own, read, Option.map_some, own]
  simp only [back, Option.map_some]

theorem orEmpty_str (s : String) : orEmpty (.str s) = .str s := by
  unfold orEmpty
  split
  · rfl
  · rename_i falsy
    by_cases empty : s = ""
    · rw [empty]
    · exact absurd (by simp [truthy, empty]) falsy

/-- Every key is there. -/
theorem getItem_rowToJson (timeZone : ℤ → ℤ) (record : Fetched ℤ) :
    (getItem "timestamp" (rowToJson timeZone record) = some (.str (timestampText timeZone record.row.timestamp)) ∧
      getItem "source" (rowToJson timeZone record) = some (textJson record.source) ∧
      getItem "destination" (rowToJson timeZone record) = some (textJson record.destination) ∧
      getItem "telegramtype" (rowToJson timeZone record) = some (textJson record.telegramtype) ∧
      getItem "direction" (rowToJson timeZone record) = some (textJson record.direction)) ∧
    (getItem "payload" (rowToJson timeZone record) = some (payloadJson record.row.payload) ∧
      getItem "dpt_main" (rowToJson timeZone record) = some (integerJson record.row.dptMain) ∧
      getItem "dpt_sub" (rowToJson timeZone record) = some (integerJson record.row.dptSub) ∧
      getItem "value" (rowToJson timeZone record) = some record.row.value ∧
      getItem "value_numeric" (rowToJson timeZone record) = some (doubleJson record.row.valueNumeric)) ∧
    getItem "raw_data" (rowToJson timeZone record) = some (textJson record.row.rawData) ∧
    getItem "data_secure" (rowToJson timeZone record) = some (booleanJson record.row.dataSecure) ∧
    getItem "source_name" (rowToJson timeZone record) = some (textJson record.sourceName) ∧
    getItem "destination_name" (rowToJson timeZone record) = some (textJson record.destinationName) :=
  ⟨⟨rfl, rfl, rfl, rfl, rfl⟩, ⟨rfl, rfl, rfl, rfl, rfl⟩, rfl, rfl, rfl, rfl⟩

/-- A legible announcement is heard as the telegram that a query returns. -/
theorem telegramFromNotifyPayload_announcement (legible : Legible wire engine t) :
    telegramFromNotifyPayload wire.loads (announcement wire engine t) =
      some (heard wire.timeZone (readBack engine t)) := by
  have read : fromisoformat (.str (timestampText wire.timeZone (Fetched.of (storedRow engine t) t).row.timestamp)) =
      some _ := fromisoformat_timestampText legible.offset legible.early legible.late
  have loaded := legible.loads
  obtain ⟨⟨timestamp, source, destination, telegramtype, direction⟩, ⟨payload, main, sub, value, numeric⟩, raw, secure,
    sourceName, destinationName⟩ := getItem_rowToJson wire.timeZone (.of (storedRow engine t) t)
  rw [telegramJson] at loaded
  generalize rowToJson wire.timeZone (.of (storedRow engine t) t) = data at *
  have next {α β : Type} {x : Option α} {a : α} (found : x = some a) (f : α → Option β) : (x >>= f) = f a := by
    rw [found]
    rfl
  rw [telegramFromNotifyPayload, next loaded, next timestamp, next read, next source, next destination,
    next telegramtype, next direction, next payload, next main, next sub, next value, next numeric, next raw,
    next secure, next sourceName, next destinationName]
  simp only [Fetched.of, textJson, orEmpty_str]
  rfl

/-- What JSON has for a FLOAT equals the float in Python. -/
def EqualsFloat : PyValue → Option PyFloat → Prop
  | .null, none => True
  | .int n, some (.number x) => (n : ℚ) = x
  | .float y, some x => y = x ∧ x ≠ .nan
  | _, _ => False

/-- It is missing, or neither NaN nor an infinity. -/
def Finite : Option PyFloat → Prop
  | none | some (.number _) => True
  | _ => False

/-- What is heard and what is queried are equal in Python, field by field. -/
structure Agrees (tzdb : TzDb) (received : Received) (t : StoredTelegram) : Prop where
  aware : received.timestamp.Aware ∧ t.timestamp.Aware
  instant : received.timestamp.toMicros tzdb = t.timestamp.toMicros tzdb
  source : received.source = .str t.source
  destination : received.destination = .str t.destination
  telegramtype : received.telegramtype = .str t.telegramtype
  direction : received.direction = .str t.direction
  payload : received.payload = payloadJson t.payload
  dptMain : received.dptMain = integerJson t.dptMain
  dptSub : received.dptSub = integerJson t.dptSub
  value : received.value = t.value
  valueNumeric : EqualsFloat received.valueNumeric t.valueNumeric
  rawData : received.rawData = textJson t.rawData
  dataSecure : received.dataSecure = booleanJson t.dataSecure
  sourceName : received.sourceName = .str t.sourceName
  destinationName : received.destinationName = .str t.destinationName

theorem equalsFloat_iff (x : Option PyFloat) : EqualsFloat (doubleJson x) x ↔ Finite x := by
  match x with
  | none => exact Iff.rfl
  | some .nan | some (.infinity false) | some (.infinity true) => exact Iff.rfl
  | some (.number x) =>
    refine iff_of_true ?_ trivial
    rw [doubleJson]
    split
    · rename_i whole
      exact Rat.coe_int_num_of_den_eq_one whole.1
    · exact ⟨rfl, nofun⟩

/-- What is heard of a telegram agrees with it, unless JSON has only a name for
its numeric value. -/
theorem heard_agrees_iff (timeZone : ℤ → ℤ) (engine : Engine) (t : StoredTelegram) :
    Agrees engine.tzdb (heard timeZone (readBack engine t)) (readBack engine t) ↔
      Finite (readBack engine t).valueNumeric := by
  rw [← equalsFloat_iff]
  constructor
  · exact fun agrees => agrees.valueNumeric
  · intro number
    have instant : (heard timeZone (readBack engine t)).timestamp.toMicros engine.tzdb =
        (readBack engine t).timestamp.toMicros engine.tzdb := by
      simp [heard, readBack, DateTime.toMicros, DateTime.ofMicros, TzInfo.utc, TzInfo.utcoffset]
    exact ⟨⟨rfl, rfl⟩, instant, rfl, rfl, rfl, rfl, rfl, rfl, rfl, rfl, number, rfl, rfl, rfl, rfl⟩

/-- **A notification says what a query says**, in another time zone perhaps,
exactly if the numeric value is finite: JSON has the name of any other. -/
theorem notification_agrees_iff (legible : Legible wire engine t) :
    ∃ received, telegramFromNotifyPayload wire.loads (announcement wire engine t) = some received ∧
      (Agrees engine.tzdb received (readBack engine t) ↔ Finite (readBack engine t).valueNumeric) :=
  ⟨_, telegramFromNotifyPayload_announcement legible, heard_agrees_iff _ engine t⟩

/-- A temperature of 21.5 degrees. -/
def liveTelegram : StoredTelegram :=
  { sampleTelegram with value := .float (.number (43 / 2)), valueNumeric := some (.number (43 / 2)) }

/-- Its notification in a session two hours ahead. -/
def liveText : String :=
  "\x7b\"timestamp\":\"1970-01-01T02:00:00+02:00\",\"source\":\"1.1.1\",\"destination\":\"1/2/3\"," ++
    "\"telegramtype\":\"GroupValueWrite\",\"direction\":\"Incoming\",\"source_name\":\"\"," ++
    "\"destination_name\":\"\",\"payload\":null,\"dpt_main\":null,\"dpt_sub\":null,\"value\":21.5," ++
    "\"value_numeric\":21.5,\"raw_data\":null,\"data_secure\":null\x7d"

def liveEngine : Engine := ⟨.postgres, fun _ _ _ => 0, sampleReals⟩

def liveWire : Wire where
  timeZone _ := 7200
  text _ := liveText
  loads text :=
    if text = liveText then
      some (rowToJson (fun _ => 7200) (.of (storedRow liveEngine liveTelegram) liveTelegram))
    else none

theorem liveTelegram_legible : Legible liveWire liveEngine liveTelegram := by
  refine ⟨?_, by decide, by decide, by decide⟩
  simp only [announcement, liveWire, if_true]
  rfl

theorem liveTelegram_agrees : ∃ received,
    telegramFromNotifyPayload liveWire.loads liveText = some received ∧
      Agrees liveEngine.tzdb received (readBack liveEngine liveTelegram) := by
  obtain ⟨received, read, agrees⟩ := notification_agrees_iff liveTelegram_legible
  exact ⟨received, read, agrees.mpr trivial⟩

/-! ## Runs -/

/-- What has been announced since a listener began is what it has taken from
its queue and what is still there. -/
def Listener.Follows (wire : Wire) (engine : Engine) (committed : List (List StoredTelegram)) (listener : Listener) :
    Prop :=
  ∃ taken, ((committed.drop listener.since).flatMap (announced wire engine)).map (announcement wire engine) =
      taken ++ listener.queue ∧
    taken.mapM (telegramFromNotifyPayload wire.loads) = some listener.yielded

structure Inv (wire : Wire) (engine : Engine) (c : Channel) : Prop where
  interned : Interned engine c.store
  stored : c.store.stored <:+ c.committed.flatten
  began : ∀ l listener, c.listeners l = some listener → listener.since ≤ c.committed.length
  follows : ∀ l listener, c.listeners l = some listener → listener.Follows wire engine c.committed

theorem Inv.init (wire : Wire) (engine : Engine) : Inv wire engine {} := by
  refine ⟨run_interned (show Store.run engine [] = some {} from rfl), List.suffix_refl [], ?_, ?_⟩
  · intro l listener found
    cases found
  · intro l listener found
    cases found

/-- A listener is put in place, or taken away. -/
theorem Inv.setListener (inv : Inv wire engine c) (l : ℕ) {slot : Option Listener}
    (sound : ∀ listener, slot = some listener →
      listener.since ≤ c.committed.length ∧ listener.Follows wire engine c.committed) :
    Inv wire engine (c.setListener l slot) := by
  have each (l' : ℕ) (listener : Listener) (found : (c.setListener l slot).listeners l' = some listener) :
      listener.since ≤ c.committed.length ∧ listener.Follows wire engine c.committed := by
    replace found : Function.update c.listeners l slot l' = some listener := found
    by_cases same : l' = l
    · rw [same, Function.update_self] at found
      exact sound listener found
    · rw [Function.update_of_ne same] at found
      exact ⟨inv.began l' listener found, inv.follows l' listener found⟩
  exact ⟨inv.interned, inv.stored, fun l' listener found => (each l' listener found).1,
    fun l' listener found => (each l' listener found).2⟩

theorem stored_of_commit {s s' : Store} {task : ℕ} {ids : IdSource}
    (taken : s.step engine (.commit task ids) = some s') : ∃ telegrams, s'.stored = s.stored ++ telegrams := by
  unfold Store.step at taken
  dsimp only at taken
  split at taken
  · split at taken <;> cases taken
    exact ⟨_, rfl⟩
  · cases taken

/-- No other step adds a telegram. -/
theorem stored_of_step {s s' : Store} {event : StoreEvent} (taken : s.step engine event = some s')
    (other : ∀ task ids, event ≠ .commit task ids) : s'.stored = s.stored ∨ s'.stored = [] := by
  cases event with
  | commit task ids => exact absurd rfl (other task ids)
  | begin task telegrams | rollback task | publish task =>
    unfold Store.step at taken
    dsimp only at taken
    split at taken <;> cases taken
    exact .inl rfl
  | clear =>
    cases taken
    exact .inr rfl
  | warm | restart =>
    cases taken
    exact .inl rfl

/-- A commit is announced to everyone who listens. -/
theorem Inv.commit (inv : Inv wire engine c) {store : Store} {task : ℕ} {ids : IdSource}
    (taken : c.store.step engine (.commit task ids) = some store) :
    Inv wire engine (c.follow wire store (.commit task ids)) := by
  have interned := inv.interned.step taken
  obtain ⟨telegrams, stored⟩ := stored_of_commit taken
  have new : store.stored.drop c.store.stored.length = telegrams := by rw [stored, List.drop_left]
  have texts : notifications wire store.db.lookup (store.db.telegrams.drop c.store.db.telegrams.length) =
      (announced wire engine telegrams).map (announcement wire engine) := by
    apply notifications_eq
    rw [List.map_drop, inv.interned.length, ← new]
    exact List.forall₂_drop _ interned.telegrams
  have each (l : ℕ) (listener : Listener)
      (found : (c.follow wire store (.commit task ids)).listeners l = some listener) :
      listener.since ≤ (c.committed ++ [telegrams]).length ∧
        listener.Follows wire engine (c.committed ++ [telegrams]) := by
    obtain ⟨before, kept, rfl⟩ := Option.map_eq_some_iff.mp found
    have began := inv.began l before kept
    obtain ⟨front, announced_, read⟩ := inv.follows l before kept
    refine ⟨began.trans (by simp), front, ?_, read⟩
    show ((((c.committed ++ [telegrams]).drop before.since).flatMap _).map _) = front ++ (before.queue ++ _)
    rw [List.drop_append_of_le_length began, List.flatMap_append, List.map_append, announced_, texts, List.append_assoc,
      List.flatMap_singleton]
  refine ⟨interned, ?_, fun l listener found => ?_, fun l listener found => ?_⟩
  · show store.stored <:+ (c.committed ++ [_]).flatten
    rw [new, stored, List.flatten_append, List.flatten_singleton]
    obtain ⟨front, same⟩ := inv.stored
    exact ⟨front, by rw [← same, List.append_assoc]⟩
  · show listener.since ≤ (c.committed ++ [_]).length
    rw [new]
    exact (each l listener found).1
  · show listener.Follows wire engine (c.committed ++ [_])
    rw [new]
    exact (each l listener found).2

theorem Inv.step (inv : Inv wire engine c) (taken : step wire engine c event = some c') : Inv wire engine c' := by
  cases event with
  | store event =>
    obtain ⟨store, stepped, rfl⟩ := Option.map_eq_some_iff.mp taken
    by_cases commits : ∃ task ids, event = .commit task ids
    · obtain ⟨task, ids, rfl⟩ := commits
      exact inv.commit stepped
    · have other : ∀ task ids, event ≠ .commit task ids := fun task ids same => commits ⟨task, ids, same⟩
      have still : c.follow wire store event = { c with store } := by
        cases event with
        | commit task ids => exact absurd rfl (other task ids)
        | _ => rfl
      rw [still]
      refine ⟨inv.interned.step stepped, ?_, inv.began, inv.follows⟩
      rcases stored_of_step stepped other with same | cleared
      · show store.stored <:+ _
        rw [same]
        exact inv.stored
      · show store.stored <:+ _
        rw [cleared]
        exact List.nil_suffix
  | listen l =>
    unfold Notify.step at taken
    dsimp only at taken
    split at taken
    · cases taken
      refine inv.setListener l fun listener new => ?_
      cases new
      refine ⟨le_rfl, [], ?_, rfl⟩
      rw [List.drop_length]
      rfl
    · cases taken
  | next l =>
    unfold Notify.step at taken
    dsimp only at taken
    split at taken
    · rename_i text queue yielded since found
      cases taken
      refine inv.setListener l fun listener new => ?_
      have began := inv.began l _ found
      obtain ⟨front, announced_, reads⟩ := inv.follows l _ found
      obtain ⟨telegram, read, rfl⟩ := Option.map_eq_some_iff.mp new
      refine ⟨began, front ++ [text], ?_, ?_⟩
      · rw [announced_, List.append_assoc]
        rfl
      · rw [List.mapM_append, reads]
        simp [read]
    · cases taken
  | stop l =>
    cases taken
    apply inv.setListener l
    intro listener new
    cases new

/-- **The feed is complete and in order.** Whatever transactions a store runs
at the same time, commits and rolls back, a listener yields the telegrams that
have been committed since it began, in the order of the commits and of their
batches, each once, as far as its queue has got, and each as a query would
return it, if its numeric value is finite; left out are those whose text is too
long, and of equal texts in one transaction all but one. -/
theorem feed_in_order (ran : run wire engine events = some c) {l : ℕ} {listener : Listener}
    (listening : c.listeners l = some listener)
    (legible : ∀ telegrams ∈ c.committed, ∀ t ∈ telegrams, Legible wire engine t) :
    c.store.stored <:+ c.committed.flatten ∧
      ∃ upcoming, listener.queue.mapM (telegramFromNotifyPayload wire.loads) = some upcoming ∧
        (listener.yielded ++ upcoming = ((c.committed.drop listener.since).flatMap (announced wire engine)).map fun t =>
          heard wire.timeZone (readBack engine t)) ∧
        ∀ t ∈ (c.committed.drop listener.since).flatten,
          (Agrees engine.tzdb (heard wire.timeZone (readBack engine t)) (readBack engine t) ↔
            Finite (readBack engine t).valueNumeric) := by
  have inv : Inv wire engine c := EventMachine.run_keeps (fun _ _ _ inv taken => Inv.step inv taken) (Inv.init ..) ran
  obtain ⟨front, announced_, reads⟩ := inv.follows l listener listening
  have all : ((front ++ listener.queue).mapM (telegramFromNotifyPayload wire.loads)) =
      some (((c.committed.drop listener.since).flatMap (announced wire engine)).map fun t =>
        heard wire.timeZone (readBack engine t)) := by
    rw [← announced_, List.mapM_map]
    refine mapM_eq_map fun t mem => telegramFromNotifyPayload_announcement ?_
    obtain ⟨telegrams, own, mem⟩ := List.mem_flatMap.mp mem
    have held := (collapse_keys _ _).2.1 t mem
    exact legible telegrams (List.mem_of_mem_drop own) t (List.mem_of_mem_filter held)
  rw [List.mapM_append, reads] at all
  simp only [Option.pure_def, Option.bind_eq_bind, Option.bind_some, Option.bind_eq_some_iff, Option.some.injEq] at all
  obtain ⟨upcoming, read, same⟩ := all
  exact ⟨inv.stored, upcoming, read, same, fun t _ => heard_agrees_iff _ engine t⟩

/-- A batch of the same telegram twice, between two listeners. -/
def liveEvents : List Event :=
  [.listen 0, .store (.begin 0 [liveTelegram, liveTelegram]), .store (.commit 0 .sqlite), .listen 1]

theorem announced_live : announced liveWire liveEngine [liveTelegram, liveTelegram] = [liveTelegram] := by
  have short : announceable (announcement liveWire liveEngine liveTelegram) = true := by
    show announceable liveText = true
    decide +kernel
  simp [announced, short, collapse]

theorem liveEvents_heard : ∃ c listener, run liveWire liveEngine liveEvents = some c ∧ c.listeners 0 = some listener ∧
    c.store.stored.length = 2 ∧
    ∃ upcoming, listener.queue.mapM (telegramFromNotifyPayload liveWire.loads) = some upcoming ∧
      listener.yielded ++ upcoming = [heard liveWire.timeZone (readBack liveEngine liveTelegram)] := by
  obtain ⟨c, listener, ran, listening, two, batches, since⟩ : ∃ c listener,
      run liveWire liveEngine liveEvents = some c ∧ c.listeners 0 = some listener ∧ c.store.stored.length = 2 ∧
      c.committed = [[liveTelegram, liveTelegram]] ∧ listener.since = 0 := ⟨_, _, rfl, rfl, rfl, rfl, rfl⟩
  obtain ⟨_, upcoming, read, same, _⟩ := feed_in_order ran listening fun telegrams own t mem => by
    rw [batches, List.mem_singleton] at own
    rw [own] at mem
    have one : t = liveTelegram := by simpa using mem
    rw [one]
    exact liveTelegram_legible
  refine ⟨c, listener, ran, listening, two, upcoming, read, ?_⟩
  rw [same, batches, since, List.drop_zero, List.flatMap_singleton, announced_live]
  rfl

end KnxTelegramStore.Postgres.Notify
