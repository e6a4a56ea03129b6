import KnxTelegramStore.Formats.LogTimestamp
import KnxTelegramStore.Lib.Markup

/-!
The reader and the writer of the `CommunicationLog` container
(`formats/ets_xml.py`). A text is a list of characters. What the writer has
written is read back record by record, whatever markup its texts contain
(`communication_log_round_trip`).
-/
namespace KnxTelegramStore.Formats
open EventMachine
open Markup (Reader Element Report Mode isXmlChar xmlns)
open Sqlite (FourDigitYear InRange)

/-- `RawTelegramRecord`. -/
structure RawTelegramRecord where
  timestamp : DateTime
  service : List Char
  rawData : List UInt8
  frameFormat : List Char := "CommonEmi".toList

/-- `KNX_TELEGRAM_NAMESPACE`. -/
def knxTelegramNamespace : List Char := "http://knx.org/xml/telegrams/01".toList

/-- `_TELEGRAM_TAG`. -/
def telegramTag : List Char := '{' :: knxTelegramNamespace ++ '}' :: "Telegram".toList

/-! ## Reading -/

/-- `\s+`, and what is behind it. -/
def skipBlanks (text : List Char) : Option (List Char) :=
  if text.head?.any isSpace then some (text.dropWhile isSpace) else none

/-- `_TIMEZONE_COMMENT` at the front of a text: the offset it declares, in
microseconds. -/
def timezoneAt (text : List Char) : Option ℤ := do
  let text ← text.dropPrefix? "timezone".toList
  let text ← skipBlanks text
  let text ← text.dropPrefix? "offset".toList
  let text ← skipBlanks text
  match text with
  | sign :: h₁ :: h₂ :: ':' :: m₁ :: m₂ :: _ =>
    if (sign = '+' ∨ sign = '-') ∧ [h₁, h₂, m₁, m₂].all Char.isDigit then
      some ((if sign = '+' then 1 else -1) *
        ((FixedWidth.value 0 [h₁, h₂] * 60 + FixedWidth.value 0 [m₁, m₂] : ℕ) * 60000000))
    else none
  | _ => none

/-- `_TIMEZONE_COMMENT.search`. -/
def timezoneComment (text : List Char) : Option ℤ := text.tails.findSome? timezoneAt

/-- The value of a hexadecimal digit. -/
def hexDigit (c : Char) : Option ℕ :=
  if c.isDigit then some (c.toNat - '0'.toNat)
  else if 'a' ≤ c ∧ c ≤ 'f' then some (c.toNat - 'a'.toNat + 10)
  else if 'A' ≤ c ∧ c ≤ 'F' then some (c.toNat - 'A'.toNat + 10)
  else none

def isAsciiSpace (c : Char) : Bool := c = ' ' || (9 ≤ c.toNat && c.toNat ≤ 13)

/-- `bytes.fromhex`; `none` is the `ValueError`. -/
def fromHex : List Char → Option (List UInt8)
  | [] => some []
  | [c] => if isAsciiSpace c then some [] else none
  | a :: b :: rest =>
    if isAsciiSpace a then fromHex (b :: rest)
    else do
      let high ← hexDigit a
      let low ← hexDigit b
      let bytes ← fromHex rest
      return UInt8.ofNat (high * 16 + low) :: bytes

/-- The loop of `iter_communication_log`, with its `utc_correction`; `none` is
an exception at any element. -/
def records (tzdb : TzDb) : ℤ → List Report → Option (List RawTelegramRecord)
  | _, [] => some []
  | utcCorrection, .comment text :: rest => records tzdb ((timezoneComment text).getD utcCorrection) rest
  | utcCorrection, .ended tag attributes :: rest =>
    if tag = telegramTag then do
      let timestamp ← attributes.lookup "Timestamp".toList
      let rawData ← attributes.lookup "RawData".toList
      let parsed ← parseTimestamp tzdb timestamp
      let timestamp ← parsed.add? (-utcCorrection)
      let rawData ← fromHex rawData
      let others ← records tzdb utcCorrection rest
      return {
        timestamp
        service := (attributes.lookup "Service".toList).getD "L_Data.ind".toList
        rawData
        frameFormat := (attributes.lookup "FrameFormat".toList).getD "CommonEmi".toList } :: others
    else records tzdb utcCorrection rest

/-- `iter_communication_log`. -/
def iterCommunicationLog (tzdb : TzDb) (source : List Char) : Option (List RawTelegramRecord) :=
  (Markup.read source).bind (records tzdb 0)

/-! ## Writing -/

/-- `COMMUNICATION_LOG_HEADER`. -/
def communicationLogHeader : List Char :=
  "<?xml version=\"1.0\" encoding=\"utf-8\"?>\n<CommunicationLog xmlns=\"".toList ++ knxTelegramNamespace
    ++ "\">\n".toList

/-- `COMMUNICATION_LOG_FOOTER`. -/
def communicationLogFooter : List Char := "</CommunicationLog>\n".toList

/-- `bytes.hex().upper()`. -/
def hexUpper (bytes : List UInt8) : List Char :=
  bytes.flatMap fun byte => [(Nat.digitChar (byte.toNat / 16)).toUpper, (Nat.digitChar (byte.toNat % 16)).toUpper]

/-- `format_telegram_element`; `none` is the `OverflowError`. -/
def formatTelegramElement (tzdb : TzDb) (connectionName : List Char) (record : RawTelegramRecord) :
    Option (List Char) :=
  let connectionAttr := if connectionName = [] then [] else " ConnectionName=".toList ++ Markup.quoteattr connectionName
  let serviceAttr := Markup.quoteattr record.service
  let frameFormatAttr := Markup.quoteattr record.frameFormat
  (formatTimestamp tzdb record.timestamp).map fun timestamp =>
    "  <Telegram Timestamp=".toList ++ ('"' :: timestamp ++ ['"'] ++ (connectionAttr ++
      (" Service=".toList ++ (serviceAttr ++ (" FrameFormat=".toList ++ (frameFormatAttr ++
        (" RawData=".toList ++ ('"' :: hexUpper record.rawData ++ ['"'] ++ " />\n".toList))))))))

/-- One turn of its loop: the destination with the element, and the count. -/
def writeRecord (tzdb : TzDb) (connectionName : List Char) (written : List Char × ℕ) (record : RawTelegramRecord) :
    Option (List Char × ℕ) :=
  (formatTelegramElement tzdb connectionName record).map fun element => (written.1 ++ element, written.2 + 1)

/-- `write_communication_log`: the text written, and the number returned. -/
def writeCommunicationLog (tzdb : TzDb) (connectionName : List Char) (log : List RawTelegramRecord) :
    Option (List Char × ℕ) :=
  (log.foldlM (writeRecord tzdb connectionName) (communicationLogHeader, 0)).map fun (destination, count) =>
    (destination ++ communicationLogFooter, count)

/-! ## Bytes -/

private theorem hexDigit_nibble {n : ℕ} (small : n < 16) :
    hexDigit (Nat.digitChar n).toUpper = some n ∧ isAsciiSpace (Nat.digitChar n).toUpper = false ∧
      (Nat.digitChar n).toUpper ∈ "0123456789ABCDEF".toList := by
  interval_cases n <;> decide

/-- Bytes are read back from their digits. -/
theorem fromHex_hexUpper (bytes : List UInt8) : fromHex (hexUpper bytes) = some bytes := by
  induction bytes with
  | nil => rfl
  | cons byte bytes ih =>
    have small : byte.toNat < 256 := byte.toNat_lt
    obtain ⟨high, solid, _⟩ := hexDigit_nibble (n := byte.toNat / 16) (by omega)
    obtain ⟨low, _⟩ := hexDigit_nibble (n := byte.toNat % 16) (by omega)
    have split : hexUpper (byte :: bytes) = (Nat.digitChar (byte.toNat / 16)).toUpper ::
        (Nat.digitChar (byte.toNat % 16)).toUpper :: hexUpper bytes := rfl
    have whole : byte.toNat / 16 * 16 + byte.toNat % 16 = byte.toNat := by omega
    simp only [split, fromHex, solid, high, low, ih, whole, Bool.false_eq_true, if_false, Option.bind_eq_bind,
      Option.bind_some, Option.pure_def, UInt8.ofNat_toNat]

theorem mem_hexUpper {bytes : List UInt8} {c : Char} (mem : c ∈ hexUpper bytes) : c ∈ "0123456789ABCDEF".toList := by
  obtain ⟨byte, _, own⟩ := List.mem_flatMap.mp mem
  have small : byte.toNat < 256 := byte.toNat_lt
  simp only [List.mem_cons, List.not_mem_nil, or_false] at own
  rcases own with rfl | rfl
  · exact (hexDigit_nibble (n := byte.toNat / 16) (by omega)).2.2
  · exact (hexDigit_nibble (n := byte.toNat % 16) (by omega)).2.2

/-! ## The markup of one record -/

variable {tzdb : TzDb} {reports : List Report} {connectionName timestamp : List Char} {record : RawTelegramRecord}

/-- A record whose timestamp is of a four-digit year and whose texts consist of
legal characters. -/
structure RawTelegramRecord.Writable (tzdb : TzDb) (record : RawTelegramRecord) : Prop where
  aware : record.timestamp.Aware
  year : FourDigitYear (record.timestamp.toMicros tzdb)
  service : record.service.all isXmlChar = true
  frameFormat : record.frameFormat.all isXmlChar = true

/-- The record with its timestamp in UTC. -/
def RawTelegramRecord.inUtc (tzdb : TzDb) (record : RawTelegramRecord) : RawTelegramRecord :=
  { record with timestamp := .ofMicros (record.timestamp.toMicros tzdb) }

/-- The attributes of a record. -/
def attributesOf (connectionName timestamp : List Char) (record : RawTelegramRecord) : List (List Char × List Char) :=
  ("Timestamp".toList, timestamp) ::
    ((if connectionName = [] then [] else [("ConnectionName".toList, connectionName)]) ++
      [("Service".toList, record.service), ("FrameFormat".toList, record.frameFormat),
        ("RawData".toList, hexUpper record.rawData)])

/-- The reader between two records. -/
def between (reports : List Report) : Reader :=
  ⟨.content, [(knxTelegramNamespace, ⟨"CommunicationLog".toList, [(xmlns, knxTelegramNamespace)]⟩)], reports⟩

/-- Characters of an attribute that mean nothing to the reader. -/
private theorem plain_of_mem {allowed : List Char} (text : List Char)
    (checked : allowed.all
      (fun c => isXmlChar c && c != '"' && c != '<' && c != '&' && !Markup.isBlank c && c != '\r') = true)
    (own : ∀ c ∈ text, c ∈ allowed) :
    (∀ c ∈ text, isXmlChar c = true ∧ c ≠ '"' ∧ (c ≠ '<' ∧ c ≠ '&') ∧ (Markup.isBlank c = true → c = ' ')) ∧
      '\r' ∉ text := by
  have each : ∀ c ∈ text, _ := fun c mem => List.all_eq_true.mp checked c (own c mem)
  simp only [Bool.and_eq_true, bne_iff_ne, ne_eq, Bool.not_eq_true'] at each
  refine ⟨fun c mem => ?_, fun mem => (each _ mem).2 rfl⟩
  obtain ⟨⟨⟨⟨⟨legal, quote⟩, less⟩, ampersand⟩, blank⟩, _⟩ := each c mem
  exact ⟨legal, quote, ⟨less, ampersand⟩, fun own => by rw [blank] at own; cases own⟩

/-- The characters of a timestamp. -/
theorem mem_formatTimestamp {d : DateTime} {c : Char} (written : formatTimestamp tzdb d = some timestamp)
    (mem : c ∈ timestamp) : c ∈ "0123456789-T:.Z".toList := by
  obtain ⟨utc, _, rfl⟩ := Option.map_eq_some_iff.mp written
  have digit {c : Char} (own : c.isDigit = true) : c ∈ "0123456789-T:.Z".toList := by
    simp only [Char.isDigit, Bool.and_eq_true, decide_eq_true_eq, ge_iff_le, UInt32.le_iff_toNat_le] at own
    have low : 48 ≤ c.toNat := own.1
    have high : c.toNat ≤ 57 := own.2
    rw [← Char.ofNat_toNat c]
    generalize c.toNat = n at low high
    interval_cases n <;> decide
  rcases List.mem_append.mp mem with own | own
  · rcases FixedWidth.mem_render own with own | ⟨field, held, own⟩
    · exact digit own
    · simp only [logLayout, List.mem_cons, List.not_mem_nil, or_false] at held
      rcases held with rfl | rfl | rfl | rfl | rfl | rfl | rfl <;> simp at own <;> rw [own] <;> decide
  · rw [List.mem_singleton.mp own]
    decide

/-- The end of an element that sets no namespace of its own. -/
private theorem ended_inLog (reports : List Report) {attributes : List (List Char × List Char)}
    (unset : attributes.any (·.1 = xmlns) = false) :
    Markup.ended ((between reports).space ⟨"Telegram".toList, attributes⟩) ⟨"Telegram".toList, attributes⟩ =
      .ended telegramTag attributes := by
  have other : ∀ entry ∈ attributes, entry.1 ≠ xmlns := by simpa using unset
  have space : (between reports).space ⟨"Telegram".toList, attributes⟩ = knxTelegramNamespace := by
    have none : attributes.lookup xmlns = none :=
      List.lookup_eq_none_iff.mpr fun entry mem => by simpa using Ne.symm (other entry mem)
    rw [Reader.space, none]
    rfl
  have kept : attributes.filter (·.1 ≠ xmlns) = attributes :=
    List.filter_eq_self.mpr fun entry mem => decide_eq_true (other entry mem)
  rw [space, Markup.ended, kept]
  rfl

/-- The fields of every record, behind whatever attributes come first. -/
private theorem run_fields {front : List (List Char × List Char)} {names : List (List Char)}
    (named : front.map Prod.fst = names)
    (unused : ∀ name ∈ ["Service".toList, "FrameFormat".toList, "RawData".toList, xmlns], name ∉ names)
    (service : record.service.all isXmlChar = true)
    (frameFormat : record.frameFormat.all isXmlChar = true) :
    run Markup.step { between reports with mode := .quoted ⟨"Telegram".toList, front⟩ }
      (" Service=".toList ++ (Markup.quoteattr record.service ++ (" FrameFormat=".toList ++
        (Markup.quoteattr record.frameFormat ++ (" RawData=".toList ++
          ('"' :: hexUpper record.rawData ++ ['"'] ++ " />\n".toList)))))) =
      some (between (reports ++ [.ended telegramTag (front ++ [("Service".toList, record.service),
        ("FrameFormat".toList, record.frameFormat), ("RawData".toList, hexUpper record.rawData)])])) := by
  have fresh : ∀ name ∈ ["Service".toList, "FrameFormat".toList, "RawData".toList, xmlns],
      front.any (·.1 = name) = false := by
    intro name mem
    refine List.any_eq_false.mpr fun entry held same => unused name mem ?_
    rw [← named, ← of_decide_eq_true same]
    exact List.mem_map_of_mem held
  obtain ⟨hex, _⟩ := plain_of_mem (hexUpper record.rawData) (by decide) fun c mem => mem_hexUpper mem
  have first := Markup.run_quoteattr (between reports) ⟨"Telegram".toList, front⟩ "Service".toList service
    (fresh "Service".toList (by decide))
  have second := Markup.run_quoteattr (between reports)
    ⟨"Telegram".toList, front ++ [("Service".toList, record.service)]⟩ "FrameFormat".toList frameFormat
    (by rw [List.any_append, fresh "FrameFormat".toList (by decide)]; rfl)
  have third := Markup.run_between (between reports)
    ⟨"Telegram".toList, front ++ [("Service".toList, record.service)] ++
      [("FrameFormat".toList, record.frameFormat)]⟩ "RawData".toList (.inl rfl)
    (by rw [List.any_append, List.any_append, fresh "RawData".toList (by decide)]; rfl) (Markup.run_plain hex)
  refine run_append.mpr ⟨_, rfl, run_append.mpr ⟨_, first, run_append.mpr ⟨_, rfl, run_append.mpr ⟨_, second,
    run_append.mpr ⟨_, rfl, run_append.mpr ⟨_, third, ?_⟩⟩⟩⟩⟩⟩
  -- the attributes as they have been appended
  generalize all : front ++ [("Service".toList, record.service), ("FrameFormat".toList, record.frameFormat),
    ("RawData".toList, hexUpper record.rawData)] = attributes
  have same : front ++ [("Service".toList, record.service)] ++ [("FrameFormat".toList, record.frameFormat)] ++
      [("RawData".toList, hexUpper record.rawData)] = attributes := by
    rw [← all, List.append_assoc, List.append_assoc]
    rfl
  have unset : attributes.any (·.1 = xmlns) = false := by
    rw [← all, List.any_append, fresh xmlns (by decide)]
    rfl
  dsimp only
  rw [List.nil_append, same, ← ended_inLog reports unset]
  rfl

/-- **One record** is read as an element with its attributes. -/
theorem run_element (reports : List Report) (written : formatTimestamp tzdb record.timestamp = some timestamp)
    (writable : record.Writable tzdb) (legal : connectionName.all isXmlChar = true) :
    ∃ element, formatTelegramElement tzdb connectionName record = some element ∧ '\r' ∉ element ∧
      run Markup.step (between reports) element =
        some (between (reports ++ [.ended telegramTag (attributesOf connectionName timestamp record)])) := by
  obtain ⟨time, time'⟩ := plain_of_mem timestamp (by decide) fun c mem => mem_formatTimestamp written mem
  obtain ⟨_, hex'⟩ := plain_of_mem (hexUpper record.rawData) (by decide) fun c mem => mem_hexUpper mem
  unfold formatTelegramElement
  simp only [written, Option.map_some]
  refine ⟨_, rfl, ?_, ?_⟩
  · have service := Markup.return_not_mem_quoteattr record.service
    have frameFormat := Markup.return_not_mem_quoteattr record.frameFormat
    have connection := Markup.return_not_mem_quoteattr connectionName
    have absent : '\r' ∉ (if connectionName = [] then [] else
        " ConnectionName=".toList ++ Markup.quoteattr connectionName) := by
      split
      · exact List.not_mem_nil
      · simp [connection]
    have quotedTime : '\r' ∉ '"' :: timestamp ++ ['"'] := by simp [time']
    have quotedHex : '\r' ∉ '"' :: hexUpper record.rawData ++ ['"'] := by simp [hex']
    exact List.not_mem_append (by decide) (List.not_mem_append quotedTime (List.not_mem_append absent
      (List.not_mem_append (by decide) (List.not_mem_append service (List.not_mem_append (by decide)
        (List.not_mem_append frameFormat (List.not_mem_append (by decide)
          (List.not_mem_append quotedHex (by decide)))))))))
  have stamped := Markup.run_between (between reports) ⟨"Telegram".toList, []⟩ "Timestamp".toList (.inl rfl) rfl
    (Markup.run_plain time)
  refine run_append.mpr ⟨_, rfl, run_append.mpr ⟨_, stamped, ?_⟩⟩
  -- the connection is left out when it has no name
  by_cases unnamed : connectionName = []
  · have front : [("Timestamp".toList, timestamp)].map Prod.fst = ["Timestamp".toList] := rfl
    simp only [unnamed, if_true, attributesOf, List.nil_append]
    exact run_fields front (by decide) writable.service writable.frameFormat
  · have front : [("Timestamp".toList, timestamp), ("ConnectionName".toList, connectionName)].map Prod.fst =
        ["Timestamp".toList, "ConnectionName".toList] := rfl
    have connected := Markup.run_quoteattr (between reports)
      ⟨"Telegram".toList, [("Timestamp".toList, timestamp)]⟩ "ConnectionName".toList legal rfl
    rw [if_neg unnamed, attributesOf, if_neg unnamed, List.append_assoc]
    refine run_append.mpr ⟨_, rfl, run_append.mpr ⟨_, connected, ?_⟩⟩
    exact run_fields front (by decide) writable.service writable.frameFormat

/-! ## A whole log -/

/-- The element of a record is read as the record. -/
theorem records_attributes (connectionName : List Char) {rest : List Report}
    (writable : record.Writable tzdb) (written : formatTimestamp tzdb record.timestamp = some timestamp) :
    records tzdb 0 (.ended telegramTag (attributesOf connectionName timestamp record) :: rest) =
      (records tzdb 0 rest).map (record.inUtc tzdb :: ·) := by
  obtain ⟨low, high⟩ := writable.year.inRange
  obtain ⟨text, same, read⟩ := LogText.exists_formatted writable.year.inRange
  obtain rfl := Option.some.inj (written.symm.trans same)
  have corrected : (DateTime.ofMicros (record.timestamp.toMicros tzdb)).add? (-0) =
      some (.ofMicros (record.timestamp.toMicros tzdb)) := by
    simp only [DateTime.add?, DateTime.ofMicros, Int.neg_zero, Int.add_zero]
    exact if_pos ⟨low, high⟩
  have fields : (attributesOf connectionName timestamp record).lookup "Timestamp".toList = some timestamp ∧
      (attributesOf connectionName timestamp record).lookup "RawData".toList = some (hexUpper record.rawData) ∧
      (attributesOf connectionName timestamp record).lookup "Service".toList = some record.service ∧
      (attributesOf connectionName timestamp record).lookup "FrameFormat".toList = some record.frameFormat := by
    unfold attributesOf
    split
    · exact ⟨rfl, rfl, rfl, rfl⟩
    · exact ⟨rfl, rfl, rfl, rfl⟩
  obtain ⟨stamp, data, service, frameFormat⟩ := fields
  rw [records, if_pos rfl, stamp, data, service, frameFormat]
  simp only [Option.bind_eq_bind, Option.bind_some, read, corrected, fromHex_hexUpper, Option.getD_some,
    Option.pure_def]
  cases records tzdb 0 rest <;> rfl

/-- The elements of a log, one after the other: what is written for them, and
how that is read. -/
theorem exists_body (tzdb : TzDb) (legal : connectionName.all isXmlChar = true) {log : List RawTelegramRecord}
    (writable : ∀ record ∈ log, record.Writable tzdb) (destination : List Char) (count : ℕ) (reports : List Report) :
    ∃ body elements,
      log.foldlM (writeRecord tzdb connectionName) (destination, count) = some
        (destination ++ body, count + log.length) ∧
      '\r' ∉ body ∧ run Markup.step (between reports) body = some (between (reports ++ elements)) ∧
      ∀ rest, records tzdb 0 (elements ++ rest) = (records tzdb 0 rest).map
        (log.map (RawTelegramRecord.inUtc tzdb) ++ ·) := by
  induction log generalizing destination count reports with
  | nil =>
    exact ⟨[], [], by simp, List.not_mem_nil, by simp [run], fun rest => by simp⟩
  | cons record log ih =>
    have own := writable record List.mem_cons_self
    obtain ⟨timestamp, written, _⟩ := LogText.exists_formatted own.year.inRange
    obtain ⟨element, formatted, plain, ran⟩ := run_element reports written own legal
    obtain ⟨body, elements, folded, plain', ran', read⟩ :=
      ih (fun record mem => writable record (List.mem_cons_of_mem _ mem)) (destination ++ element) (count + 1)
        (reports ++ [.ended telegramTag (attributesOf connectionName timestamp record)])
    refine ⟨element ++ body, .ended telegramTag (attributesOf connectionName timestamp record) :: elements, ?_,
      List.not_mem_append plain plain', run_append.mpr ⟨_, ran, ?_⟩, fun rest => ?_⟩
    · rw [List.foldlM_cons, writeRecord, formatted, Option.map_some, Option.bind_eq_bind, Option.bind_some, folded]
      simp only [List.append_assoc, List.length_cons, Nat.add_assoc, Nat.add_comm 1]
    · rw [ran', List.append_assoc]
      rfl
    · rw [List.cons_append, records_attributes connectionName own written, read]
      cases records tzdb 0 rest <;> rfl

/-- **A communication log is read back** as it was written: the records in
their order, each timestamp as the same instant in UTC, whatever the connection
is named; and the number of records is returned. -/
theorem communication_log_round_trip (tzdb : TzDb) {log : List RawTelegramRecord} {connectionName : List Char}
    (writable : ∀ record ∈ log, record.Writable tzdb) (legal : connectionName.all isXmlChar = true) :
    ∃ text, writeCommunicationLog tzdb connectionName log = some (text, log.length) ∧
      iterCommunicationLog tzdb text = some (log.map (RawTelegramRecord.inUtc tzdb)) := by
  obtain ⟨body, elements, folded, plain, ran, read⟩ := exists_body tzdb legal writable communicationLogHeader 0 []
  refine ⟨communicationLogHeader ++ body ++ communicationLogFooter, ?_, ?_⟩
  · rw [writeCommunicationLog, folded, Option.map_some, Nat.zero_add]
  · have plain : '\r' ∉ communicationLogHeader ++ body ++ communicationLogFooter :=
      List.not_mem_append (List.not_mem_append (by decide +kernel) plain) (by decide)
    have whole : run Markup.step ⟨.content, [], []⟩ (communicationLogHeader ++ body ++ communicationLogFooter) =
        some ⟨.content, [], elements ++ [Markup.ended knxTelegramNamespace
          ⟨"CommunicationLog".toList, [(xmlns, knxTelegramNamespace)]⟩]⟩ := by
      have header : run Markup.step ⟨.content, [], []⟩ communicationLogHeader = some (between []) :=
        run_append.mpr ⟨_, run_append.mpr ⟨_, rfl, rfl⟩, rfl⟩
      refine run_append.mpr ⟨_, run_append.mpr ⟨between [], header, ran⟩, ?_⟩
      rfl
    have rest : records tzdb 0 [Markup.ended knxTelegramNamespace
        ⟨"CommunicationLog".toList, [(xmlns, knxTelegramNamespace)]⟩] = some [] := rfl
    rw [iterCommunicationLog, Markup.read, Markup.lineFeeds_eq plain, whole, Option.bind_some,
      Option.bind_some, read, rest]
    simp

/-- A service and a connection full of markup. -/
theorem markup_round_trip :
    ∃ text, writeCommunicationLog (fun _ _ _ => 0) "<!-- timezone offset +01:00 -->".toList
        [{ timestamp := ⟨0, false, some (.fixed 7200000000)⟩, service := "\"&<'\n".toList, rawData := [41, 0, 188] }] =
        some (text, 1) ∧
      iterCommunicationLog (fun _ _ _ => 0) text = some
        [{ timestamp := .ofMicros (-7200000000), service := "\"&<'\n".toList, rawData := [41, 0, 188] }] := by
  have year : FourDigitYear (-7200000000) := by
    have days : Calendar.daysBeforeYear 1000 = 364877 := rfl
    unfold FourDigitYear DateTime.minWall DateTime.maxWall
    omega
  refine communication_log_round_trip (fun _ _ _ => 0) (fun record mem => ?_) (by decide +kernel)
  rw [List.mem_singleton.mp mem]
  exact ⟨rfl, year, by decide, by decide⟩

end KnxTelegramStore.Formats
