import KnxTelegramStore.Formats.LogTimestamp
import KnxTelegramStore.Lib.IsoFormat
import KnxTelegramStore.Query.Memory

/-!
The MCP tool `query_telegrams` (`mcp/tools.py`) over a `MemoryStore`. It takes
its filters and gives its telegrams as JSON values, so each field has a writer
and a reader of its own: the timestamp, the DPT and the telegram type.
`query_of_summary` says that they fit: what a summary of a stored telegram
shows, taken as a filter, selects that telegram.
-/
namespace KnxTelegramStore.Mcp
open FixedWidth (value value_append value_zeros span_append)
open Formats (isSpace strip strip_append isSpace_of_isDigit)
open Paging

variable {tzdb : TzDb}

/-! ## `mcp/types.py` -/

structure QueryTelegramsInput where
  startTime : Option String := none
  endTime : Option String := none
  sources : List String := []
  destinations : List String := []
  telegramTypes : List String := []
  directions : List String := []
  dptMains : List ℤ := []
  dpts : List String := []
  deltaBeforeMs : ℤ := 0
  deltaAfterMs : ℤ := 0
  limit : ℤ := 100
  offset : ℤ := 0
  orderDescending : Bool := true

structure TelegramSummary where
  timestamp : String
  source : String
  destination : String
  telegramtype : String
  direction : String
  dpt : Option String
  value : PyValue
  valueNumeric : Option PyFloat
  rawData : Option String
  sourceName : String
  destinationName : String

structure QueryTelegramsResult where
  telegrams : List TelegramSummary
  totalCount : ℕ
  offset : ℤ
  nextOffset : Option ℤ
  limitReached : Bool

/-- What `query_telegrams` raises: a `ValueError` about a field, with the value
its message quotes, or what the store raises. -/
inductive QueryError where
  | limit
  | offset
  | timestamp (value : String)
  | dpt (entry : String)
  | store
  deriving DecidableEq

/-! ## Timestamps -/

/-- `value.replace("Z", "+00:00")`. -/
def zuluAsOffset (text : List Char) : List Char :=
  text.flatMap fun c => if c = 'Z' then ['+', '0', '0', ':', '0', '0'] else [c]

/-- The datetime of a reading. -/
def ofReading (reading : IsoFormat.Reading) : DateTime where
  wall := reading.wall + DateTime.minWall
  tzinfo := reading.offset.map .fixed

/-- `_parse_dt`. -/
def parseDt : Option String → Except QueryError (Option DateTime)
  | none => .ok none
  | some value =>
    match IsoFormat.fromisoformat (zuluAsOffset value.toList) with
    | some reading => .ok (some (ofReading reading))
    | none => .error (.timestamp value)

/-- `datetime.isoformat`. -/
def isoformat (tzdb : TzDb) (dt : DateTime) : String :=
  String.ofList (IsoFormat.isoformat {
    wall := (dt.wall - DateTime.minWall).toNat
    offset := dt.tzinfo.map fun tz => tz.utcoffset tzdb dt.wall dt.fold })

/-- `_iso`. -/
def iso (tzdb : TzDb) (dt : DateTime) : String :=
  if dt.tzinfo = none then isoformat tzdb { dt with tzinfo := some .utc } else isoformat tzdb dt

/-! ## Telegram types -/

/-- `_TYPE_ALIASES`. -/
def typeAliases : List (String × String) :=
  [("write", "GroupValueWrite"), ("read", "GroupValueRead"), ("response", "GroupValueResponse")]

/-- `telegram_type.strip().lower()`. The lower case of the ASCII letters is
enough, since no other character has one of the letters of an alias for its
lower case. -/
def aliasOf (telegramType : String) : String := String.ofList ((strip telegramType.toList).map Char.toLower)

/-- `_normalize_type`. -/
def normalizeType (telegramType : String) : String :=
  (typeAliases.lookup (aliasOf telegramType)).getD telegramType

/-- A full name: no alias, whatever its case and the blanks around it. -/
def IsFullName (telegramType : String) : Prop := aliasOf telegramType ∉ typeAliases.map Prod.fst

instance : DecidablePred IsFullName := fun telegramType =>
  inferInstanceAs (Decidable (aliasOf telegramType ∉ typeAliases.map Prod.fst))

/-! ## DPTs -/

/-- The zeros of the scripts that have decimal digits; their other nine digits
follow. -/
def zeros : List ℕ :=
  [0x30, 0x660, 0x6F0, 0x7C0, 0x966, 0x9E6, 0xA66, 0xAE6, 0xB66, 0xBE6, 0xC66, 0xCE6, 0xD66, 0xDE6, 0xE50, 0xED0,
    0xF20, 0x1040, 0x1090, 0x17E0, 0x1810, 0x1946, 0x19D0, 0x1A80, 0x1A90, 0x1B50, 0x1BB0, 0x1C40, 0x1C50, 0xA620,
    0xA8D0, 0xA900, 0xA9D0, 0xA9F0, 0xAA50, 0xABF0, 0xFF10, 0x104A0, 0x10D30, 0x11066, 0x110F0, 0x11136, 0x111D0,
    0x112F0, 0x11450, 0x114D0, 0x11650, 0x116C0, 0x11730, 0x118E0, 0x11950, 0x11C50, 0x11D50, 0x11DA0, 0x11F50,
    0x16A60, 0x16AC0, 0x16B50, 0x1D7CE, 0x1D7D8, 0x1D7E2, 0x1D7EC, 0x1D7F6, 0x1E140, 0x1E2F0, 0x1E4F0, 0x1E950,
    0x1FBF0]

/-- The value of a decimal digit. -/
def decimal? (c : Char) : Option ℕ :=
  (zeros.find? fun first => first ≤ c.toNat ∧ c.toNat < first + 10).map (c.toNat - ·)

/-- `text.isdigit()` and `int(text)`. Digits that are not decimal, such as
superscripts, pass the first and are refused by the second. -/
def number (text : List Char) : Option ℕ :=
  if text = [] then none else text.foldlM (fun n c => (decimal? c).map (n * 10 + ·)) 0

/-- A main type, and behind the first point its subtype. -/
def dptOf? (text : List Char) : Option (ℤ × Option ℤ) := do
  let main ← number (text.takeWhile (· ≠ '.'))
  match text.dropWhile (· ≠ '.') with
  | [] => return (main, none)
  | _ :: sub => return (main, some (← number sub))

/-- `_parse_dpt`. -/
def parseDpt (entry : String) : Except QueryError (ℤ × Option ℤ) :=
  match dptOf? (strip entry.toList) with
  | some dpt => .ok dpt
  | none => .error (.dpt entry)

/-- `f"{n:0{width}d}"`; the width counts the sign. -/
def zeroPadded (width : ℕ) (n : ℤ) : List Char :=
  let sign := if n < 0 then ['-'] else []
  sign ++ (Nat.toDigits 10 n.natAbs).leftpad (width - sign.length) '0'

/-- `_format_dpt`. -/
def formatDpt : Option ℤ → Option ℤ → Option String
  | none, _ => none
  | some main, none => some (String.ofList (zeroPadded 0 main))
  | some main, some sub => some (String.ofList (zeroPadded 0 main ++ '.' :: zeroPadded 3 sub))

/-! ## The tool -/

/-- `_validate_pagination`. -/
def validatePagination (input : QueryTelegramsInput) : Except QueryError Unit :=
  if ¬ (1 ≤ input.limit ∧ input.limit ≤ 1000) then .error .limit
  else if input.offset < 0 then .error .offset
  else .ok ()

/-- `_summarize`. -/
def summarize (tzdb : TzDb) (t : StoredTelegram) : TelegramSummary where
  timestamp := iso tzdb t.timestamp
  source := t.source
  destination := t.destination
  telegramtype := t.telegramtype
  direction := t.direction
  dpt := formatDpt t.dptMain t.dptSub
  value := t.value
  valueNumeric := t.valueNumeric
  rawData := t.rawData
  sourceName := t.sourceName
  destinationName := t.destinationName

/-- The `TelegramQuery` of an input. -/
def telegramQuery (input : QueryTelegramsInput) : Except QueryError TelegramQuery := do
  let dpts ← input.dpts.mapM parseDpt
  let startTime ← parseDt input.startTime
  let endTime ← parseDt input.endTime
  return {
    sources := input.sources
    destinations := input.destinations
    telegramTypes := input.telegramTypes.map normalizeType
    directions := input.directions
    dptMains := input.dptMains
    dpts, startTime, endTime
    deltaBeforeMs := input.deltaBeforeMs
    deltaAfterMs := input.deltaAfterMs
    limit := input.limit.toNat
    offset := input.offset.toNat
    orderDescending := input.orderDescending }

/-- `query_telegrams`. -/
def queryTelegrams (tzdb : TzDb) (store : MemoryStore) (input : QueryTelegramsInput) :
    Except QueryError QueryTelegramsResult := do
  validatePagination input
  let query ← telegramQuery input
  match store.query tzdb query with
  | none => .error .store
  | some result => return {
      telegrams := result.telegrams.map (summarize tzdb)
      totalCount := result.totalCount
      offset := input.offset
      nextOffset := if result.limitReached then some (input.offset + input.limit) else none
      limitReached := result.limitReached }

/-! ## What is refused -/

/-- What is wrong where an error is raised. -/
def QueryError.Concerns (tzdb : TzDb) (store : MemoryStore) (input : QueryTelegramsInput) : QueryError → Prop
  | .limit => input.limit < 1 ∨ 1000 < input.limit
  | .offset => input.offset < 0
  | .timestamp value => (input.startTime = some value ∨ input.endTime = some value) ∧
      IsoFormat.fromisoformat (zuluAsOffset value.toList) = none
  | .dpt entry => entry ∈ input.dpts ∧ dptOf? (strip entry.toList) = none
  | .store => ∃ query, telegramQuery input = .ok query ∧ store.query tzdb query = none

theorem mapM_error {α β ε : Type} {f : α → Except ε β} {xs : List α} {error : ε}
    (failed : xs.mapM f = .error error) :
    ∃ x ∈ xs, f x = .error error := by
  induction xs with
  | nil => cases failed
  | cons x xs ih =>
    rw [List.mapM_cons] at failed
    cases first : f x with
    | error raised =>
      rw [first] at failed
      cases failed
      exact ⟨x, List.mem_cons_self, first⟩
    | ok y =>
      cases rest : xs.mapM f with
      | error raised =>
        rw [first, rest] at failed
        cases failed
        obtain ⟨x', mem, raises⟩ := ih rest
        exact ⟨x', List.mem_cons_of_mem _ mem, raises⟩
      | ok ys =>
        rw [first, rest] at failed
        cases failed

theorem parseDt_error {text : Option String} {error : QueryError} (failed : parseDt text = .error error) :
    ∃ value, text = some value ∧ error = .timestamp value ∧
      IsoFormat.fromisoformat (zuluAsOffset value.toList) = none := by
  unfold parseDt at failed
  split at failed
  · cases failed
  · rename_i value
    split at failed
    · cases failed
    · rename_i unread
      cases failed
      exact ⟨value, rfl, rfl, unread⟩

theorem parseDpt_error {entry : String} {error : QueryError} (failed : parseDpt entry = .error error) :
    error = .dpt entry ∧ dptOf? (strip entry.toList) = none := by
  unfold parseDpt at failed
  split at failed
  · cases failed
  · rename_i unread
    cases failed
    exact ⟨rfl, unread⟩

/-- **Every error names what it was raised for**: a page that is out of range,
a text of the input that cannot be read, or a query the store refuses. -/
theorem queryTelegrams_error {store : MemoryStore} {input : QueryTelegramsInput} {error : QueryError}
    (failed : queryTelegrams tzdb store input = .error error) : error.Concerns tzdb store input := by
  cases checked : validatePagination input with
  | error raised =>
    rw [queryTelegrams, checked] at failed
    cases failed
    unfold validatePagination at checked
    split at checked
    · rename_i outside
      cases checked
      have range : input.limit < 1 ∨ 1000 < input.limit := by omega
      exact range
    · split at checked
      · rename_i negative
        cases checked
        exact negative
      · cases checked
  | ok _ =>
    cases parsed : telegramQuery input with
    | ok query =>
      rw [queryTelegrams, checked, parsed] at failed
      cases answered : store.query tzdb query with
      | none =>
        simp only [bind, Except.bind, answered] at failed
        cases failed
        exact ⟨query, parsed, answered⟩
      | some result =>
        simp only [bind, Except.bind, answered] at failed
        cases failed
    | error raised =>
      rw [queryTelegrams, checked, parsed] at failed
      cases failed
      simp only [telegramQuery] at parsed
      cases dpts : input.dpts.mapM parseDpt with
      | error raised =>
        rw [dpts] at parsed
        cases parsed
        obtain ⟨entry, mem, raises⟩ := mapM_error dpts
        obtain ⟨rfl, unread⟩ := parseDpt_error raises
        exact ⟨mem, unread⟩
      | ok _ =>
        cases started : parseDt input.startTime with
        | error raised =>
          rw [dpts, started] at parsed
          cases parsed
          obtain ⟨value, given, rfl, unread⟩ := parseDt_error started
          exact ⟨.inl given, unread⟩
        | ok _ =>
          cases ended : parseDt input.endTime with
          | error raised =>
            rw [dpts, started, ended] at parsed
            cases parsed
            obtain ⟨value, given, rfl, unread⟩ := parseDt_error ended
            exact ⟨.inr given, unread⟩
          | ok _ =>
            rw [dpts, started, ended] at parsed
            cases parsed

/-! ## What is written is read -/

theorem zuluAsOffset_of_notMem {text : List Char} (absent : 'Z' ∉ text) : zuluAsOffset text = text := by
  have kept : text.flatMap (fun c => if c = 'Z' then ['+', '0', '0', ':', '0', '0'] else [c]) =
      text.flatMap fun c => [c] := by
    refine List.flatMap_congr fun c mem => if_neg ?_
    rintro rfl
    exact absent mem
  rw [zuluAsOffset, kept, List.flatMap_singleton']

/-- A written timestamp is read as the same clock with the offset that the
datetime had there. -/
theorem parseDt_iso {dt : DateTime} (aware : dt.Aware) (valid : dt.Valid tzdb) :
    parseDt (some (iso tzdb dt)) = .ok (some { wall := dt.wall, tzinfo := some (.fixed (dt.utcoffset tzdb)) }) := by
  obtain ⟨tz, zoned⟩ := Option.isSome_iff_exists.mp aware
  have offset : dt.utcoffset tzdb = tz.utcoffset tzdb dt.wall dt.fold := by
    rw [DateTime.utcoffset, zoned]
  have span : Calendar.daysBeforeYear 10000 * 86400000000 = 315537897600000000 := rfl
  have bounds := valid.range
  have size := valid.offset
  simp only [DateTime.minWall, DateTime.maxWall] at bounds
  obtain ⟨reading, own⟩ : ∃ reading : IsoFormat.Reading, reading =
      { wall := (dt.wall - DateTime.minWall).toNat, offset := some (dt.utcoffset tzdb) } := ⟨_, rfl⟩
  have written : iso tzdb dt = String.ofList (IsoFormat.isoformat reading) := by
    rw [iso, if_neg (by rw [zoned]; exact Option.some_ne_none tz), isoformat, zoned, own, offset, Option.map_some]
  have absent : 'Z' ∉ IsoFormat.isoformat reading := by
    intro mem
    rcases IsoFormat.isoformat_chars mem with digit | separator
    · cases digit
    · revert separator
      decide
  have read : IsoFormat.fromisoformat (IsoFormat.isoformat reading) = some reading := by
    refine IsoFormat.fromisoformat_isoformat ?_ ?_
    · rw [own, span]
      simp only [DateTime.minWall]
      omega
    · rw [own]
      rintro _ ⟨⟩
      exact size
  have wall : ((dt.wall - DateTime.minWall).toNat : ℤ) + DateTime.minWall = dt.wall := by
    rw [Int.toNat_of_nonneg (by simp only [DateTime.minWall]; omega), Int.sub_add_cancel]
  simp only [parseDt, written, String.toList_ofList, zuluAsOffset_of_notMem absent, read, ofReading]
  simp only [own, wall, Option.map_some]

theorem normalizeType_full {telegramType : String} (full : IsFullName telegramType) :
    normalizeType telegramType = telegramType := by
  have unknown : typeAliases.lookup (aliasOf telegramType) = none := by
    rw [List.lookup_eq_none_iff]
    intro entry mem
    rw [bne_iff_ne]
    intro same
    exact full (same ▸ List.mem_map_of_mem mem)
  rw [normalizeType, unknown, Option.getD_none]

theorem decimal?_of_isDigit {c : Char} (digit : c.isDigit = true) : decimal? c = some (c.toNat - '0'.toNat) := by
  simp only [Char.isDigit, Bool.and_eq_true, decide_eq_true_eq, ge_iff_le, UInt32.le_iff_toNat_le] at digit
  have low : 0x30 ≤ c.toNat := digit.1
  have high : c.toNat < 0x30 + 10 := Nat.lt_succ_of_le digit.2
  have ascii : zeros.find? (fun first => decide (first ≤ c.toNat ∧ c.toNat < first + 10)) = some 0x30 :=
    List.find?_cons_of_pos (decide_eq_true ⟨low, high⟩)
  rw [decimal?, ascii]
  rfl

theorem number_digits {text : List Char} (digits : ∀ c ∈ text, c.isDigit = true) (some_ : text ≠ []) :
    number text = some (Nat.ofDigitChars 10 text 0) := by
  have spelled (n : ℕ) : text.foldlM (fun n c => (decimal? c).map (n * 10 + ·)) n =
      some (Nat.ofDigitChars 10 text n) := by
    clear some_
    induction text generalizing n with
    | nil => rfl
    | cons c text ih =>
      rw [List.foldlM_cons, decimal?_of_isDigit (digits c List.mem_cons_self), Option.map_some, Option.bind_eq_bind,
        Option.bind_some, ih fun d mem => digits d (List.mem_cons_of_mem _ mem), Nat.ofDigitChars_cons, mul_comm]
  rw [number, if_neg some_, spelled]

/-- A number that is not negative is written in digits. -/
theorem isDigit_zeroPadded {width n : ℕ} {c : Char} (mem : c ∈ zeroPadded width n) : c.isDigit = true := by
  rw [zeroPadded, if_neg (Int.not_lt.mpr (Int.natCast_nonneg n)), Int.natAbs_natCast, List.nil_append,
    List.leftpad, List.mem_append, List.mem_replicate] at mem
  rcases mem with ⟨_, rfl⟩ | digit
  · rfl
  · exact Nat.isDigit_of_mem_toDigits (by decide) (by decide) digit

theorem number_zeroPadded (width n : ℕ) : number (zeroPadded width n) = some n := by
  have split : zeroPadded width n =
      List.replicate (width - 0 - (Nat.toDigits 10 n).length) '0' ++ Nat.toDigits 10 n := by
    rw [zeroPadded, if_neg (Int.not_lt.mpr (Int.natCast_nonneg n)), Int.natAbs_natCast]
    rfl
  have some_ : zeroPadded width n ≠ [] := by
    rw [split]
    exact List.append_ne_nil_of_right_ne_nil _ Nat.toDigits_ne_nil
  rw [number_digits (fun c mem => isDigit_zeroPadded mem) some_, split, Nat.ofDigitChars_append,
    Nat.ofDigitChars_replicate_zero, Nat.mul_zero, Nat.ofDigitChars_ten_toDigits]

theorem not_point_of_isDigit {c : Char} (digit : c.isDigit = true) : decide (c ≠ '.') = true :=
  decide_eq_true (Formats.ne_of_isDigit digit rfl)

/-- A text is taken apart behind the digits of its main type. -/
theorem split_main (main : ℕ) (rest : List Char) (point : ∀ c ∈ rest.head?, c = '.')
    (solid : ∀ c ∈ rest, isSpace c = false) :
    strip (zeroPadded 0 main ++ rest) = zeroPadded 0 main ++ rest ∧
      (zeroPadded 0 main ++ rest).takeWhile (· ≠ '.') = zeroPadded 0 main ∧
      (zeroPadded 0 main ++ rest).dropWhile (· ≠ '.') = rest := by
  have parts := span_append rest (fun c (mem : c ∈ zeroPadded 0 main) => not_point_of_isDigit (isDigit_zeroPadded mem))
    (fun c first => by rw [point c first]; rfl)
  refine ⟨?_, parts.1, parts.2⟩
  have some_ : zeroPadded 0 main ≠ [] := by
    intro none
    have read := number_zeroPadded 0 main
    rw [none] at read
    cases read
  have own : ∀ c ∈ zeroPadded 0 main ++ rest, isSpace c = false := by
    intro c mem
    rcases List.mem_append.mp mem with digit | behind
    · exact isSpace_of_isDigit (isDigit_zeroPadded digit)
    · exact solid c behind
  have blank : strip ([] ++ (zeroPadded 0 main ++ rest ++ [])) = zeroPadded 0 main ++ rest :=
    strip_append ⟨rfl, rfl⟩ own (List.append_ne_nil_of_left_ne_nil some_ rest)
  rwa [List.nil_append, List.append_nil] at blank

/-- A written DPT is read back, whatever number of digits its parts have. -/
theorem parseDpt_formatDpt {main : ℤ} {sub : Option ℤ} (positive : 0 ≤ main) (positive' : ∀ n ∈ sub, 0 ≤ n) :
    ∃ entry, formatDpt (some main) sub = some entry ∧ parseDpt entry = .ok (main, sub) := by
  obtain ⟨main, rfl⟩ := Int.eq_ofNat_of_zero_le positive
  cases sub with
  | none =>
    obtain ⟨stripped, front, back⟩ := split_main main [] nofun nofun
    rw [List.append_nil] at stripped front back
    refine ⟨_, rfl, ?_⟩
    simp only [parseDpt, dptOf?, String.toList_ofList, stripped, front, back, number_zeroPadded, Option.bind_eq_bind,
      Option.bind_some]
    rfl
  | some sub =>
    obtain ⟨sub, rfl⟩ := Int.eq_ofNat_of_zero_le (positive' sub rfl)
    obtain ⟨stripped, front, back⟩ := split_main main ('.' :: zeroPadded 3 sub)
      (fun c first => (Option.some.inj first).symm) fun c mem => by
        rcases List.mem_cons.mp mem with rfl | digit
        · rfl
        · exact isSpace_of_isDigit (isDigit_zeroPadded digit)
    refine ⟨_, rfl, ?_⟩
    simp only [parseDpt, dptOf?, String.toList_ofList, stripped, front, back, number_zeroPadded, Option.bind_eq_bind,
      Option.bind_some]
    rfl

/-! ## What a query finds -/

/-- A page of what was found. -/
def page (tzdb : TzDb) (found : List StoredTelegram) (offset limit : ℤ) : QueryTelegramsResult where
  telegrams := (slice offset.toNat limit.toNat found).map (summarize tzdb)
  totalCount := found.length
  offset := offset
  nextOffset := if offset.toNat + limit.toNat < found.length then some (offset + limit) else none
  limitReached := offset.toNat + limit.toNat < found.length

/-- A query is made of fields that were all read. -/
theorem telegramQuery_ok {input : QueryTelegramsInput} {query : TelegramQuery}
    (parsed : telegramQuery input = .ok query) :
    parseDt input.startTime = .ok query.startTime ∧ parseDt input.endTime = .ok query.endTime ∧
      ∀ offset limit, telegramQuery { input with offset, limit } =
        .ok { query with offset := offset.toNat, limit := limit.toNat } := by
  simp only [telegramQuery] at parsed ⊢
  cases dpts : input.dpts.mapM parseDpt with
  | error error =>
    rw [dpts] at parsed
    cases parsed
  | ok dpts' =>
    cases started : parseDt input.startTime with
    | error error =>
      rw [dpts, started] at parsed
      cases parsed
    | ok startTime =>
      cases ended : parseDt input.endTime with
      | error error =>
        rw [dpts, started, ended] at parsed
        cases parsed
      | ok endTime =>
        rw [dpts, started, ended] at parsed
        cases parsed
        exact ⟨rfl, rfl, fun _ _ => rfl⟩

/-- A bound that is read has a fixed offset, if it has one. -/
theorem parseDt_fixed {text : Option String} {d : DateTime} (parsed : parseDt text = .ok (some d)) (aware : d.Aware) :
    ∃ offset, d.tzinfo = some (.fixed offset) := by
  unfold parseDt at parsed
  split at parsed
  · cases parsed
  · split at parsed
    · rename_i reading read
      cases parsed
      obtain ⟨tz, zoned⟩ := Option.isSome_iff_exists.mp aware
      obtain ⟨offset, _, same⟩ := Option.map_eq_some_iff.mp zoned
      exact ⟨offset, zoned.trans (congrArg some same.symm)⟩
    · cases parsed

open Classical in
/-- The pages of a query without a window are cut out of the telegrams it
selects. -/
theorem queryTelegrams_selects {store : MemoryStore} {input : QueryTelegramsInput} {query : TelegramQuery}
    (aware : ∀ t ∈ store.telegrams, t.timestamp.Aware) (parsed : telegramQuery input = .ok query)
    (bare : ¬ query.HasWindow) (bounds : ∀ d, query.startTime = some d ∨ query.endTime = some d → d.Aware) :
    ∃ found : List StoredTelegram, found.Perm (store.telegrams.filter fun t => query.Selects tzdb t) ∧
      ∀ offset limit, 0 ≤ offset → 1 ≤ limit → limit ≤ 1000 →
        queryTelegrams tzdb store { input with offset, limit } = .ok (page tzdb found offset limit) := by
  obtain ⟨startTime, endTime, paged⟩ := telegramQuery_ok parsed
  have started : ∀ start ∈ query.startTime, ∀ t ∈ store.telegrams,
      DateTime.le? tzdb start t.timestamp = some (decide (start.toMicros tzdb ≤ t.instant tzdb)) := by
    intro start bound t mem
    have zoned := bounds start (.inl bound)
    obtain ⟨offset, fixed⟩ := parseDt_fixed (startTime.trans (congrArg Except.ok bound)) zoned
    exact DateTime.le?_of_offset zoned (aware t mem) (DateTime.utcoffset_of_fixed fixed)
  have ended : ∀ stop ∈ query.endTime, ∀ t ∈ store.telegrams,
      DateTime.le? tzdb t.timestamp stop = some (decide (t.instant tzdb ≤ stop.toMicros tzdb)) := by
    intro stop bound t mem
    have zoned := bounds stop (.inr bound)
    obtain ⟨offset, fixed⟩ := parseDt_fixed (endTime.trans (congrArg Except.ok bound)) zoned
    exact DateTime.le?_of_offset (aware t mem) zoned fun equal =>
      (DateTime.utcoffset_of_fixed fixed equal.symm).symm
  obtain ⟨found, perm, answered⟩ := MemoryStore.query_selects aware bare started ended
  refine ⟨found, perm, fun offset limit positive first last => ?_⟩
  have valid : validatePagination { input with offset, limit } = .ok () := by
    rw [validatePagination, if_neg (not_not.mpr ⟨first, last⟩), if_neg (Int.not_lt.mpr positive)]
  rw [queryTelegrams, valid, paged]
  simp only [bind, Except.bind, answered]
  simp only [page, decide_eq_true_eq]
  rfl

/-! ## Summaries as filters -/

/-- Which fields of a summary are taken as filters. -/
structure Chosen where
  startTime : Bool := false
  endTime : Bool := false
  source : Bool := false
  destination : Bool := false
  telegramtype : Bool := false
  direction : Bool := false
  dpt : Bool := false

/-- The filters with the values of a summary. -/
def TelegramSummary.filters (summary : TelegramSummary) (chosen : Chosen) (orderDescending : Bool) :
    QueryTelegramsInput where
  startTime := if chosen.startTime then some summary.timestamp else none
  endTime := if chosen.endTime then some summary.timestamp else none
  sources := if chosen.source then [summary.source] else []
  destinations := if chosen.destination then [summary.destination] else []
  telegramTypes := if chosen.telegramtype then [summary.telegramtype] else []
  directions := if chosen.direction then [summary.direction] else []
  dpts := if chosen.dpt then summary.dpt.toList else []
  orderDescending := orderDescending

/-- `u` shows what `t` shows, as far as the chosen fields tell. -/
structure Alike (tzdb : TzDb) (chosen : Chosen) (t u : StoredTelegram) : Prop where
  startTime : chosen.startTime → t.instant tzdb ≤ u.instant tzdb
  endTime : chosen.endTime → u.instant tzdb ≤ t.instant tzdb
  source : chosen.source → u.source = t.source
  destination : chosen.destination → u.destination = t.destination
  telegramtype : chosen.telegramtype → u.telegramtype = t.telegramtype
  direction : chosen.direction → u.direction = t.direction
  dpt : chosen.dpt → ∀ main ∈ t.dptMain, u.dptMain = some main ∧ ∀ sub ∈ t.dptSub, u.dptSub = some sub

theorem Alike.refl (chosen : Chosen) (t : StoredTelegram) : Alike tzdb chosen t t where
  startTime _ := le_rfl
  endTime _ := le_rfl
  source _ := rfl
  destination _ := rfl
  telegramtype _ := rfl
  direction _ := rfl
  dpt _ _ main := ⟨main, fun _ sub => sub⟩

theorem Alike.instant {chosen : Chosen} {t u : StoredTelegram} (alike : Alike tzdb chosen t u)
    (start : chosen.startTime) (stop : chosen.endTime) : u.instant tzdb = t.instant tzdb :=
  le_antisymm (alike.endTime stop) (alike.startTime start)

/-- The query those filters are read as. -/
def likeQuery (tzdb : TzDb) (chosen : Chosen) (t : StoredTelegram) (orderDescending : Bool) : TelegramQuery where
  startTime := if chosen.startTime then
    some { wall := t.timestamp.wall, tzinfo := some (.fixed (t.timestamp.utcoffset tzdb)) } else none
  endTime := if chosen.endTime then
    some { wall := t.timestamp.wall, tzinfo := some (.fixed (t.timestamp.utcoffset tzdb)) } else none
  sources := if chosen.source then [t.source] else []
  destinations := if chosen.destination then [t.destination] else []
  telegramTypes := if chosen.telegramtype then [t.telegramtype] else []
  directions := if chosen.direction then [t.direction] else []
  dpts := if chosen.dpt then (t.dptMain.map fun main => (main, t.dptSub)).toList else []
  limit := 100
  orderDescending := orderDescending

/-- A telegram whose summary has a field for each of its own. -/
structure Shown (tzdb : TzDb) (t : StoredTelegram) : Prop where
  timestamp : t.timestamp.Valid tzdb
  telegramtype : IsFullName t.telegramtype
  dptMain : ∀ main ∈ t.dptMain, 0 ≤ main
  dptSub : ∀ sub ∈ t.dptSub, 0 ≤ sub

theorem telegramQuery_filters {t : StoredTelegram} (aware : t.timestamp.Aware) (shown : Shown tzdb t)
    (chosen : Chosen) (orderDescending : Bool) :
    telegramQuery ((summarize tzdb t).filters chosen orderDescending) = .ok
      (likeQuery tzdb chosen t orderDescending) := by
  have bound (taken : Bool) : parseDt (if taken then some (iso tzdb t.timestamp) else none) = .ok (if taken then
      some { wall := t.timestamp.wall, tzinfo := some (.fixed (t.timestamp.utcoffset tzdb)) } else none) := by
    cases taken
    · rfl
    · exact parseDt_iso aware shown.timestamp
  have dpts : (if chosen.dpt then (formatDpt t.dptMain t.dptSub).toList else []).mapM parseDpt =
      .ok (if chosen.dpt then (t.dptMain.map fun main => (main, t.dptSub)).toList else []) := by
    cases chosen.dpt
    · rfl
    · cases main : t.dptMain with
      | none => rfl
      | some n =>
        obtain ⟨entry, written, read⟩ := parseDpt_formatDpt (shown.dptMain n main) shown.dptSub
        rw [written]
        simp only [if_true, Option.toList_some, Option.map_some, List.mapM_cons, List.mapM_nil, read]
        rfl
  have types : (if chosen.telegramtype then [t.telegramtype] else []).map normalizeType =
      if chosen.telegramtype then [t.telegramtype] else [] := by
    cases chosen.telegramtype
    · rfl
    · exact congrArg (fun name => [name]) (normalizeType_full shown.telegramtype)
  simp only [telegramQuery, TelegramSummary.filters, summarize, dpts, bound, types]
  rfl

/-- A filter with the one value or none. -/
private theorem one_value {taken : Bool} {x y : String} :
    (if taken then [x] else []) = [] ∨ y ∈ (if taken then [x] else []) ↔ (taken → y = x) := by
  cases taken <;> simp

/-- Those filters select exactly what shows the same. -/
theorem selects_likeQuery {chosen : Chosen} {t u : StoredTelegram} {orderDescending : Bool} :
    (likeQuery tzdb chosen t orderDescending).Selects tzdb u ↔ Alike tzdb chosen t u := by
  have bound (taken : Bool) (P : ℤ → Prop) : (∀ d ∈ (if taken then
      some { wall := t.timestamp.wall, tzinfo := some (.fixed (t.timestamp.utcoffset tzdb)) } else none),
      P (DateTime.toMicros tzdb d)) ↔ (taken → P (t.instant tzdb)) := by
    have same : DateTime.toMicros tzdb
        { wall := t.timestamp.wall, tzinfo := some (.fixed (t.timestamp.utcoffset tzdb)) } = t.instant tzdb :=
      (DateTime.toMicros_eq t.timestamp).symm
    cases taken
    · simp
    · simp [same]
  have dpts : ((likeQuery tzdb chosen t orderDescending).dptMains = [] ∧
      (likeQuery tzdb chosen t orderDescending).dpts = []) ∨ (likeQuery tzdb chosen t orderDescending).SelectsDpt u ↔
      (chosen.dpt → ∀ main ∈ t.dptMain, u.dptMain = some main ∧ ∀ sub ∈ t.dptSub, u.dptSub = some sub) := by
    simp only [likeQuery, TelegramQuery.SelectsDpt]
    cases chosen.dpt
    · simp
    · cases t.dptMain with
      | none => simp
      | some main => simp
  constructor
  · intro selects
    exact {
      startTime := (bound chosen.startTime (· ≤ u.instant tzdb)).mp selects.startTime
      endTime := (bound chosen.endTime (u.instant tzdb ≤ ·)).mp selects.endTime
      source := one_value.mp selects.sources
      destination := one_value.mp selects.destinations
      telegramtype := one_value.mp selects.telegramTypes
      direction := one_value.mp selects.directions
      dpt := dpts.mp selects.dpts }
  · intro alike
    exact {
      startTime := (bound chosen.startTime (· ≤ u.instant tzdb)).mpr alike.startTime
      endTime := (bound chosen.endTime (u.instant tzdb ≤ ·)).mpr alike.endTime
      sources := one_value.mpr alike.source
      destinations := one_value.mpr alike.destination
      telegramTypes := one_value.mpr alike.telegramtype
      directions := one_value.mpr alike.direction
      dpts := dpts.mpr alike.dpt }

open Classical in
/-- **A summary selects its telegram.** Whatever fields of the summary of a
stored telegram are taken as filters, every page is cut out of the stored
telegrams that show the same in those fields, and the telegram is one of
them. -/
theorem query_of_summary {store : MemoryStore} (aware : ∀ u ∈ store.telegrams, u.timestamp.Aware) {t : StoredTelegram}
    (mem : t ∈ store.telegrams) (shown : Shown tzdb t) (chosen : Chosen) (orderDescending : Bool) :
    ∃ found : List StoredTelegram, found.Perm (store.telegrams.filter fun u => Alike tzdb chosen t u) ∧ t ∈ found ∧
      (chosen.dpt → ∀ main ∈ t.dptMain, ∀ u ∈ found,
        u.dptMain = some main ∧ ∀ sub ∈ t.dptSub, u.dptSub = some sub) ∧
      (chosen.startTime → chosen.endTime → ∀ u ∈ found, u.instant tzdb = t.instant tzdb) ∧
      ∀ offset limit, 0 ≤ offset → 1 ≤ limit → limit ≤ 1000 →
        queryTelegrams tzdb store { (summarize tzdb t).filters chosen orderDescending with offset, limit } =
          .ok (page tzdb found offset limit) := by
  have zoned : ∀ d, (likeQuery tzdb chosen t orderDescending).startTime = some d ∨
      (likeQuery tzdb chosen t orderDescending).endTime = some d → d.Aware := by
    rintro d (bound | bound)
    · cases (Option.ite_none_right_eq_some.mp bound).2
      rfl
    · cases (Option.ite_none_right_eq_some.mp bound).2
      rfl
  have bare : ¬ (likeQuery tzdb chosen t orderDescending).HasWindow := by
    rintro (before | after)
    · exact lt_irrefl _ before
    · exact lt_irrefl _ after
  obtain ⟨found, perm, answered⟩ := queryTelegrams_selects aware
    (telegramQuery_filters (aware t mem) shown chosen orderDescending) bare zoned
  have same : (store.telegrams.filter fun u => (likeQuery tzdb chosen t orderDescending).Selects tzdb u) =
      store.telegrams.filter fun u => Alike tzdb chosen t u :=
    List.filter_congr fun u _ => decide_eq_decide.mpr selects_likeQuery
  rw [same] at perm
  have own {u : StoredTelegram} : u ∈ found ↔ u ∈ store.telegrams ∧ Alike tzdb chosen t u := by
    rw [perm.mem_iff, List.mem_filter, decide_eq_true_eq]
  refine ⟨found, perm, own.mpr ⟨mem, Alike.refl chosen t⟩, fun taken main given u held => ?_,
    fun start stop u held => ?_, answered⟩
  · exact (own.mp held).2.dpt taken main given
  · exact (own.mp held).2.instant start stop

/-- Two temperatures of one instant. -/
def temperatures : MemoryStore where
  maxTelegrams := 10
  telegrams := [
    { timestamp := { wall := 1767272400500000, tzinfo := some (.fixed 3600000000) }, source := "1.1.1",
      destination := "1/1/1", telegramtype := "GroupValueWrite", direction := "Incoming", dptMain := some 9,
      dptSub := some 1 },
    { timestamp := { wall := 1767268800500000, tzinfo := some .utc }, source := "1.1.2",
      destination := "1/1/2", telegramtype := "GroupValueWrite", direction := "Incoming", dptMain := some 9,
      dptSub := some 7 }]

/-- The first of them, found again by its time and its DPT. -/
theorem query_of_temperature :
    ∃ found : List StoredTelegram,
      (∀ u ∈ found, u.dptMain = some 9 ∧ u.dptSub = some 1 ∧ u.instant (fun _ _ _ => 0) = 1767268800500000) ∧
      queryTelegrams (fun _ _ _ => 0) temperatures {
          startTime := some "2026-01-01T13:00:00.500000+01:00"
          endTime := some "2026-01-01T13:00:00.500000+01:00"
          dpts := ["9.001"] } =
        .ok (page (fun _ _ _ => 0) found 0 100) := by
  have aware : ∀ u ∈ temperatures.telegrams, u.timestamp.Aware := by
    simp [temperatures, DateTime.Aware]
  obtain ⟨found, _, _, dpt, time, pages⟩ := query_of_summary aware List.mem_cons_self
    (⟨⟨by decide, by decide⟩, by decide, by simp, by simp⟩ : Shown (fun _ _ _ => 0) _)
    { startTime := true, endTime := true, dpt := true } true
  refine ⟨found, fun u own => ⟨(dpt rfl 9 rfl u own).1, (dpt rfl 9 rfl u own).2 1 rfl, ?_⟩, ?_⟩
  · rw [time rfl rfl u own]
    rfl
  · rw [← pages 0 100 le_rfl (by decide) (by decide)]
    rfl

end KnxTelegramStore.Mcp
