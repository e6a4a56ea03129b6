import KnxTelegramStore.Lib.Calendar
import Mathlib.Data.List.DropRight

/-!
Python's `datetime.isoformat` and `datetime.fromisoformat`. The reader takes
calendar and week dates, any separator before the time, times to the hour,
minute, second or fraction, with colons or without, and UTC offsets of the same
forms; the writer uses one of them, and is read back (`fromisoformat_isoformat`).
-/
namespace IsoFormat
open FixedWidth

/-- What a text states: a reading of the clock, in microseconds from the
beginning of the year 1 on, and the UTC offset of that clock. -/
structure Reading where
  wall : ℕ
  offset : Option ℤ
  deriving DecidableEq

/-! ## Reading -/

/-- So many digits, and what is behind them. -/
def takeNumber (width : ℕ) (text : List Char) : Option (ℕ × List Char) :=
  if (text.take width).length = width ∧ (text.take width).all Char.isDigit then
    some (value 0 (text.take width), text.drop width) else none

/-- What is behind a separator, in a form with separators. -/
def skip (separator : Char) (separated : Bool) (text : List Char) : Option (List Char) :=
  if separated then
    match text with
    | c :: rest => if c = separator then some rest else none
    | [] => none
  else some text

/-- The days before the Monday of the first week of a year; day 0 is a
Monday. -/
def daysBeforeWeeks (year : ℕ) : ℕ :=
  let first := Calendar.daysBeforeYear year
  first - first % 7 + if 3 < first % 7 then 7 else 0

/-- A year has 53 weeks if it begins on a Thursday, or on a Wednesday if it is
a leap year. -/
def weeksIn (year : ℕ) : ℕ :=
  let first := Calendar.daysBeforeYear year % 7
  if first = 3 ∨ (first = 2 ∧ Calendar.IsLeap year) then 53 else 52

/-- The days before a day of a week. -/
def weekDate (year week day : ℕ) : Option ℕ :=
  let days := daysBeforeWeeks year + (week - 1) * 7 + (day - 1)
  if 0 < year ∧ 0 < week ∧ week ≤ weeksIn year ∧ 0 < day ∧ day < 8 ∧ days < Calendar.daysBeforeYear 10000 then
    some days else none

/-- The days before a day of a month. -/
def calendarDate (year month day : ℕ) : Option ℕ :=
  if Calendar.IsDate year month day then some (Calendar.seconds year month day 0 0 0 / 86400) else none

/-- `YYYY-MM-DD`, `YYYY-Www-D` and `YYYY-Www`, with their hyphens or
without. -/
def date (text : List Char) : Option ℕ := do
  let (year, rest) ← takeNumber 4 text
  let separated := rest.head? = some '-'
  match ← skip '-' separated rest with
  | 'W' :: rest =>
    let (week, rest) ← takeNumber 2 rest
    if rest = [] then weekDate year week 1
    else do
      let (day, rest) ← takeNumber 1 (← skip '-' separated rest)
      if rest = [] then weekDate year week day else none
  | rest =>
    let (month, rest) ← takeNumber 2 rest
    let (day, rest) ← takeNumber 2 (← skip '-' separated rest)
    if rest = [] then calendarDate year month day else none

/-- Where the date ends. Between a week and digits that could be its day, the
number of the digits decides. -/
def dateLength (text : List Char) : Option ℕ :=
  if text.length < 7 then none
  else if text.length = 7 then some 7
  else if text[4]? = some '-' then
    if text[5]? = some 'W' then
      if text[8]? = some '-' then
        if text.length = 9 then none
        else if text[10]?.any Char.isDigit then some 8 else some 10
      else some 8
    else some 10
  else if text[4]? = some 'W' then
    let digits := 7 + ((text.drop 7).takeWhile Char.isDigit).length
    if digits < 9 then some digits else if digits % 2 = 0 then some 7 else some 8
  else some 8

/-- The microseconds of a fraction, which may have any number of digits. -/
def fraction : List Char → Option ℕ
  | [] => some 0
  | point :: digits =>
    if (point = '.' ∨ point = ',') ∧ digits ≠ [] ∧ digits.all Char.isDigit then
      some (value 0 (digits.take 6) * 10 ^ (6 - (digits.take 6).length)) else none

/-- `HH[:MM[:SS[.f]]]`, with its colons or without. -/
def clock (text : List Char) : Option (ℕ × ℕ × ℕ × ℕ) := do
  let (hour, rest) ← takeNumber 2 text
  let separated := rest.head? = some ':'
  if rest = [] then some (hour, 0, 0, 0)
  else do
    let (minute, rest) ← takeNumber 2 (← skip ':' separated rest)
    if rest = [] then some (hour, minute, 0, 0)
    else do
      let (second, rest) ← takeNumber 2 (← skip ':' separated rest)
      (fraction rest).map fun micro => (hour, minute, second, micro)

def micros : ℕ × ℕ × ℕ × ℕ → ℕ
  | (hour, minute, second, micro) => ((hour * 60 + minute) * 60 + second) * 1000000 + micro

/-- An offset behind its sign, of less than a day. -/
def utcoffset (negative : Bool) (text : List Char) : Option ℤ := do
  let fields ← clock text
  if micros fields < 86400000000 then some (if negative then -micros fields else micros fields) else none

/-- What an offset begins with. -/
def isZoneMark (c : Char) : Bool := c = '+' || c = '-' || c = 'Z'

/-- What is behind the time of day. -/
def zone : List Char → Option (Option ℤ)
  | [] => some none
  | 'Z' :: rest => if rest = [] then some (some 0) else none
  | mark :: rest => (utcoffset (mark = '-') rest).map some

/-- A time of day, perhaps with an offset. -/
def time (text : List Char) : Option (ℕ × Option ℤ) := do
  let (hour, minute, second, micro) ← clock (text.takeWhile fun c => !isZoneMark c)
  if hour < 24 ∧ minute < 60 ∧ second < 60 then
    (zone (text.dropWhile fun c => !isZoneMark c)).map fun offset => (micros (hour, minute, second, micro), offset)
  else none

/-- `datetime.fromisoformat`; `none` is the `ValueError`. -/
def fromisoformat (text : List Char) : Option Reading := do
  let length ← dateLength text
  let days ← date (text.take length)
  if text.length = length then some { wall := days * 86400000000, offset := none }
  else (time (text.drop (length + 1))).map fun (clock, offset) => { wall := days * 86400000000 + clock, offset }

/-! ## Writing -/

/-- A fraction of six digits, if it is not zero. -/
def fractionText (micro : ℕ) : List Char := if micro = 0 then [] else '.' :: digits 6 micro

/-- `HH:MM[:SS[.ffffff]]`. -/
def sizeText (n : ℕ) : List Char :=
  if n % 60000000 = 0 then render [(2, [':']), (2, [])] [n / 3600000000, n / 60000000 % 60]
  else render [(2, [':']), (2, [':']), (2, [])] [n / 3600000000, n / 60000000 % 60, n / 1000000 % 60] ++
    fractionText (n % 1000000)

/-- An offset with its sign. -/
def offsetText (offset : ℤ) : List Char := (if offset < 0 then '-' else '+') :: sizeText offset.natAbs

/-- `datetime.isoformat`. -/
def isoformat (reading : Reading) : List Char :=
  render [(4, ['-']), (2, ['-']), (2, ['T']), (2, [':']), (2, [':']), (2, [])] (Calendar.fields reading.wall) ++
    (fractionText (reading.wall % 1000000) ++ (reading.offset.map offsetText).getD [])

/-! ## What is written is read -/

theorem takeNumber_digits {width n : ℕ} (fits : n < 10 ^ width) (rest : List Char) :
    takeNumber width (digits width n ++ rest) = some (n, rest) := by
  have front : (digits width n ++ rest).take width = digits width n := List.take_left' (length_digits width n)
  have back : (digits width n ++ rest).drop width = rest := List.drop_left' (length_digits width n)
  rw [takeNumber, front, back, if_pos ⟨length_digits width n, isDigit_digits width n⟩, value_digits,
    Nat.mod_eq_of_lt fits, Nat.zero_mul, Nat.zero_add]

theorem takeNumber_two {n : ℕ} (fits : n < 100) (rest : List Char) :
    takeNumber 2 (digits 2 n ++ rest) = some (n, rest) := takeNumber_digits fits rest

theorem fraction_fractionText {micro : ℕ} (small : micro < 1000000) : fraction (fractionText micro) = some micro := by
  unfold fractionText
  split
  · rename_i zero
    rw [zero]
    rfl
  · have whole : (digits 6 micro).take 6 = digits 6 micro := List.take_of_length_le (by simp)
    have spelled : value 0 (digits 6 micro) = micro := by
      rw [value_digits, Nat.zero_mul, Nat.zero_add]
      exact Nat.mod_eq_of_lt small
    rw [fraction, if_pos ⟨.inl rfl, List.cons_ne_nil _ _, isDigit_digits 6 micro⟩, whole, spelled, length_digits,
      Nat.sub_self, pow_zero, mul_one]

theorem fractionText_unmarked (micro : ℕ) : ∀ c ∈ fractionText micro, c = '.' ∨ c.isDigit = true := by
  unfold fractionText
  split
  · exact nofun
  · intro c mem
    rcases List.mem_cons.mp mem with rfl | digit
    · exact .inl rfl
    · exact .inr (List.all_eq_true.mp (isDigit_digits 6 micro) c digit)

theorem clock_seconds {hour minute second micro : ℕ} {text : List Char} (hours : hour < 100) (minutes : minute < 100)
    (seconds : second < 100) (spelled : fraction text = some micro) :
    clock (render [(2, [':']), (2, [':']), (2, [])] [hour, minute, second] ++ text) =
      some (hour, minute, second, micro) := by
  have whole : render [(2, [':']), (2, [':']), (2, [])] [hour, minute, second] ++ text =
      digits 2 hour ++ (':' :: (digits 2 minute ++ (':' :: (digits 2 second ++ text)))) := by
    simp [render]
  rw [whole, clock, takeNumber_two hours]
  simp only [Option.bind_eq_bind, Option.bind_some, List.head?_cons, decide_true, skip, if_true, reduceCtorEq,
    if_false, takeNumber_two minutes, takeNumber_two seconds, spelled, Option.map_some]

theorem clock_minutes {hour minute : ℕ} (hours : hour < 100) (minutes : minute < 100) :
    clock (render [(2, [':']), (2, [])] [hour, minute]) = some (hour, minute, 0, 0) := by
  have text : render [(2, [':']), (2, [])] [hour, minute] = digits 2 hour ++ (':' :: (digits 2 minute ++ [])) := by
    simp [render]
  rw [text, clock, takeNumber_two hours]
  simp only [Option.bind_eq_bind, Option.bind_some, List.head?_cons, decide_true, skip, if_true, reduceCtorEq,
    if_false, takeNumber_two minutes]

/-- An offset is read back, to the second or to the microsecond. -/
theorem zone_offsetText {offset : ℤ} (small : offset.natAbs < 86400000000) :
    zone (offsetText offset) = some (some offset) := by
  have signed : (if decide (offset < 0) = true then -(offset.natAbs : ℤ) else offset.natAbs) = offset := by
    simp only [decide_eq_true_eq]
    split <;> omega
  have read : ∀ text fields, clock text = some fields → micros fields = offset.natAbs →
      utcoffset (decide (offset < 0)) text = some offset := by
    intro text fields clocked same
    rw [← same] at small
    rw [utcoffset, clocked, Option.bind_eq_bind, Option.bind_some, if_pos small, same, signed]
  have written : utcoffset (decide (offset < 0)) (sizeText offset.natAbs) = some offset := by
    unfold sizeText
    split
    · refine read _ _ (clock_minutes (by omega) (by omega)) ?_
      simp only [micros]
      omega
    · have spelled := fraction_fractionText (Nat.mod_lt offset.natAbs (by decide : 0 < 1000000))
      refine read _ _ (clock_seconds (by omega) (by omega) (by omega) spelled) ?_
      simp only [micros]
      omega
  unfold offsetText
  by_cases negative : offset < 0
  · rw [decide_eq_true negative] at written
    rw [if_pos negative, zone]
    · rw [decide_eq_true rfl, written, Option.map_some]
    · nofun
  · rw [decide_eq_false negative] at written
    rw [if_neg negative, zone]
    · rw [decide_eq_false (by decide), written, Option.map_some]
    · nofun

/-- The date is read up to the hyphen of its day. -/
theorem date_render {year month day : ℕ} (small : year < 10000) (isDate : Calendar.IsDate year month day) :
    date (render [(4, ['-']), (2, ['-']), (2, [])] [year, month, day]) =
      some (Calendar.seconds year month day 0 0 0 / 86400) := by
  have days := Calendar.daysInMonth_le year isDate.2.1 isDate.2.2.1
  unfold Calendar.IsDate at isDate
  have text : render [(4, ['-']), (2, ['-']), (2, [])] [year, month, day] =
      digits 4 year ++ ('-' :: (digits 2 month ++ ('-' :: (digits 2 day ++ [])))) := by
    simp [render]
  -- a month is no week
  have letter : ∀ rest, digits 2 month ++ ('-' :: (digits 2 day ++ [])) ≠ 'W' :: rest := by
    intro rest same
    have first := congrArg List.head? same
    simp [digits] at first
  have month_lt : month < 100 := by omega
  have day_lt : day < 100 := by omega
  rw [text, date, takeNumber_digits small]
  simp only [Option.bind_eq_bind, Option.bind_some, List.head?_cons, decide_true, skip, if_true,
    takeNumber_two month_lt, takeNumber_two day_lt]
  exact if_pos isDate

theorem not_zoneMark_of_isDigit {c : Char} (digit : c.isDigit = true) : isZoneMark c = false := by
  rw [isZoneMark, Bool.or_eq_false_iff, Bool.or_eq_false_iff, decide_eq_false_iff_not, decide_eq_false_iff_not,
    decide_eq_false_iff_not]
  refine ⟨⟨?_, ?_⟩, ?_⟩ <;>
  · rintro rfl
    cases digit

/-- The clock has no sign in it. -/
theorem clock_unmarked {hour minute second : ℕ} {text : List Char} {c : Char}
    (plain : ∀ c ∈ text, c = '.' ∨ c.isDigit = true)
    (mem : c ∈ render [(2, [':']), (2, [':']), (2, [])] [hour, minute, second] ++ text) :
    isZoneMark c = false := by
  rcases List.mem_append.mp mem with field | fraction
  · rcases mem_render field with digit | ⟨field, held, own⟩
    · exact not_zoneMark_of_isDigit digit
    · simp only [List.mem_cons, List.not_mem_nil, or_false] at held
      rcases held with rfl | rfl | rfl <;> simp at own <;> rw [own] <;> rfl
  · rcases plain c fraction with rfl | digit
    · rfl
    · exact not_zoneMark_of_isDigit digit

/-- A time of day is read up to its offset. -/
theorem time_render {hour minute second micro : ℕ} {text : List Char} {zone : Option ℤ} (hours : hour < 24)
    (minutes : minute < 60) (seconds : second < 60) (spelled : fraction text = some micro)
    (plain : ∀ c ∈ text, c = '.' ∨ c.isDigit = true) (day : ∀ offset ∈ zone, offset.natAbs < 86400000000) :
    time (render [(2, [':']), (2, [':']), (2, [])] [hour, minute, second] ++
        (text ++ (zone.map offsetText).getD [])) =
      some (micros (hour, minute, second, micro), zone) := by
  have marked : ∀ c ∈ ((zone.map offsetText).getD []).head?, (!isZoneMark c) = false := by
    intro c first
    cases zone with
    | none => cases first
    | some offset =>
      have sign : c = if offset < 0 then '-' else '+' := (Option.some.inj first).symm
      rw [sign]
      split <;> rfl
  have inside : ∀ c ∈ render [(2, [':']), (2, [':']), (2, [])] [hour, minute, second] ++ text,
      (!isZoneMark c) = true := fun c mem => by rw [clock_unmarked plain mem, Bool.not_false]
  have parts := span_append ((zone.map offsetText).getD []) inside marked
  rw [← List.append_assoc, time, parts.1, parts.2, clock_seconds (by omega) (by omega) (by omega) spelled]
  simp only [Option.bind_eq_bind, Option.bind_some, hours, minutes, seconds, and_self, if_true]
  cases zone with
  | none => rfl
  | some offset => simp only [Option.map_some, Option.getD_some, zone_offsetText (day offset rfl)]

/-- The characters of a written text. -/
theorem isoformat_chars {reading : Reading} {c : Char} (mem : c ∈ isoformat reading) :
    c.isDigit = true ∨ c ∈ ['-', 'T', ':', '.', '+'] := by
  have rendered {layout : Layout} {xs : List ℕ} (separators : ∀ field ∈ layout, ∀ c ∈ field.2, c ∈ ['-', 'T', ':'])
      (mem : c ∈ render layout xs) : c.isDigit = true ∨ c ∈ ['-', 'T', ':', '.', '+'] := by
    rcases mem_render mem with digit | ⟨field, held, own⟩
    · exact .inl digit
    · exact .inr (List.mem_append_left ['.', '+'] (separators field held c own))
  have fraction {micro : ℕ} (mem : c ∈ fractionText micro) : c.isDigit = true ∨ c ∈ ['-', 'T', ':', '.', '+'] := by
    unfold fractionText at mem
    split at mem
    · cases mem
    · rcases List.mem_cons.mp mem with rfl | digit
      · exact .inr (by decide)
      · exact .inl (List.all_eq_true.mp (isDigit_digits 6 micro) c digit)
  rcases List.mem_append.mp mem with field | rest
  · exact rendered (by simp) field
  · rcases List.mem_append.mp rest with micro | zone
    · exact fraction micro
    · cases given : reading.offset with
      | none =>
        rw [given] at zone
        cases zone
      | some offset =>
        rw [given] at zone
        rcases List.mem_cons.mp zone with rfl | size
        · split
          · exact .inr (by decide)
          · exact .inr (by decide)
        · unfold sizeText at size
          split at size
          · exact rendered (by simp) size
          · rcases List.mem_append.mp size with field | micro
            · exact rendered (by simp) field
            · exact fraction micro

/-- A reading written with its fraction in any form, and its offset. -/
def written (reading : Reading) (fractionText : List Char) : List Char :=
  render [(4, ['-']), (2, ['-']), (2, ['T']), (2, [':']), (2, [':']), (2, [])] (Calendar.fields reading.wall) ++
    (fractionText ++ (reading.offset.map offsetText).getD [])

/-- It is read back, in the years 1 to 9999 and with any offset of less than a
day. -/
theorem fromisoformat_written {reading : Reading} {fractionText : List Char}
    (inside : reading.wall < Calendar.daysBeforeYear 10000 * 86400000000)
    (within : ∀ offset ∈ reading.offset, offset.natAbs < 86400000000)
    (spelled : fraction fractionText = some (reading.wall % 1000000))
    (plain : ∀ c ∈ fractionText, c = '.' ∨ c.isDigit = true) :
    fromisoformat (written reading fractionText) = some reading := by
  obtain ⟨wall, zone⟩ := reading
  obtain ⟨year, month, day, hour, minute, second, micro, fields, count, isDate, hours, minutes, seconds, small⟩ :=
    Calendar.fields_eq wall
  have year_lt : year < 10000 := by
    have bounds := Calendar.fields_small wall inside
    rw [fields] at bounds
    simp only [List.forall₂_cons] at bounds
    exact bounds.1
  have same : wall % 1000000 = micro := by omega
  rw [same] at spelled
  have text : written ⟨wall, zone⟩ fractionText = render [(4, ['-']), (2, ['-']), (2, [])] [year, month, day] ++
      'T' :: (render [(2, [':']), (2, [':']), (2, [])] [hour, minute, second] ++
        (fractionText ++ (zone.map offsetText).getD [])) := by
    simp [written, fields, render]
  have size : (render [(4, ['-']), (2, ['-']), (2, [])] [year, month, day]).length = 10 := by simp [render]
  have long : 19 ≤ (written ⟨wall, zone⟩ fractionText).length := by
    rw [text]
    simp [render]
    omega
  -- the fifth character is a hyphen and the sixth a digit of the month
  have length : dateLength (written ⟨wall, zone⟩ fractionText) = some 10 := by
    have hyphen : (written ⟨wall, zone⟩ fractionText)[4]? = some '-' := by
      rw [text]
      simp [render, digits]
    have letter : (written ⟨wall, zone⟩ fractionText)[5]? ≠ some 'W' := by
      rw [text]
      simp [render, digits]
    have more : ¬ (written ⟨wall, zone⟩ fractionText).length < 7 ∧ (written ⟨wall, zone⟩ fractionText).length ≠ 7 := by
      omega
    rw [dateLength, if_neg more.1, if_neg more.2, if_pos hyphen, if_neg letter]
  have front : (written ⟨wall, zone⟩ fractionText).take 10 =
      render [(4, ['-']), (2, ['-']), (2, [])] [year, month, day] := by
    rw [text]
    exact List.take_left' size
  have back : (written ⟨wall, zone⟩ fractionText).drop 11 =
      render [(2, [':']), (2, [':']), (2, [])] [hour, minute, second] ++
        (fractionText ++ (zone.map offsetText).getD []) := by
    rw [text, ← List.drop_drop (i := 1) (j := 10), List.drop_left' size]
    rfl
  have whole : Calendar.seconds year month day 0 0 0 / 86400 * 86400000000 + micros (hour, minute, second, micro) =
      wall := by
    rw [← count, Calendar.seconds_midnight, Nat.mul_div_cancel _ (by decide), Calendar.seconds]
    simp only [micros]
    ring
  have beyond : (written ⟨wall, zone⟩ fractionText).length ≠ 10 := by omega
  rw [fromisoformat, length]
  simp only [Option.bind_eq_bind, Option.bind_some, front, date_render year_lt isDate, if_neg beyond, back,
    time_render hours minutes seconds spelled plain within, Option.map_some, whole]

/-- **What `isoformat` writes, `fromisoformat` reads**, in the years 1 to 9999
and with any offset of less than a day. -/
theorem fromisoformat_isoformat {reading : Reading}
    (inside : reading.wall < Calendar.daysBeforeYear 10000 * 86400000000)
    (within : ∀ offset ∈ reading.offset, offset.natAbs < 86400000000) :
    fromisoformat (isoformat reading) = some reading :=
  fromisoformat_written inside within (fraction_fractionText (Nat.mod_lt _ (by decide))) (fractionText_unmarked _)

/-! ## Without trailing zeros -/

/-- A fraction without its trailing zeros, if it is not zero. -/
def trimmedText (micro : ℕ) : List Char :=
  if micro = 0 then [] else '.' :: (digits 6 micro).rdropWhile (· = '0')

/-- The form of ISO 8601 that PostgreSQL writes into JSON. -/
def trimmed (reading : Reading) : List Char := written reading (trimmedText (reading.wall % 1000000))

theorem fraction_trimmedText {micro : ℕ} (small : micro < 1000000) : fraction (trimmedText micro) = some micro := by
  unfold trimmedText
  split
  · rename_i zero
    rw [zero]
    rfl
  · rename_i positive
    have parts : (digits 6 micro).rdropWhile (· = '0') ++ (digits 6 micro).rtakeWhile (· = '0') = digits 6 micro :=
      List.rdropWhile_append_rtakeWhile
    have zeros : (digits 6 micro).rtakeWhile (· = '0') =
        List.replicate ((digits 6 micro).rtakeWhile (· = '0')).length '0' :=
      List.eq_replicate_of_mem fun c mem => by simpa using List.mem_rtakeWhile_imp mem
    generalize (digits 6 micro).rdropWhile (· = '0') = front at parts
    generalize (digits 6 micro).rtakeWhile (· = '0') = back at parts zeros
    have size : front.length + back.length = 6 := by rw [← List.length_append, parts, length_digits]
    have spelled : value 0 front * 10 ^ back.length = micro := by
      have whole := value_append_eq front back
      have fits : micro % 10 ^ 6 = micro := Nat.mod_eq_of_lt small
      have nothing : value 0 back = 0 := by rw [zeros, value_zeros, Nat.zero_mul]
      rw [parts, value_digits, Nat.zero_mul, Nat.zero_add, fits, nothing, Nat.add_zero] at whole
      exact whole.symm
    have digital : front.all Char.isDigit = true := by
      have all := isDigit_digits 6 micro
      rw [← parts, List.all_append, Bool.and_eq_true] at all
      exact all.1
    have written : front ≠ [] := by
      rintro rfl
      apply positive
      rw [← spelled]
      exact Nat.zero_mul _
    have short : front.take 6 = front := List.take_of_length_le (by omega)
    rw [fraction, if_pos ⟨.inl rfl, written, digital⟩, short, ← size, Nat.add_sub_cancel_left, spelled]

theorem trimmedText_plain (micro : ℕ) : ∀ c ∈ trimmedText micro, c = '.' ∨ c.isDigit = true := by
  unfold trimmedText
  split
  · exact nofun
  · intro c mem
    rcases List.mem_cons.mp mem with rfl | digit
    · exact .inl rfl
    · exact .inr (List.all_eq_true.mp (isDigit_digits 6 micro) c ((List.rdropWhile_prefix _ _).subset digit))

theorem fromisoformat_trimmed {reading : Reading}
    (inside : reading.wall < Calendar.daysBeforeYear 10000 * 86400000000)
    (within : ∀ offset ∈ reading.offset, offset.natAbs < 86400000000) :
    fromisoformat (trimmed reading) = some reading :=
  fromisoformat_written inside within (fraction_trimmedText (Nat.mod_lt _ (by decide))) (trimmedText_plain _)

end IsoFormat
