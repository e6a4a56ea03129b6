import KnxTelegramStore.Sqlite.TimestampOrder
import Mathlib.Data.List.DropRight
import Mathlib.Data.Rat.Floor

/-!
The timestamps of a communication log (`formats/ets_xml.py`). The reader takes
a text apart at the separators it finds in it; `parseTimestamp_digits` says
that every combination of the optional parts reaches `fromisoformat` in its
right shape.
-/
namespace KnxTelegramStore.Formats
open FixedWidth
open Sqlite (IsoText fromisoformat FourDigitYear InRange)

/-- `str.isspace` of one character. -/
def isSpace (c : Char) : Bool :=
  let n := c.toNat
  (9 ≤ n && n ≤ 13) || (28 ≤ n && n ≤ 32) || n == 0x85 || n == 0xA0 || n == 0x1680 || (0x2000 ≤ n && n ≤ 0x200A) ||
    n == 0x2028 || n == 0x2029 || n == 0x202F || n == 0x205F || n == 0x3000

/-- `str.strip`. -/
def strip (text : List Char) : List Char := (text.dropWhile isSpace).rdropWhile isSpace

/-- A sign, two digits, a colon and two digits, in microseconds; `none` is the
`ValueError` of `timezone`, too. -/
def offsetMicros (sign h₁ h₂ colon m₁ m₂ : Char) : Option ℤ :=
  let minutes := value 0 [h₁, h₂] * 60 + value 0 [m₁, m₂]
  if [h₁, h₂, m₁, m₂].all Char.isDigit ∧ colon = ':' ∧ minutes < 1440 then
    some ((if sign = '-' then -1 else 1) * (minutes * 60000000)) else none

/-- `datetime.fromisoformat` of a date, any separator, a time to the second,
and perhaps a fraction and an offset. -/
def fromisoformatZoned (text : List Char) : Option DateTime :=
  let inClock := fun c => !(['+', '-', 'Z'].contains c)
  let clock := (text.drop 11).takeWhile inClock
  (fromisoformat (text.take 11 ++ clock)).bind fun naive =>
    match (text.drop 11).dropWhile inClock with
    | [] => some naive
    | ['Z'] => some { naive with tzinfo := some .utc }
    | [sign, h₁, h₂, colon, m₁, m₂] =>
      (offsetMicros sign h₁ h₂ colon m₁ m₂).map fun offset => { naive with tzinfo := some (.fixed offset) }
    | _ => none

/-- `ts.endswith(("Z", "z"))`, and the letter replaced. -/
def zuluAsOffset (ts : List Char) : List Char :=
  if ts.getLast? = some 'Z' ∨ ts.getLast? = some 'z' then ts.dropLast ++ ['+', '0', '0', ':', '0', '0'] else ts

/-- `rest` in front of its first `+`, or else of its first `-`, and from there
on. -/
def splitOffset (rest : List Char) : List Char × List Char :=
  match ['+', '-'].find? fun sep => rest.contains sep with
  | some sep => (rest.takeWhile (· ≠ sep), rest.dropWhile (· ≠ sep))
  | none => (rest, [])

/-- The fraction brought to six digits. -/
def sixDigits (ts : List Char) : List Char :=
  if ts.contains '.' then
    let base := ts.takeWhile (· ≠ '.')
    let rest := (ts.dropWhile (· ≠ '.')).tail
    let (frac, offset) := splitOffset rest
    base ++ '.' :: ((frac.take 6).rightpad 6 '0' ++ offset)
  else ts

/-- `_parse_timestamp`; `none` is the `ValueError` or the `OverflowError`. -/
def parseTimestamp (tzdb : TzDb) (value : List Char) : Option DateTime :=
  (fromisoformatZoned (sixDigits (zuluAsOffset (strip value)))).bind (·.asUtc tzdb)

/-- The layout of `"%Y-%m-%dT%H:%M:%S.%f"`. -/
def logLayout : Layout := [(4, ['-']), (2, ['-']), (2, ['T']), (2, [':']), (2, [':']), (2, ['.']), (6, [])]

/-- `_format_timestamp` of an aware datetime. -/
def formatTimestamp (tzdb : TzDb) (timestamp : DateTime) : Option (List Char) :=
  (timestamp.asUtc tzdb).map fun utc => render logLayout (Calendar.fields (utc.wall - DateTime.minWall).toNat) ++ ['Z']

/-! ## The texts of a log -/

/-- What may follow the time of day: nothing, a letter, or an offset. -/
inductive ZoneText where
  | none
  | zulu (capital : Bool)
  | offset (negative : Bool) (hours : Fin 24) (minutes : Fin 60)

namespace ZoneText

def digits : ZoneText → List Char
  | none => []
  | zulu capital => [if capital then 'Z' else 'z']
  | offset negative hours minutes =>
    (if negative then '-' else '+') :: render [(2, [':']), (2, [])] [hours, minutes]

/-- The offset it states, in microseconds. -/
def micros : ZoneText → ℤ
  | none | zulu _ => 0
  | offset negative hours minutes => (if negative then -1 else 1) * ((hours * 60 + minutes : ℕ) * 60000000)

end ZoneText

/-- `YYYY-MM-DDTHH:MM:SS` with a fraction of any number of digits, or none, a
zone or none, and blanks around it. -/
structure LogText where
  year : ℕ
  month : ℕ
  day : ℕ
  hour : ℕ
  minute : ℕ
  second : ℕ
  fraction : List Char
  zone : ZoneText
  blanksBefore : List Char := []
  blanksAfter : List Char := []
  date : Calendar.IsDate year month day
  year_lt : year < 10000
  time : hour < 24 ∧ minute < 60 ∧ second < 60
  fraction_digits : fraction.all Char.isDigit
  blanks : blanksBefore.all isSpace ∧ blanksAfter.all isSpace

namespace LogText

variable (t : LogText)

/-- `YYYY-MM-DDTHH:MM:SS`. -/
def base : List Char :=
  render [(4, ['-']), (2, ['-']), (2, ['T']), (2, [':']), (2, [':']), (2, [])]
    [t.year, t.month, t.day, t.hour, t.minute, t.second]

/-- The text without the blanks around it. -/
def core : List Char := t.base ++ ((if t.fraction = [] then [] else '.' :: t.fraction) ++ t.zone.digits)

def digits : List Char := t.blanksBefore ++ (t.core ++ t.blanksAfter)

/-- The fraction in whole microseconds: what is left of it is cut off. -/
def micro : ℕ := value 0 t.fraction * 1000000 / 10 ^ t.fraction.length

/-- The instant it denotes. -/
def instant : ℤ :=
  (Calendar.seconds t.year t.month t.day t.hour t.minute t.second * 1000000 + t.micro : ℕ) + DateTime.minWall -
    t.zone.micros

end LogText

/-! ## Taking a text apart -/

theorem ne_of_isDigit {c d : Char} (digit : c.isDigit = true) (other : d.isDigit = false) : c ≠ d := by
  rintro rfl
  rw [digit] at other
  cases other

theorem isSpace_of_isDigit {c : Char} (digit : c.isDigit = true) : isSpace c = false := by
  simp only [Char.isDigit, Bool.and_eq_true, decide_eq_true_eq, ge_iff_le, UInt32.le_iff_toNat_le] at digit
  have low : 48 ≤ c.toNat := digit.1
  have high : c.toNat ≤ 57 := digit.2
  simp only [isSpace, Bool.or_eq_false_iff, Bool.and_eq_false_iff, decide_eq_false_iff_not, beq_eq_false_iff_ne]
  omega

theorem strip_append {before text after : List Char} (blanks : before.all isSpace ∧ after.all isSpace)
    (solid : ∀ c ∈ text, isSpace c = false) (some_ : text ≠ []) : strip (before ++ (text ++ after)) = text := by
  obtain ⟨c, rest, rfl⟩ := List.exists_cons_of_ne_nil some_
  have front : (before ++ (c :: rest ++ after)).dropWhile isSpace = c :: rest ++ after := by
    refine (span_append _ (List.all_eq_true.mp blanks.1) fun d head => ?_).2
    cases head
    exact solid c List.mem_cons_self
  rw [strip, front, List.rdropWhile, List.reverse_append]
  have back : (after.reverse ++ (c :: rest).reverse).dropWhile isSpace = (c :: rest).reverse := by
    refine (span_append _ (fun d mem => ?_) fun d head => ?_).2
    · exact List.all_eq_true.mp blanks.2 d (List.mem_reverse.mp mem)
    · exact solid d (List.mem_reverse.mp (List.mem_of_head? head))
  rw [back, List.reverse_reverse]

namespace LogText

variable {t : LogText} {c : Char}

theorem mem_base (mem : c ∈ t.base) : c.isDigit = true ∨ c = '-' ∨ c = 'T' ∨ c = ':' := by
  rcases mem_render mem with digit | ⟨field, held, own⟩
  · exact .inl digit
  · simp only [List.mem_cons, List.not_mem_nil, or_false] at held
    rcases held with rfl | rfl | rfl | rfl | rfl | rfl <;> simp at own <;> simp [own]

/-- The fraction behind its point. -/
def fractionPart (t : LogText) : List Char := if t.fraction = [] then [] else '.' :: t.fraction

theorem mem_fractionPart (mem : c ∈ t.fractionPart) : c.isDigit = true ∨ c = '.' := by
  unfold fractionPart at mem
  split at mem
  · cases mem
  · rcases List.mem_cons.mp mem with rfl | digit
    · exact .inr rfl
    · exact .inl (List.all_eq_true.mp t.fraction_digits c digit)

end LogText

namespace ZoneText

variable {zone : ZoneText} {c : Char}

/-- The zone once the letter is replaced. -/
def offsetDigits : ZoneText → List Char
  | zulu _ => ['+', '0', '0', ':', '0', '0']
  | zone => zone.digits

theorem mem_render_offset {hours minutes : ℕ} (mem : c ∈ render [(2, [':']), (2, [])] [hours, minutes]) :
    c.isDigit = true ∨ c = ':' := by
  rcases mem_render mem with digit | ⟨field, held, own⟩
  · exact .inl digit
  · simp only [List.mem_cons, List.not_mem_nil, or_false] at held
    rcases held with rfl | rfl <;> simp at own
    exact .inr own

theorem mem_digits (mem : c ∈ zone.digits) :
    c.isDigit = true ∨ c = '+' ∨ c = '-' ∨ c = ':' ∨ c = 'Z' ∨ c = 'z' := by
  cases zone with
  | none => cases mem
  | zulu capital => cases capital <;> simp [digits] at mem <;> simp [mem]
  | offset negative hours minutes =>
    rcases List.mem_cons.mp mem with sign | own
    · cases negative <;> simp at sign <;> simp [sign]
    · rcases mem_render_offset own with digit | colon
      · exact .inl digit
      · simp [colon]

/-- The digits of an offset are read back. -/
theorem offsetMicros_render (sign : Char) (hours : Fin 24) (minutes : Fin 60) :
    ∃ h₁ h₂ m₁ m₂, render [(2, [':']), (2, [])] [hours.val, minutes.val] = [h₁, h₂, ':', m₁, m₂] ∧
      offsetMicros sign h₁ h₂ ':' m₁ m₂ =
        some ((if sign = '-' then -1 else 1) * (((hours * 60 + minutes : ℕ) : ℤ) * 60000000)) := by
  have spelled (n : ℕ) : [Nat.digitChar (n / 10 ^ 1 % 10), Nat.digitChar (n / 10 ^ 0 % 10)] =
    FixedWidth.digits 2 n := rfl
  have number (n : ℕ) (small : n < 100) : value 0 (FixedWidth.digits 2 n) = n := by
    rw [value_digits, Nat.zero_mul, Nat.zero_add]
    exact Nat.mod_eq_of_lt small
  have isDigit : (FixedWidth.digits 2 hours ++ FixedWidth.digits 2 minutes).all Char.isDigit = true := by
    rw [List.all_append, isDigit_digits, isDigit_digits, Bool.and_self]
  refine ⟨_, _, _, _, rfl, ?_⟩
  unfold offsetMicros
  dsimp only
  rw [spelled hours, spelled minutes, number hours (by omega), number minutes (by omega)]
  exact if_pos ⟨isDigit, rfl, by omega⟩

end ZoneText

namespace LogText

variable {t : LogText} {c : Char}

theorem strip_digits (t : LogText) : strip t.digits = t.core := by
  refine strip_append t.blanks (fun c mem => ?_) ?_
  · rw [core, List.mem_append, List.mem_append] at mem
    rcases mem with base | fraction | zone
    · rcases mem_base base with digit | rfl | rfl | rfl
      · exact isSpace_of_isDigit digit
      all_goals decide
    · rcases mem_fractionPart fraction with digit | rfl
      · exact isSpace_of_isDigit digit
      · decide
    · rcases ZoneText.mem_digits zone with digit | rfl | rfl | rfl | rfl | rfl
      · exact isSpace_of_isDigit digit
      all_goals decide
  · exact List.append_ne_nil_of_left_ne_nil (List.cons_ne_nil _ _) _

/-- What is in front of the zone does not end with the letter. -/
private theorem not_zulu (mem : c ∈ t.base ++ t.fractionPart) : c ≠ 'Z' ∧ c ≠ 'z' := by
  rcases List.mem_append.mp mem with base | fraction
  · rcases mem_base base with digit | rfl | rfl | rfl
    · exact ⟨ne_of_isDigit digit rfl, ne_of_isDigit digit rfl⟩
    all_goals decide
  · rcases mem_fractionPart fraction with digit | rfl
    · exact ⟨ne_of_isDigit digit rfl, ne_of_isDigit digit rfl⟩
    · decide

private theorem zuluAsOffset_of_last {text : List Char} (other : ∀ c ∈ text, c ≠ 'Z' ∧ c ≠ 'z') :
    zuluAsOffset text = text := by
  refine if_neg fun last => ?_
  rcases last with last | last
  · exact (other _ (List.mem_of_getLast? last)).1 rfl
  · exact (other _ (List.mem_of_getLast? last)).2 rfl

theorem zuluAsOffset_core (t : LogText) :
    zuluAsOffset t.core = t.base ++ (t.fractionPart ++ t.zone.offsetDigits) := by
  have split : t.core = t.base ++ (t.fractionPart ++ t.zone.digits) := rfl
  rw [split]
  cases zone : t.zone with
  | none =>
    rw [ZoneText.offsetDigits, ZoneText.digits, List.append_nil]
    · exact zuluAsOffset_of_last fun c mem => not_zulu mem
    · nofun
  | zulu capital =>
    rw [ZoneText.digits, ← List.append_assoc, zuluAsOffset, List.getLast?_concat, List.dropLast_concat, if_pos]
    · rw [List.append_assoc]
      rfl
    · cases capital <;> simp
  | offset negative hours minutes =>
    rw [ZoneText.offsetDigits]
    · refine zuluAsOffset_of_last fun c mem => ?_
      rw [← List.append_assoc] at mem
      rcases List.mem_append.mp mem with clock | own
      · exact not_zulu clock
      · rcases List.mem_cons.mp own with sign | own
        · cases negative <;> simp at sign <;> rw [sign] <;> decide
        · rcases ZoneText.mem_render_offset own with digit | rfl
          · exact ⟨ne_of_isDigit digit rfl, ne_of_isDigit digit rfl⟩
          · decide
    · nofun

/-! ## Six digits of the fraction -/

/-- The six digits that are left of a fraction. -/
def sixFraction (t : LogText) : List Char := (t.fraction.take 6).rightpad 6 '0'

theorem length_sixFraction (t : LogText) : t.sixFraction.length = 6 := by
  simp [sixFraction]

theorem sixFraction_digits (t : LogText) : t.sixFraction.all Char.isDigit := by
  refine List.all_eq_true.mpr fun c mem => ?_
  rcases List.mem_append.mp mem with own | zero
  · exact List.all_eq_true.mp t.fraction_digits c (List.mem_of_mem_take own)
  · rw [List.eq_of_mem_replicate zero]
    rfl

/-- The six digits count the whole microseconds of the fraction. -/
theorem value_sixFraction (t : LogText) : value 0 t.sixFraction = t.micro := by
  rw [sixFraction, List.rightpad, value_append, value_zeros, micro]
  rcases Nat.le_total t.fraction.length 6 with short | long
  · have power : 1000000 = 10 ^ (6 - t.fraction.length) * 10 ^ t.fraction.length := by
      rw [← pow_add, Nat.sub_add_cancel short]
      rfl
    rw [List.take_of_length_le short, power, ← mul_assoc, Nat.mul_div_cancel _ (Nat.pow_pos (by decide))]
  · have parts := value_append_eq (t.fraction.take 6) (t.fraction.drop 6)
    have small : value 0 (t.fraction.drop 6) < 10 ^ (t.fraction.drop 6).length := by
      refine value_lt (List.all_eq_true.mpr fun c mem => ?_)
      exact List.all_eq_true.mp t.fraction_digits c (List.mem_of_mem_drop mem)
    have power : 10 ^ t.fraction.length = 1000000 * 10 ^ (t.fraction.drop 6).length := by
      rw [List.length_drop, ← Nat.sub_add_cancel long, pow_add, Nat.add_sub_cancel]
      ring
    rw [List.take_append_drop] at parts
    have whole : (6 - (t.fraction.take 6).length) = 0 := by
      rw [List.length_take, Nat.min_eq_left long]
    rw [whole, pow_zero, mul_one, parts, power, mul_comm, Nat.mul_div_mul_left _ _ (by decide)]
    rw [mul_comm, Nat.add_comm, Nat.add_mul_div_left _ _ (Nat.pow_pos (by decide)),
      Nat.div_eq_of_lt small, Nat.zero_add]

/-- The point and six digits, if there is a fraction. -/
def sixPart (t : LogText) : List Char := if t.fraction = [] then [] else '.' :: t.sixFraction

theorem splitOffset_offsetDigits {frac : List Char} (digits : frac.all Char.isDigit) (zone : ZoneText) :
    splitOffset (frac ++ zone.offsetDigits) = (frac, zone.offsetDigits) := by
  have absent (sep : Char) (other : sep.isDigit = false) : frac.contains sep = false := by
    by_contra held
    have mem : sep ∈ frac := List.contains_iff_mem.mp (Bool.eq_true_of_not_eq_false held)
    rw [List.all_eq_true.mp digits sep mem] at other
    cases other
  have plus := absent '+' rfl
  have minus := absent '-' rfl
  have front (sep : Char) (other : sep.isDigit = false) : ∀ c ∈ frac, decide (c ≠ sep) = true := fun c mem =>
    decide_eq_true (ne_of_isDigit (List.all_eq_true.mp digits c mem) other)
  have parted (sep : Char) (back : List Char) (other : sep.isDigit = false) :
      ((frac ++ sep :: back).takeWhile (· ≠ sep), (frac ++ sep :: back).dropWhile (· ≠ sep)) = (frac, sep :: back) := by
    have parts := span_append (p := fun c => decide (c ≠ sep)) (sep :: back) (front sep other)
      fun c head => by cases head; simp
    rw [parts.1, parts.2]
  cases zone with
  | none =>
    simp only [splitOffset, ZoneText.offsetDigits, ZoneText.digits, List.append_nil]
    rw [List.find?_cons_of_neg (by simpa using plus), List.find?_cons_of_neg (by simpa using minus), List.find?_nil]
  | zulu capital =>
    simp only [splitOffset, ZoneText.offsetDigits]
    rw [List.find?_cons_of_pos (by simp)]
    exact parted '+' _ rfl
  | offset negative hours minutes =>
    cases negative with
    | false =>
      simp only [splitOffset, ZoneText.offsetDigits, ZoneText.digits]
      rw [List.find?_cons_of_pos (by simp)]
      exact parted '+' _ rfl
    | true =>
      have none : (frac ++ '-' :: render [(2, [':']), (2, [])] [hours.val, minutes.val]).contains '+' = false := by
        by_contra held
        have mem : '+' ∈ frac ++ '-' :: render [(2, [':']), (2, [])] [hours.val, minutes.val] :=
          List.contains_iff_mem.mp (Bool.eq_true_of_not_eq_false held)
        rcases List.mem_append.mp mem with own | own
        · simp [own] at plus
        · rcases List.mem_cons.mp own with sign | own
          · cases sign
          · rcases ZoneText.mem_render_offset own with digit | colon
            · cases digit
            · cases colon
      simp only [splitOffset, ZoneText.offsetDigits, ZoneText.digits, if_true]
      rw [List.find?_cons_of_neg (by simpa using none), List.find?_cons_of_pos (by simp)]
      exact parted '-' _ rfl

theorem sixDigits_eq (t : LogText) :
    sixDigits (t.base ++ (t.fractionPart ++ t.zone.offsetDigits)) = t.base ++ (t.sixPart ++ t.zone.offsetDigits) := by
  have base : ∀ c ∈ t.base, decide (c ≠ '.') = true := by
    intro c mem
    rcases mem_base mem with digit | rfl | rfl | rfl
    · exact decide_eq_true (ne_of_isDigit digit rfl)
    all_goals decide
  unfold sixDigits fractionPart sixPart
  by_cases empty : t.fraction = []
  · have without : (t.base ++ t.zone.offsetDigits).contains '.' = false := by
      by_contra held
      have mem : '.' ∈ t.base ++ t.zone.offsetDigits := List.contains_iff_mem.mp (Bool.eq_true_of_not_eq_false held)
      rcases List.mem_append.mp mem with own | own
      · simpa using base _ own
      · cases zone : t.zone with
        | none =>
          rw [zone] at own
          cases own
        | zulu capital => simp [zone, ZoneText.offsetDigits] at own
        | offset negative hours minutes =>
          rw [zone] at own
          rcases List.mem_cons.mp own with sign | own
          · cases negative <;> cases sign
          · rcases ZoneText.mem_render_offset own with digit | colon
            · cases digit
            · cases colon
    simp only [empty, if_true, List.nil_append]
    rw [without]
    rfl
  · have point : (t.base ++ ('.' :: t.fraction ++ t.zone.offsetDigits)).contains '.' = true := by simp
    have parts := span_append (p := fun c => decide (c ≠ '.')) ('.' :: (t.fraction ++ t.zone.offsetDigits)) base
      fun c head => by cases head; simp
    simp only [empty, if_false, List.cons_append] at point ⊢
    rw [if_pos point, parts.1, parts.2, List.tail_cons, splitOffset_offsetDigits t.fraction_digits]
    rfl

/-! ## What is parsed -/

/-- The text that `fromisoformat` is given, without its offset. -/
def isoText (t : LogText) : IsoText where
  year := t.year
  month := t.month
  day := t.day
  hour := t.hour
  minute := t.minute
  second := t.second
  separator := 'T'
  fraction := if t.fraction = [] then [] else t.sixFraction
  date := t.date
  year_lt := t.year_lt
  time := t.time
  separator_eq := IsoText.letter_separates
  fraction_le := by
    split
    · exact Nat.zero_le _
    · exact t.length_sixFraction.le
  fraction_digits := by
    split
    · rfl
    · exact t.sixFraction_digits

theorem isoText_digits (t : LogText) : t.isoText.digits = t.base ++ t.sixPart := by
  have base : t.isoText.digits = t.base ++ if t.isoText.fraction = [] then [] else '.' :: t.isoText.fraction := rfl
  have some_ : t.sixFraction ≠ [] := List.ne_nil_of_length_eq_add_one t.length_sixFraction
  rw [base, sixPart, isoText]
  by_cases empty : t.fraction = []
  · simp only [empty, if_true]
  · simp only [empty, some_, if_false]

theorem isoText_micro (t : LogText) : t.isoText.micro = t.micro := by
  rw [IsoText.micro, isoText]
  dsimp only
  split
  · rename_i empty
    simp [micro, empty, value]
  · rw [length_sixFraction, value_sixFraction, Nat.sub_self, pow_zero, mul_one]

/-- The reading of the clock, without the zone. -/
def wall (t : LogText) : ℤ :=
  (Calendar.seconds t.year t.month t.day t.hour t.minute t.second * 1000000 + t.micro : ℕ) + DateTime.minWall

theorem wall_inRange (t : LogText) : InRange t.wall := by
  have seconds := Calendar.seconds_lt t.date t.year_lt t.time
  have span : Calendar.daysBeforeYear 10000 * 86400 = 315537897600 := rfl
  have micro : t.micro < 1000000 := by
    rw [micro, Nat.div_lt_iff_lt_mul (Nat.pow_pos (by decide)), mul_comm]
    exact Nat.mul_lt_mul_of_pos_left (value_lt t.fraction_digits) (by decide)
  unfold InRange wall DateTime.minWall DateTime.maxWall
  omega

theorem fromisoformat_base (t : LogText) :
    fromisoformat (t.base ++ t.sixPart) = some { wall := t.wall, tzinfo := none } := by
  rw [← isoText_digits, IsoText.fromisoformat_digits, isoText_micro]
  rfl

/-- The clock ends where the offset begins. -/
theorem fromisoformatZoned_eq (t : LogText) :
    fromisoformatZoned (t.base ++ (t.sixPart ++ t.zone.offsetDigits)) = some {
      wall := t.wall
      tzinfo := match t.zone with
        | .none => none
        | zone => some (.fixed zone.micros) } := by
  have date : t.base.take 11 = render [(4, ['-']), (2, ['-']), (2, ['T'])] [t.year, t.month, t.day] := rfl
  have clock : t.base.drop 11 = render [(2, [':']), (2, [':']), (2, [])] [t.hour, t.minute, t.second] := rfl
  have long : 11 ≤ t.base.length := by
    show 11 ≤ 19
    decide
  have inside : ∀ c ∈ t.base.drop 11 ++ t.sixPart, (!(['+', '-', 'Z'].contains c)) = true := by
    have digit {c : Char} (own : c.isDigit = true) : (!(['+', '-', 'Z'].contains c)) = true := by
      have plus := ne_of_isDigit (d := '+') own rfl
      have minus := ne_of_isDigit (d := '-') own rfl
      have letter := ne_of_isDigit (d := 'Z') own rfl
      simp [plus, minus, letter]
    intro c mem
    rcases List.mem_append.mp mem with own | own
    · rw [clock] at own
      rcases mem_render own with own | ⟨field, held, own⟩
      · exact digit own
      · simp only [List.mem_cons, List.not_mem_nil, or_false] at held
        rcases held with rfl | rfl | rfl <;> simp at own <;> rw [own] <;> decide
    · unfold sixPart at own
      split at own
      · cases own
      · rcases List.mem_cons.mp own with rfl | own
        · decide
        · exact digit (List.all_eq_true.mp t.sixFraction_digits c own)
  have stops : ∀ c ∈ t.zone.offsetDigits.head?, (!(['+', '-', 'Z'].contains c)) = false := by
    intro c head
    cases zone : t.zone with
    | none =>
      rw [zone] at head
      cases head
    | zulu capital =>
      rw [zone] at head
      cases head
      decide
    | offset negative hours minutes =>
      rw [zone] at head
      cases head
      cases negative <;> decide
  have parts := span_append _ inside stops
  have front : (t.base ++ (t.sixPart ++ t.zone.offsetDigits)).take 11 = t.base.take 11 :=
    List.take_append_of_le_length long
  have back : (t.base ++ (t.sixPart ++ t.zone.offsetDigits)).drop 11 =
    t.base.drop 11 ++ t.sixPart ++ t.zone.offsetDigits := by
    rw [List.drop_append_of_le_length long, List.append_assoc]
  unfold fromisoformatZoned
  dsimp only
  rw [front, back, parts.1, parts.2, ← List.append_assoc, List.take_append_drop, fromisoformat_base, Option.bind_some]
  cases t.zone with
  | none => rfl
  | zulu capital => rfl
  | offset negative hours minutes =>
    cases negative with
    | false =>
      obtain ⟨h₁, h₂, m₁, m₂, shape, read⟩ := ZoneText.offsetMicros_render '+' hours minutes
      simp [ZoneText.offsetDigits, ZoneText.digits, shape, read, ZoneText.micros]
    | true =>
      obtain ⟨h₁, h₂, m₁, m₂, shape, read⟩ := ZoneText.offsetMicros_render '-' hours minutes
      simp [ZoneText.offsetDigits, ZoneText.digits, shape, read, ZoneText.micros]

/-- **Log timestamps are parsed exactly.** A text is read as the instant it
denotes, its fraction cut off to microseconds, and not read if that instant
is outside of the years 1 to 9999. -/
theorem parseTimestamp_digits (tzdb : TzDb) (t : LogText) :
    parseTimestamp tzdb t.digits = DateTime.microsToDatetime t.instant := by
  have instant : t.instant = t.wall - t.zone.micros := rfl
  rw [parseTimestamp, strip_digits, zuluAsOffset_core, sixDigits_eq, fromisoformatZoned_eq, Option.bind_some, instant]
  cases t.zone with
  | none =>
    obtain ⟨low, high⟩ := t.wall_inRange
    rw [DateTime.microsToDatetime, ZoneText.micros, sub_zero, if_pos ⟨low, high⟩]
    rfl
  | zulu capital => rfl
  | offset negative hours minutes => rfl

/-! ## The fraction, and the way back -/

variable {tzdb : TzDb}

/-- The same text with another fraction. -/
def withFraction (t : LogText) (fraction : List Char) (digits : fraction.all Char.isDigit) : LogText :=
  { t with fraction, fraction_digits := digits }

/-- The fraction of a second that digits spell. -/
def fractionValue (fraction : List Char) : ℚ := (value 0 fraction : ℚ) / (10 ^ fraction.length : ℕ)

/-- Whole microseconds, never rounded up. -/
theorem micro_eq_floor (t : LogText) : (t.micro : ℤ) = ⌊fractionValue t.fraction * 1000000⌋ := by
  have same : fractionValue t.fraction * 1000000 =
      ((value 0 t.fraction * 1000000 : ℕ) : ℚ) / (10 ^ t.fraction.length : ℕ) := by
    rw [fractionValue, Nat.cast_mul]
    ring
  rw [same, Rat.floor_natCast_div_natCast, micro, Int.natCast_ediv]

theorem instant_mono (t : LogText) {fraction : List Char} {digits : fraction.all Char.isDigit}
    (less : fractionValue t.fraction ≤ fractionValue fraction) :
    t.instant ≤ (t.withFraction fraction digits).instant := by
  have scaled : fractionValue t.fraction * 1000000 ≤ fractionValue fraction * 1000000 :=
    mul_le_mul_of_nonneg_right less (by norm_num)
  have micro := micro_eq_floor t
  have micro' := micro_eq_floor (t.withFraction fraction digits)
  have floors := Int.floor_le_floor scaled
  have same : (t.withFraction fraction digits).fraction = fraction := rfl
  rw [same] at micro'
  unfold instant
  simp only [withFraction] at micro' ⊢
  omega

/-- What the writer renders is such a text. -/
theorem exists_rendered {n : ℤ} (inside : InRange n) :
    ∃ t : LogText, render logLayout (Calendar.fields (n - DateTime.minWall).toNat) ++ ['Z'] = t.digits ∧
      t.instant = n := by
  obtain ⟨year, month, day, hour, minute, second, micro, fields, count, date, hours, minutes, seconds, small⟩ :=
    Calendar.fields_eq (n - DateTime.minWall).toNat
  have fits := Sqlite.fields_fit inside
  rw [fields] at fits ⊢
  simp only [Fits, Sqlite.sqliteText, List.forall₂_cons] at fits
  let t : LogText := {
    year, month, day, hour, minute, second
    fraction := FixedWidth.digits 6 micro
    zone := .zulu true
    date
    year_lt := fits.1
    time := ⟨hours, minutes, seconds⟩
    fraction_digits := isDigit_digits 6 micro
    blanks := ⟨rfl, rfl⟩ }
  refine ⟨t, rfl, ?_⟩
  have whole : t.micro = micro := by
    have spelled : value 0 (FixedWidth.digits 6 micro) = micro := by
      rw [value_digits, Nat.zero_mul, Nat.zero_add]
      exact Nat.mod_eq_of_lt small
    rw [LogText.micro]
    simp only [t, spelled, length_digits]
    exact Nat.mul_div_cancel micro (by decide)
  have low := inside.1
  rw [instant, whole]
  simp only [t, ZoneText.micros, count]
  omega

/-- What is written for a datetime is read as its instant. -/
theorem exists_formatted {d : DateTime} (inside : InRange (d.toMicros tzdb)) :
    ∃ text, formatTimestamp tzdb d = some text ∧ parseTimestamp tzdb text = some (.ofMicros (d.toMicros tzdb)) := by
  obtain ⟨utc, converted, _, wall⟩ := Sqlite.asUtc_some inside
  obtain ⟨t, written, instant⟩ := exists_rendered inside
  obtain ⟨low, high⟩ := inside
  refine ⟨t.digits, ?_, ?_⟩
  · rw [formatTimestamp, converted, Option.map_some, wall, written]
  · rw [parseTimestamp_digits, instant]
    exact if_pos ⟨low, high⟩

/-- **Log timestamps**: each is read as the instant it denotes with the
fraction cut off to microseconds, unless that instant is outside of the years 1
to 9999; a greater fraction is read as no earlier an instant; and what is
written for a datetime of the UTC years 1000 to 9999 is read as that
datetime. -/
theorem log_timestamps_exact (tzdb : TzDb) :
    (∀ t : LogText, parseTimestamp tzdb t.digits = DateTime.microsToDatetime t.instant) ∧
      (∀ (t : LogText) (fraction : List Char) (digits : fraction.all Char.isDigit) (utc utc' : DateTime),
        fractionValue t.fraction ≤ fractionValue fraction → parseTimestamp tzdb t.digits = some utc →
          parseTimestamp tzdb (t.withFraction fraction digits).digits = some utc' →
            utc.toMicros tzdb ≤ utc'.toMicros tzdb) ∧
      ∀ d : DateTime, d.Aware → FourDigitYear (d.toMicros tzdb) →
        ∃ text utc, formatTimestamp tzdb d = some text ∧ parseTimestamp tzdb text = some utc ∧
          utc.tzinfo = some .utc ∧ utc.toMicros tzdb = d.toMicros tzdb := by
  refine ⟨parseTimestamp_digits tzdb, fun t fraction digits utc utc' less read read' => ?_, fun d _ year => ?_⟩
  · rw [parseTimestamp_digits] at read read'
    rw [(DateTime.microsToDatetime_instant read).1, (DateTime.microsToDatetime_instant read').1]
    exact t.instant_mono less
  · obtain ⟨text, written, read⟩ := exists_formatted year.inRange
    exact ⟨text, _, written, read, rfl, DateTime.toMicros_ofMicros _⟩

end LogText

/-- Noon of an epoch day on a clock two hours ahead. -/
theorem noon_round_trip :
    ∃ text utc, formatTimestamp (fun _ _ _ => 0) ⟨43200000000, false, some (.fixed 7200000000)⟩ = some text ∧
      parseTimestamp (fun _ _ _ => 0) text = some utc ∧ utc.toMicros (fun _ _ _ => 0) = 36000000000 := by
  have year : FourDigitYear 36000000000 := by
    have days : Calendar.daysBeforeYear 1000 = 364877 := rfl
    unfold FourDigitYear DateTime.minWall DateTime.maxWall
    omega
  obtain ⟨text, utc, written, read, _, same⟩ :=
    (LogText.log_timestamps_exact fun _ _ _ => 0).2.2 ⟨43200000000, false, some (.fixed 7200000000)⟩ rfl year
  exact ⟨text, utc, written, read, same⟩

/-- The first minute of the calendar, an hour ahead of UTC. -/
def firstMinute : LogText where
  year := 1
  month := 1
  day := 1
  hour := 0
  minute := 0
  second := 0
  fraction := []
  zone := .offset false 1 0
  date := by decide
  year_lt := by decide
  time := by decide
  fraction_digits := rfl
  blanks := ⟨rfl, rfl⟩

/-- Its instant is before the first that a datetime can hold. -/
theorem first_minute_not_read :
    ¬ ∀ t : LogText, ∃ utc, parseTimestamp (fun _ _ _ => 0) t.digits = some utc ∧
      utc.toMicros (fun _ _ _ => 0) = t.instant := by
  intro all
  obtain ⟨utc, read, _⟩ := all firstMinute
  have none : parseTimestamp (fun _ _ _ => 0) firstMinute.digits = none := by decide +kernel
  rw [none] at read
  cases read

end KnxTelegramStore.Formats
