import Mathlib.Data.Char
import Mathlib.Data.List.Lex
import Mathlib.Data.List.Forall2
import Mathlib.Tactic.IntervalCases
import Mathlib.Tactic.Ring

/-!
Records of numbers as text of fixed width: each field in so many decimal
digits, zero-padded, with separators in between. Such texts compare as their
records do, field by field (`render_lt`), and give the record back
(`parse_render`).
-/
namespace FixedWidth

variable {width a b : ℕ} {xs ys : List ℕ}

/-- The last `width` decimal digits. -/
def digits : ℕ → ℕ → List Char
  | 0, _ => []
  | width + 1, n => Nat.digitChar (n / 10 ^ width % 10) :: digits width n

/-- The number that digits spell, behind the digits of `acc`. -/
def value (acc : ℕ) (text : List Char) : ℕ :=
  text.foldl (fun acc digit => acc * 10 + (digit.toNat - '0'.toNat)) acc

@[simp] theorem length_digits (width n : ℕ) : (digits width n).length = width := by
  induction width with
  | zero => rfl
  | succ width ih => simp [digits, ih]

theorem value_digits (width n acc : ℕ) : value acc (digits width n) = acc * 10 ^ width + n % 10 ^ width := by
  induction width generalizing acc with
  | zero => simp [digits, value, Nat.mod_one]
  | succ width ih =>
    have digit : (Nat.digitChar (n / 10 ^ width % 10)).toNat - '0'.toNat = n / 10 ^ width % 10 := by
      have small : n / 10 ^ width % 10 < 10 := Nat.mod_lt _ (by decide)
      generalize n / 10 ^ width % 10 = d at small
      interval_cases d <;> rfl
    have step : value acc (digits (width + 1) n) = value (acc * 10 + n / 10 ^ width % 10) (digits width n) := by
      rw [← digit]
      rfl
    rw [step, ih, Nat.mod_pow_succ]
    ring

theorem isDigit_digits (width n : ℕ) : (digits width n).all Char.isDigit = true := by
  induction width with
  | zero => rfl
  | succ width ih =>
    have digit : (Nat.digitChar (n / 10 ^ width % 10)).isDigit = true := by
      have small : n / 10 ^ width % 10 < 10 := Nat.mod_lt _ (by decide)
      generalize n / 10 ^ width % 10 = d at small
      interval_cases d <;> rfl
    rw [digits, List.all_cons, digit, ih, Bool.and_self]

theorem digits_add (front back n : ℕ) : digits (front + back) n = digits front (n / 10 ^ back) ++ digits back n := by
  induction front with
  | zero => rw [Nat.zero_add, digits, List.nil_append]
  | succ front ih =>
    have digit : n / 10 ^ (front + back) % 10 = n / 10 ^ back / 10 ^ front % 10 := by
      rw [Nat.div_div_eq_div_mul, pow_add, mul_comm]
    rw [Nat.succ_add, digits, digits, ih, digit, List.cons_append]

theorem value_append (acc : ℕ) (front back : List Char) : value acc (front ++ back) = value (value acc front) back :=
  List.foldl_append

theorem value_zeros (acc k : ℕ) : value acc (List.replicate k '0') = acc * 10 ^ k := by
  induction k generalizing acc with
  | zero => simp [value]
  | succ k ih =>
    have step : value acc (List.replicate (k + 1) '0') = value (acc * 10) (List.replicate k '0') := rfl
    rw [step, ih, pow_succ]
    ring

theorem value_append_eq (front back : List Char) :
    value 0 (front ++ back) = value 0 front * 10 ^ back.length + value 0 back := by
  have shift : ∀ (text : List Char) (acc : ℕ), value acc text = acc * 10 ^ text.length + value 0 text := by
    intro text
    induction text with
    | nil => simp [value]
    | cons digit text ih =>
      intro acc
      have step (acc : ℕ) : value acc (digit :: text) = value (acc * 10 + (digit.toNat - '0'.toNat)) text := rfl
      rw [step, step, ih, ih (0 * 10 + _), List.length_cons, pow_succ]
      ring
  rw [value_append, shift]

/-- A list is split where a predicate first fails. -/
theorem span_append {α : Type} {p : α → Bool} {front : List α} (back : List α)
    (inside : ∀ c ∈ front, p c = true)
    (stops : ∀ c ∈ back.head?, p c = false) :
    (front ++ back).takeWhile p = front ∧ (front ++ back).dropWhile p = back := by
  rw [List.takeWhile_append_of_pos inside, List.dropWhile_append_of_pos inside]
  cases back with
  | nil => exact ⟨List.append_nil front, rfl⟩
  | cons c back =>
    have last := stops c rfl
    simp [last]

/-- Digits spell a number of their width. -/
theorem value_lt {text : List Char} (digits : text.all Char.isDigit) : value 0 text < 10 ^ text.length := by
  induction text with
  | nil => simp [value]
  | cons digit text ih =>
    rw [List.all_cons, Bool.and_eq_true] at digits
    have small : digit.toNat - '0'.toNat < 10 := by
      have bounds := digits.1
      simp only [Char.isDigit, Bool.and_eq_true, decide_eq_true_eq, ge_iff_le, UInt32.le_iff_toNat_le] at bounds
      have high : digit.toNat ≤ 57 := bounds.2
      have zero : '0'.toNat = 48 := rfl
      omega
    have rest := ih digits.2
    have split := value_append_eq [digit] text
    have first : value 0 [digit] = digit.toNat - '0'.toNat := Nat.zero_add _
    rw [List.singleton_append, first] at split
    rw [split, List.length_cons, pow_succ]
    have step : (digit.toNat - '0'.toNat) * 10 ^ text.length + 10 ^ text.length ≤ 10 * 10 ^ text.length := by
      rw [← Nat.succ_mul]
      exact Nat.mul_le_mul_right _ small
    omega

theorem digitChar_lt {d d' : ℕ} (less : d < d') (small : d' < 10) : Nat.digitChar d < Nat.digitChar d' := by
  interval_cases d' <;> interval_cases d <;> decide

theorem digits_mod (width n : ℕ) : digits width (n % 10 ^ width) = digits width n := by
  have same : ∀ k ≤ width, digits k (n % 10 ^ width) = digits k n := by
    intro k within
    induction k with
    | zero => rfl
    | succ k ih =>
      have digit : n % 10 ^ width / 10 ^ k % 10 = n / 10 ^ k % 10 := by
        have split : 10 ^ width = 10 ^ k * 10 * 10 ^ (width - k - 1) := by
          rw [← pow_succ, ← pow_add]
          congr 1
          omega
        rw [split, mul_assoc, Nat.mod_mul_right_div_self, Nat.mod_mod_of_dvd _ (Nat.dvd_mul_right 10 _)]
      rw [digits, digits, digit, ih (by omega)]
  exact same width le_rfl

/-- Digits of one width compare as their numbers do. -/
theorem digits_lt (less : a < b) (fits : b < 10 ^ width) : digits width a < digits width b := by
  induction width generalizing a b with
  | zero => simp at fits; omega
  | succ width ih =>
    have positive : 0 < 10 ^ width := Nat.pow_pos (by decide)
    have high : ∀ n < 10 ^ (width + 1), n / 10 ^ width < 10 := fun n small =>
      Nat.div_lt_of_lt_mul (by rwa [pow_succ] at small)
    have first := high b fits
    have first' := high a (less.trans fits)
    rw [digits, digits, Nat.mod_eq_of_lt first, Nat.mod_eq_of_lt first', List.cons_lt_cons_iff]
    rcases Nat.lt_or_eq_of_le (Nat.div_le_div_right (c := 10 ^ width) less.le) with smaller | equal
    · exact .inl (digitChar_lt smaller first)
    · refine .inr ⟨by rw [equal], ?_⟩
      rw [← digits_mod width a, ← digits_mod width b]
      refine ih ?_ (Nat.mod_lt _ positive)
      have parts := Nat.div_add_mod a (10 ^ width)
      have parts' := Nat.div_add_mod b (10 ^ width)
      rw [equal] at parts
      omega

/-- Behind fronts of one length, the backs decide only between equal fronts. -/
theorem append_lt {α : Type*} [LinearOrder α] {front front' back back' : List α} (size : front.length = front'.length)
    (less : front < front' ∨ front = front' ∧ back < back') : front ++ back < front' ++ back' := by
  induction front generalizing front' with
  | nil =>
    cases front' with
    | nil => simpa using less
    | cons => cases size
  | cons x front ih =>
    cases front' with
    | nil => cases size
    | cons y front' =>
      rw [List.cons_append, List.cons_append, List.cons_lt_cons_iff]
      rw [List.cons_lt_cons_iff, List.cons.injEq] at less
      rcases less with (first | ⟨same, rest⟩) | ⟨⟨same, rest⟩, last⟩
      · exact .inl first
      · exact .inr ⟨same, ih (Nat.succ.inj size) (.inl rest)⟩
      · exact .inr ⟨same, ih (Nat.succ.inj size) (.inr ⟨rest, last⟩)⟩

/-! ## Records -/

/-- The width of each field, and the separator behind it. -/
abbrev Layout := List (ℕ × List Char)

variable {layout : Layout}

def render : Layout → List ℕ → List Char
  | (width, separator) :: layout, n :: fields => digits width n ++ (separator ++ render layout fields)
  | _, _ => []

def parse : Layout → List Char → List ℕ
  | (width, separator) :: layout, text =>
    value 0 (text.take width) :: parse layout (text.drop (width + separator.length))
  | [], _ => []

/-- Every field fits its width. -/
def Fits (layout : Layout) (fields : List ℕ) : Prop :=
  List.Forall₂ (fun (field : ℕ × List Char) n => n < 10 ^ field.1) layout fields

/-- What a record is written with. -/
theorem mem_render {c : Char} (mem : c ∈ render layout xs) :
    c.isDigit = true ∨ ∃ field ∈ layout, c ∈ field.2 := by
  induction layout generalizing xs with
  | nil =>
    rw [render] at mem
    · cases mem
    · nofun
  | cons field layout ih =>
    obtain ⟨width, separator⟩ := field
    cases xs with
    | nil =>
      rw [render] at mem
      · cases mem
      · nofun
    | cons n fields =>
      rw [render, List.mem_append, List.mem_append] at mem
      rcases mem with digit | own | later
      · exact .inl (List.all_eq_true.mp (isDigit_digits width n) c digit)
      · exact .inr ⟨_, List.mem_cons_self, own⟩
      · rcases ih later with digit | ⟨field, held, own⟩
        · exact .inl digit
        · exact .inr ⟨field, List.mem_cons_of_mem _ held, own⟩

theorem parse_render (fits : Fits layout xs) : parse layout (render layout xs) = xs := by
  induction fits with
  | nil => rfl
  | @cons field n layout fields small _ ih =>
    obtain ⟨width, separator⟩ := field
    have first : (digits width n ++ (separator ++ render layout fields)).take width = digits width n :=
      List.take_left' (length_digits width n)
    have rest : (digits width n ++ (separator ++ render layout fields)).drop (width + separator.length) =
        render layout fields := by
      rw [← List.append_assoc]
      exact List.drop_left' (by simp)
    rw [render, parse, first, rest, ih, value_digits, Nat.mod_eq_of_lt small]
    simp

/-- **Rendering keeps the order** of records. -/
theorem render_lt (fits : Fits layout xs) (fits' : Fits layout ys) (less : xs < ys) :
    render layout xs < render layout ys := by
  induction fits generalizing ys with
  | nil =>
    cases fits'
    exact absurd less (lt_irrefl _)
  | @cons field n layout fields small _ ih =>
    obtain ⟨width, separator⟩ := field
    cases fits' with
    | cons small' others =>
      rw [List.cons_lt_cons_iff] at less
      rw [render, render]
      refine append_lt (by simp) ?_
      rcases less with first | ⟨rfl, rest⟩
      · exact .inl (digits_lt first small')
      · exact .inr ⟨rfl, append_lt rfl (.inr ⟨rfl, ih others rest⟩)⟩

end FixedWidth
