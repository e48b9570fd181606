import Mathlib.Data.List.Lex
import Mathlib.Order.Basic
import Mathlib.Algebra.Order.Ring.Nat

/-!
# Fixed-width texts

Numbers with leading zeros, and rows of such numbers with fixed separators. A row reads back as the
numbers that it was written from (`read_write`), and rows compare as texts the way the numbers compare
one after another (`write_lt_write`): the first difference between two texts of one layout is between
two digits of the same place.
-/

namespace TTasks.Format

/-! ## Digits -/

/-- The character of a digit. -/
def digit (d : Nat) : Char := Char.ofNat ('0'.toNat + d)

/-- The digit of a character. -/
def ofDigit? (c : Char) : Option Nat :=
  if '0' ≤ c ∧ c ≤ '9' then some (c.toNat - '0'.toNat) else none

/-- The number with `w` digits, leading zeros included. -/
def digits : Nat → Nat → List Char
  | 0, _ => []
  | w + 1, n => digit (n / 10 ^ w) :: digits w (n % 10 ^ w)

/-- The number that the digits stand for. -/
def ofDigits? : List Char → Option Nat
  | [] => some 0
  | c :: cs => do
    let d ← ofDigit? c
    let n ← ofDigits? cs
    pure (d * 10 ^ cs.length + n)

/-- A digit is read back. -/
theorem ofDigit?_digit : ∀ d < 10, ofDigit? (digit d) = some d := by decide

/-- Digits are ordered as their numbers are. -/
theorem digit_lt_digit : ∀ d < 10, ∀ e < 10, (digit d < digit e ↔ d < e) := by decide

/-- Different numbers have different digits. -/
theorem digit_inj : ∀ d < 10, ∀ e < 10, (digit d = digit e ↔ d = e) := by decide

/-- The number is padded or cut to the width. -/
@[simp] theorem length_digits (w n : Nat) : (digits w n).length = w := by
  induction w generalizing n with
  | zero => rfl
  | succ w ih => rw [digits, List.length_cons, ih]

/-- A number that fits leaves one digit in front. -/
theorem leading_lt {w n : Nat} (fits : n < 10 ^ (w + 1)) : n / 10 ^ w < 10 := by
  apply Nat.div_lt_of_lt_mul
  rwa [← Nat.pow_succ]

/-- What follows the digit in front fits the rest of the width. -/
theorem trailing_lt (w n : Nat) : n % 10 ^ w < 10 ^ w := Nat.mod_lt _ (Nat.pow_pos (by omega))

/-- The digits of a number that fits are read back. -/
theorem ofDigits?_digits {w n : Nat} (fits : n < 10 ^ w) : ofDigits? (digits w n) = some n := by
  induction w generalizing n with
  | zero =>
    obtain rfl : n = 0 := by omega
    rfl
  | succ w ih =>
    rw [digits, ofDigits?, ofDigit?_digit _ (leading_lt fits), ih (trailing_lt w n), length_digits]
    exact congrArg some (Nat.div_add_mod' n (10 ^ w))

/-- A character that reads as a digit is that digit. -/
theorem digit_of_ofDigit? {c : Char} {d : Nat} (found : ofDigit? c = some d) :
    digit d = c ∧ d < 10 := by
  unfold ofDigit? at found
  split at found
  · rename_i range
    obtain ⟨low, high⟩ := range
    obtain rfl := Option.some.inj found
    have low' : '0'.toNat ≤ c.toNat := low
    have high' : c.toNat ≤ '9'.toNat := high
    refine ⟨?_, ?_⟩
    · rw [digit, Nat.add_sub_cancel' low', Char.ofNat_toNat]
    · have top : '9'.toNat = '0'.toNat + 9 := rfl
      omega
  · cases found

/-- Characters that read as a number are its digits. -/
theorem digits_of_ofDigits? {cs : List Char} {n : Nat} (found : ofDigits? cs = some n) :
    digits cs.length n = cs ∧ n < 10 ^ cs.length := by
  induction cs generalizing n with
  | nil =>
    cases found
    exact ⟨rfl, by simp⟩
  | cons c cs ih =>
    simp only [ofDigits?, Option.bind_eq_bind, Option.bind_eq_some_iff] at found
    obtain ⟨d, leading, m, trailing, same⟩ := found
    obtain rfl : d * 10 ^ cs.length + m = n := Option.some.inj same
    obtain ⟨rfl, small⟩ := digit_of_ofDigit? leading
    obtain ⟨written, fits⟩ := ih trailing
    have pos : 0 < 10 ^ cs.length := Nat.pow_pos (by omega)
    refine ⟨?_, ?_⟩
    · rw [List.length_cons, digits, Nat.mul_comm, Nat.mul_add_div pos, Nat.mul_add_mod,
        Nat.div_eq_of_lt fits, Nat.mod_eq_of_lt fits, Nat.add_zero, written]
    · rw [List.length_cons, Nat.pow_succ]
      have most : d * 10 ^ cs.length ≤ 9 * 10 ^ cs.length := Nat.mul_le_mul_right _ (by omega)
      omega

/-- Numbers that fit are known by their digits. -/
theorem digits_inj {w a b : Nat} (ha : a < 10 ^ w) (hb : b < 10 ^ w) :
    digits w a = digits w b ↔ a = b := by
  constructor
  · intro same
    have read := ofDigits?_digits ha
    rw [same, ofDigits?_digits hb] at read
    exact (Option.some.inj read).symm
  · rintro rfl
    rfl

/-- Numbers compare by their leading parts first. -/
theorem lt_iff_div_mod {p : Nat} (pos : 0 < p) (a b : Nat) :
    a < b ↔ a / p < b / p ∨ a / p = b / p ∧ a % p < b % p := by
  have split := Nat.div_add_mod a p
  have split' := Nat.div_add_mod b p
  have here := Nat.mod_lt a pos
  have there := Nat.mod_lt b pos
  rcases Nat.lt_trichotomy (a / p) (b / p) with less | same | more
  · have gap : p * (a / p + 1) ≤ p * (b / p) := Nat.mul_le_mul_left p less
    rw [Nat.mul_succ] at gap
    omega
  · rw [same] at split
    omega
  · have gap : p * (b / p + 1) ≤ p * (a / p) := Nat.mul_le_mul_left p more
    rw [Nat.mul_succ] at gap
    omega

/-- Numbers of one width compare as texts the way they compare as numbers. -/
theorem digits_lt_digits {w a b : Nat} (ha : a < 10 ^ w) (hb : b < 10 ^ w) :
    digits w a < digits w b ↔ a < b := by
  induction w generalizing a b with
  | zero =>
    obtain rfl : a = 0 := by omega
    obtain rfl : b = 0 := by omega
    simp
  | succ w ih =>
    have here := leading_lt ha
    have there := leading_lt hb
    rw [digits, digits, List.cons_lt_cons_iff, digit_lt_digit _ here _ there,
      digit_inj _ here _ there, ih (trailing_lt w a) (trailing_lt w b)]
    exact (lt_iff_div_mod (Nat.pow_pos (by omega)) a b).symm

/-! ## Rows -/

/-- Lists of one length compare before what follows them. -/
theorem append_lt_append {α : Type} [LT α] {l l' r r' : List α} (length : l.length = l'.length) :
    l ++ r < l' ++ r' ↔ l < l' ∨ l = l' ∧ r < r' := by
  induction l generalizing l' with
  | nil =>
    obtain rfl := List.eq_nil_of_length_eq_zero length.symm
    simp
  | cons c l ih =>
    cases l' with
    | nil => cases length
    | cons c' l' =>
      rw [List.cons_append, List.cons_append, List.cons_lt_cons_iff, List.cons_lt_cons_iff,
        ih (Nat.succ.inj length), List.cons.injEq]
      tauto

/-- A layout: the width of each number, and the separator after it. -/
abbrev Layout := List (Nat × List Char)

/-- The numbers have the widths of the layout. -/
def Fits (layout : Layout) (ns : List Nat) : Prop :=
  List.Forall₂ (fun part n => n < 10 ^ part.1) layout ns

/-- The text of a row. -/
def write : Layout → List Nat → List Char
  | (w, separator) :: layout, n :: ns => digits w n ++ separator ++ write layout ns
  | _, _ => []

/-- The number at the beginning of a text, and what follows it. -/
def readNumber (w : Nat) (text : List Char) : Option (Nat × List Char) :=
  if w ≤ text.length then (ofDigits? (text.take w)).map fun n => (n, text.drop w) else none

/-- The row at the beginning of a text, and what follows it. -/
def read : Layout → List Char → Option (List Nat × List Char)
  | [], text => some ([], text)
  | (w, separator) :: layout, text => do
    let (n, text) ← readNumber w text
    let text ← text.dropPrefix? separator
    let (ns, rest) ← read layout text
    pure (n :: ns, rest)

/-- A number in front of other text is read back, and the text is left. -/
theorem readNumber_digits {w n : Nat} (fits : n < 10 ^ w) (rest : List Char) :
    readNumber w (digits w n ++ rest) = some (n, rest) := by
  have length := length_digits w n
  unfold readNumber
  rw [if_pos (by simp), List.take_left' length, List.drop_left' length, ofDigits?_digits fits]
  rfl

/-- Text that begins with a number begins with the number's digits. -/
theorem eq_of_readNumber {w n : Nat} {text rest : List Char}
    (found : readNumber w text = some (n, rest)) : text = digits w n ++ rest ∧ n < 10 ^ w := by
  unfold readNumber at found
  split at found
  · rename_i long
    obtain ⟨m, value, same⟩ := Option.map_eq_some_iff.mp found
    obtain ⟨rfl, rfl⟩ := Prod.mk.inj same
    obtain ⟨written, small⟩ := digits_of_ofDigits? value
    rw [List.length_take, Nat.min_eq_left long] at written small
    exact ⟨by rw [written, List.take_append_drop], small⟩
  · cases found

/-- A separator in front is taken off. -/
theorem dropPrefix?_append (separator rest : List Char) :
    (separator ++ rest).dropPrefix? separator = some rest :=
  List.dropPrefix?_eq_some_iff.mpr ⟨separator, rfl, by simp⟩

/-- A row reads back as its numbers. -/
theorem read_write {layout : Layout} {ns : List Nat} (fits : Fits layout ns) (rest : List Char) :
    read layout (write layout ns ++ rest) = some (ns, rest) := by
  induction fits with
  | nil => rfl
  | cons small _ ih =>
    rename_i part n layout ns _
    obtain ⟨w, separator⟩ := part
    simp only [write, read, List.append_assoc, readNumber_digits small, Option.bind_eq_bind,
      Option.bind_some, dropPrefix?_append, ih]
    rfl

/-- Nothing else reads as a row. -/
theorem eq_of_read {layout : Layout} {ns : List Nat} {text rest : List Char}
    (found : read layout text = some (ns, rest)) : text = write layout ns ++ rest ∧ Fits layout ns := by
  induction layout generalizing ns text rest with
  | nil =>
    cases found
    exact ⟨rfl, .nil⟩
  | cons part layout ih =>
    obtain ⟨w, separator⟩ := part
    simp only [read, Option.bind_eq_bind, Option.bind_eq_some_iff] at found
    obtain ⟨⟨n, text'⟩, number, text'', dropped, ⟨ns', rest'⟩, later, same⟩ := found
    cases same
    obtain ⟨rfl, small⟩ := eq_of_readNumber number
    obtain ⟨p, rfl, same⟩ := List.dropPrefix?_eq_some_iff.mp dropped
    obtain ⟨rfl, fits⟩ := ih later
    obtain rfl := eq_of_beq same
    refine ⟨?_, .cons small fits⟩
    simp only [write, List.append_assoc]

/-- Rows compare as texts the way their numbers compare, the first difference first. -/
theorem write_lt_write {layout : Layout} {ns ms : List Nat} (fits : Fits layout ns)
    (fits' : Fits layout ms) (r r' : List Char) :
    write layout ns ++ r < write layout ms ++ r' ↔ ns < ms ∨ ns = ms ∧ r < r' := by
  induction fits generalizing ms with
  | nil =>
    cases fits'
    simp [write]
  | cons small _ ih =>
    rename_i part n layout ns _
    obtain ⟨w, separator⟩ := part
    cases fits' with
    | cons small' fits' =>
      rename_i m ms
      have length : (digits w n).length = (digits w m).length := by simp
      have tail := ih fits'
      simp only [write, List.append_assoc]
      rw [append_lt_append length, append_lt_append (l := separator) rfl, tail,
        digits_lt_digits small small', digits_inj small small', List.cons_lt_cons_iff, List.cons.injEq]
      have none : ¬ separator < separator := List.lt_irrefl separator
      tauto

end TTasks.Format
