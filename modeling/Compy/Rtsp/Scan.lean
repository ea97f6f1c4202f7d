import Mathlib.Algebra.Group.Nat.Defs
import Mathlib.Data.List.TakeWhile
import Compy.Rtsp.Parsing

/-!
# Integers as text

`sscanf` and `printf` as the parsers and the serialisers use them: one integer
conversion each, as the C library of a 64-bit host does it.  The unsigned
conversions go through `strtoul` and are cut down to the type asked for, `%zd`
goes through `strtol` and is kept as a `size_t`.
-/

set_option autoImplicit false

namespace Compy.Rtsp

/-- `CharSlice99_alloca_c_str` copies the slice; a C string ends at its first NUL. -/
def cStr (str : List UInt8) : List UInt8 := str.takeWhile (· != 0)

def isSpace (c : UInt8) : Bool := c == ' '.toUInt8 || '\t'.toUInt8 ≤ c && c ≤ '\r'.toUInt8

def digitsValue (digits : List UInt8) : Nat :=
  digits.foldl (fun value c => 10 * value + (c.toNat - '0'.toNat)) 0

/-- The sign and the magnitude of the number in front, `none` when there is none. -/
def scanInteger (str : List UInt8) : Option (Bool × Nat) :=
  let text := (cStr str).dropWhile isSpace
  let negative := text.head? == some '-'.toUInt8
  let unsigned := if negative || text.head? == some '+'.toUInt8 then text.tail else text
  let digits := unsigned.takeWhile isDigit
  if digits = [] then none else some (negative, digitsValue digits)

def strtoul (negative : Bool) (magnitude : Nat) : UInt64 :=
  if 2 ^ 64 ≤ magnitude then UInt64.ofNat (2 ^ 64 - 1)
  else if negative then -UInt64.ofNat magnitude
  else UInt64.ofNat magnitude

def strtol (negative : Bool) (magnitude : Nat) : UInt64 :=
  if negative then -UInt64.ofNat (min magnitude (2 ^ 63))
  else UInt64.ofNat (min magnitude (2 ^ 63 - 1))

def scanU8 (str : List UInt8) : Option UInt8 :=
  (scanInteger str).map fun number => (strtoul number.1 number.2).toUInt8

def scanU16 (str : List UInt8) : Option UInt16 :=
  (scanInteger str).map fun number => (strtoul number.1 number.2).toUInt16

def scanU32 (str : List UInt8) : Option UInt32 :=
  (scanInteger str).map fun number => (strtoul number.1 number.2).toUInt32

def scanSize (str : List UInt8) : Option UInt64 :=
  (scanInteger str).map fun number => strtol number.1 number.2

def decimal (n : Nat) : List UInt8 := (Nat.toDigits 10 n).map Char.toUInt8

/-- `%zd` takes the bits of a `size_t` for those of a signed number. -/
def decimalSize (len : UInt64) : List UInt8 :=
  if len.toNat < 2 ^ 63 then decimal len.toNat else '-'.toUInt8 :: decimal (2 ^ 64 - len.toNat)

/-! ## Reading back what was written -/

theorem digit_bounds {c : Char} (digit : c.isDigit) : 48 ≤ c.toNat ∧ c.toNat ≤ 57 := by
  simp only [Char.isDigit, Bool.and_eq_true, decide_eq_true_eq] at digit
  exact ⟨UInt32.le_iff_toNat_le.mp digit.1, UInt32.le_iff_toNat_le.mp digit.2⟩

theorem digit_toUInt8 {c : Char} (digit : c.isDigit) : c.toUInt8.toNat = c.toNat := by
  have bounds := digit_bounds digit
  show c.toNat % 256 = c.toNat
  omega

theorem isDigit_toUInt8 {c : Char} (digit : c.isDigit) : isDigit c.toUInt8 = true := by
  have bounds := digit_bounds digit
  simp only [isDigit, Bool.and_eq_true, decide_eq_true_eq, UInt8.le_iff_toNat_le,
    digit_toUInt8 digit]
  exact bounds

theorem decimal_digits (n : Nat) : ∀ c ∈ decimal n, isDigit c = true := by
  intro c member
  obtain ⟨char, written, rfl⟩ := List.mem_map.mp member
  exact isDigit_toUInt8 (Nat.isDigit_of_mem_toDigits (by decide) (by decide) written)

theorem decimal_length {n e : Nat} (positive : 0 < e) (below : n < 10 ^ e) :
    (decimal n).length ≤ e := by
  rw [decimal, List.length_map]
  exact (Nat.length_toDigits_le_iff (by decide) positive).mpr below

theorem decimal_ne_nil (n : Nat) : decimal n ≠ [] := by
  intro empty
  exact Nat.toDigits_ne_nil (List.map_eq_nil_iff.mp empty)

theorem digitsValue_chars (chars : List Char) (init : Nat)
    (digits : ∀ c ∈ chars, c.isDigit) :
    (chars.map Char.toUInt8).foldl (fun value c => 10 * value + (c.toNat - '0'.toNat)) init =
      Nat.ofDigitChars 10 chars init := by
  induction chars generalizing init with
  | nil => rfl
  | cons c chars ih =>
      have here := digit_toUInt8 (digits c List.mem_cons_self)
      rw [List.map_cons, List.foldl_cons, Nat.ofDigitChars_cons, here]
      exact ih _ fun other member => digits other (List.mem_cons_of_mem c member)

theorem digitsValue_decimal (n : Nat) : digitsValue (decimal n) = n := by
  rw [digitsValue, decimal, digitsValue_chars _ 0 fun c written =>
    Nat.isDigit_of_mem_toDigits (by decide) (by decide) written]
  exact Nat.ofDigitChars_ten_toDigits

theorem cStr_of_present (str : List UInt8) (present : ∀ c ∈ str, c ≠ 0) : cStr str = str :=
  List.takeWhile_eq_self_iff.mpr fun c member => bne_iff_ne.mpr (present c member)

theorem span_stops {p : UInt8 → Bool} {front rest : List UInt8} (all : ∀ c ∈ front, p c = true)
    (stops : ∀ c, rest.head? = some c → p c = false) :
    (front ++ rest).takeWhile p = front ∧ (front ++ rest).dropWhile p = rest := by
  rw [List.takeWhile_append_of_pos all, List.dropWhile_append_of_pos all]
  cases rest with
  | nil => simp
  | cons c rest => simp [stops c rfl]

theorem digit_not_isSpace {c : UInt8} (digit : isDigit c = true) : isSpace c = false := by
  have blank : (c == ' '.toUInt8) = false := beq_eq_false_iff_ne.mpr (matched_ne digit rfl)
  simp only [isDigit, Bool.and_eq_true, decide_eq_true_eq, UInt8.le_iff_toNat_le] at digit
  have above : ¬ c ≤ '\r'.toUInt8 := by
    rw [UInt8.le_iff_toNat_le]
    exact Nat.not_le.mpr (Nat.lt_of_lt_of_le (by decide) digit.1)
  rw [isSpace, blank, decide_eq_false above, Bool.and_false, Bool.or_false]

theorem scanInteger_digits (digits : List UInt8) (some_ : digits ≠ [])
    (all : ∀ c ∈ digits, isDigit c = true) :
    scanInteger digits = some (false, digitsValue digits) := by
  have text : cStr digits = digits :=
    cStr_of_present digits fun c member => matched_ne (all c member) rfl
  have whole : digits.takeWhile isDigit = digits := List.takeWhile_eq_self_iff.mpr all
  obtain ⟨first, rest, rfl⟩ := List.exists_cons_of_ne_nil some_
  have here := all first List.mem_cons_self
  have minus : first ≠ '-'.toUInt8 := matched_ne here rfl
  have plus : first ≠ '+'.toUInt8 := matched_ne here rfl
  have skipped : (first :: rest).dropWhile isSpace = first :: rest := by
    rw [List.dropWhile_cons, digit_not_isSpace here]
    rfl
  simp only [scanInteger, text, skipped, List.head?_cons, Option.some_beq_some,
    beq_eq_false_iff_ne.mpr minus, beq_eq_false_iff_ne.mpr plus]
  simp only [Bool.or_self, Bool.false_eq_true, if_false, whole, if_neg some_]

theorem scanInteger_negative (digits : List UInt8) (some_ : digits ≠ [])
    (all : ∀ c ∈ digits, isDigit c = true) :
    scanInteger ('-'.toUInt8 :: digits) = some (true, digitsValue digits) := by
  have text : cStr ('-'.toUInt8 :: digits) = '-'.toUInt8 :: digits := by
    refine cStr_of_present _ fun c member => ?_
    rcases List.mem_cons.mp member with rfl | later
    · decide
    · exact matched_ne (all c later) rfl
  have whole : digits.takeWhile isDigit = digits := List.takeWhile_eq_self_iff.mpr all
  have skipped : ('-'.toUInt8 :: digits).dropWhile isSpace = '-'.toUInt8 :: digits := by
    rw [List.dropWhile_cons]
    rfl
  simp only [scanInteger, text, skipped, List.head?_cons, beq_self_eq_true, Bool.true_or, if_true,
    List.tail_cons, whole, if_neg some_]

theorem scanInteger_decimal (n : Nat) : scanInteger (decimal n) = some (false, n) := by
  rw [scanInteger_digits _ (decimal_ne_nil n) (decimal_digits n), digitsValue_decimal]

theorem strtoul_small (n : Nat) (small : n < 2 ^ 64) : strtoul false n = UInt64.ofNat n := by
  rw [strtoul, if_neg (Nat.not_le.mpr small)]
  rfl

theorem scanU8_decimal (n : UInt8) : scanU8 (decimal n.toNat) = some n := by
  have bound := n.toNat_lt
  rw [scanU8, scanInteger_decimal, Option.map_some, strtoul_small _ (by omega)]
  congr 1
  apply UInt8.toNat_inj.mp
  rw [UInt64.toNat_toUInt8, UInt64.toNat_ofNat']
  omega

theorem scanU16_decimal (n : UInt16) : scanU16 (decimal n.toNat) = some n := by
  have bound := n.toNat_lt
  rw [scanU16, scanInteger_decimal, Option.map_some, strtoul_small _ (by omega)]
  congr 1
  apply UInt16.toNat_inj.mp
  rw [UInt64.toNat_toUInt16, UInt64.toNat_ofNat']
  omega

theorem scanU32_decimal (n : UInt32) : scanU32 (decimal n.toNat) = some n := by
  have bound := n.toNat_lt
  rw [scanU32, scanInteger_decimal, Option.map_some, strtoul_small _ (by omega)]
  congr 1
  apply UInt32.toNat_inj.mp
  rw [UInt64.toNat_toUInt32, UInt64.toNat_ofNat']
  omega

theorem scanSize_decimalSize (len : UInt64) : scanSize (decimalSize len) = some len := by
  have bound := len.toNat_lt
  by_cases small : len.toNat < 2 ^ 63
  · rw [decimalSize, if_pos small, scanSize, scanInteger_decimal, Option.map_some]
    congr 1
    apply UInt64.toNat_inj.mp
    rw [strtol, if_neg Bool.false_ne_true, UInt64.toNat_ofNat']
    omega
  · rw [decimalSize, if_neg small, scanSize,
      scanInteger_negative _ (decimal_ne_nil _) (decimal_digits _), digitsValue_decimal,
      Option.map_some]
    congr 1
    apply UInt64.toNat_inj.mp
    have magnitude : min (2 ^ 64 - len.toNat) (2 ^ 63) = 2 ^ 64 - len.toNat := by omega
    rw [strtol, if_pos rfl]
    dsimp only
    rw [magnitude, UInt64.toNat_neg, UInt64.toNat_ofNat', UInt64.size]
    omega

end Compy.Rtsp
