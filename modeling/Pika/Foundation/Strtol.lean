import Mathlib.Data.List.TakeWhile
import Pika.Foundation.Decimal

/-!
# Numbers as the C library reads them

`strtol` skips white space, takes a sign and reads as many digits as there are;
it returns where it stopped.  On a string of digits it reads the number and
stops at the end.
-/

namespace Pika.Foundation

/-- `isspace`. -/
def isSpace (byte : UInt8) : Bool := byte = 32 || (9 ≤ byte && byte ≤ 13)

/-- `isdigit`. -/
def isDigit (byte : UInt8) : Bool := (byteDigit byte).isSome

/-- The byte of a plus sign. -/
def plusByte : UInt8 := 43

/-- A sign, and whether it is a minus. -/
def takeSign : List UInt8 → Bool × List UInt8
  | [] => (false, [])
  | byte :: bytes =>
    if byte = minusByte then (true, bytes)
    else if byte = plusByte then (false, bytes)
    else (false, byte :: bytes)

/-- `strtol` in base ten, on numbers within its range: the number, and the
text from `end` on. -/
def strtol (text : List UInt8) : Int × List UInt8 :=
  let signed := takeSign (text.dropWhile isSpace)
  match readDigits (signed.2.takeWhile isDigit) with
  | some number => (if signed.1 then -(number : Int) else number, signed.2.dropWhile isDigit)
  | none => (0, text)

/-- `atoi`. -/
def atoi (text : List UInt8) : Int := (strtol text).1

theorem isDigit_iff (byte : UInt8) : isDigit byte = true ↔ 48 ≤ byte.toNat ∧ byte.toNat < 58 := by
  rw [isDigit, byteDigit]
  split_ifs with inside
  · exact iff_of_true rfl inside
  · exact iff_of_false Bool.false_ne_true inside

theorem not_special_of_isDigit (digit : isDigit byte = true) :
    isSpace byte = false ∧ byte ≠ minusByte ∧ byte ≠ plusByte := by
  obtain ⟨lower, -⟩ := (isDigit_iff byte).mp digit
  refine ⟨?_, ?_, ?_⟩
  · rw [isSpace, Bool.or_eq_false_iff, Bool.and_eq_false_iff,
      decide_eq_false_iff_not, decide_eq_false_iff_not, decide_eq_false_iff_not,
      UInt8.le_iff_toNat_le, UInt8.le_iff_toNat_le, ← UInt8.toNat_inj]
    change ¬byte.toNat = 32 ∧ (¬9 ≤ byte.toNat ∨ ¬byte.toNat ≤ 13)
    omega
  · rintro rfl
    exact absurd lower (by decide)
  · rintro rfl
    exact absurd lower (by decide)

/-- `strtol` reads a numeral to its end. -/
theorem strtol_of_readDigits (digits : ∀ byte ∈ text, isDigit byte = true)
    (read : readDigits text = some number) :
    strtol text = ((number : Int), []) := by
  cases text with
  | nil => cases read
  | cons byte bytes =>
    obtain ⟨noSpace, noMinus, noPlus⟩ := not_special_of_isDigit (digits byte List.mem_cons_self)
    have unsigned : takeSign ((byte :: bytes).dropWhile isSpace) = (false, byte :: bytes) := by
      rw [List.dropWhile_cons_of_neg (Bool.eq_false_iff.mp noSpace),
        takeSign, if_neg noMinus, if_neg noPlus]
    rw [strtol, unsigned, List.takeWhile_eq_self_iff.mpr digits, read]
    simp only [Bool.false_eq_true, if_false]
    rw [List.dropWhile_eq_nil_iff.mpr digits]

theorem exists_readDigitsFrom (digits : ∀ byte ∈ text, isDigit byte = true) (number : Nat) :
    ∃ result, readDigitsFrom number text = some result := by
  induction text generalizing number with
  | nil => exact ⟨number, rfl⟩
  | cons byte bytes ih =>
    obtain ⟨first, rest⟩ := List.forall_mem_cons.mp digits
    obtain ⟨digit, isDigit⟩ := Option.isSome_iff_exists.mp first
    rw [readDigitsFrom, isDigit, Option.bind_some]
    exact ih rest _

theorem strtol_snd_of_digits (digits : ∀ byte ∈ text, isDigit byte = true) :
    (strtol text).2 = [] := by
  cases text with
  | nil => rfl
  | cons byte bytes =>
    obtain ⟨number, read⟩ := exists_readDigitsFrom digits 0
    rw [strtol_of_readDigits digits (by rw [readDigits]; exact read)]

/-! ## Numerals of a fixed width -/

/-- The last digits of a number. -/
def fixedDecimal : Nat → Nat → List UInt8
  | 0, _ => []
  | width + 1, number => fixedDecimal width (number / 10) ++ [digitByte (number % 10)]

@[simp] theorem length_fixedDecimal (width number : Nat) :
    (fixedDecimal width number).length = width := by
  induction width generalizing number with
  | zero => rfl
  | succ width ih => rw [fixedDecimal, List.length_append, ih, List.length_singleton]

theorem isDigit_of_mem_fixedDecimal (member : byte ∈ fixedDecimal width number) :
    isDigit byte = true := by
  induction width generalizing number with
  | zero => cases member
  | succ width ih =>
    rcases List.mem_append.mp member with earlier | last
    · exact ih earlier
    · rw [List.mem_singleton.mp last, isDigit,
        byteDigit_digitByte (Nat.mod_lt _ (by decide)), Option.isSome_some]

theorem readDigitsFrom_fixedDecimal (fits : number < 10 ^ width) :
    readDigitsFrom 0 (fixedDecimal width number) = some number := by
  induction width generalizing number with
  | zero =>
    rw [Nat.lt_one_iff.mp fits]
    rfl
  | succ width ih =>
    have last : number % 10 < 10 := Nat.mod_lt _ (by decide)
    have shorter : number / 10 < 10 ^ width := by
      rw [Nat.div_lt_iff_lt_mul (by decide), ← Nat.pow_succ]
      exact fits
    rw [fixedDecimal, readDigitsFrom_append, ih shorter]
    simp [readDigitsFrom, byteDigit_digitByte last, Nat.div_add_mod]

/-- A numeral of fixed width is read back. -/
theorem strtol_fixedDecimal (fits : number < 10 ^ (width + 1)) :
    strtol (fixedDecimal (width + 1) number) = ((number : Int), []) := by
  apply strtol_of_readDigits fun _ => isDigit_of_mem_fixedDecimal
  cases written : fixedDecimal (width + 1) number with
  | nil =>
    have length := length_fixedDecimal (width + 1) number
    rw [written] at length
    cases length
  | cons byte bytes =>
    rw [readDigits, ← written]
    exact readDigitsFrom_fixedDecimal fits

end Pika.Foundation
