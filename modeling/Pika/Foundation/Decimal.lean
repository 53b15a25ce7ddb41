import Mathlib.Algebra.Ring.Nat
import Mathlib.Data.List.Basic

/-!
# Decimal numerals

Numbers written as decimal bytes, a reader of digit strings that accepts
leading zeros, and the reader of canonical signed numerals in a range.
-/

namespace Pika.Foundation

open List

/-- The bytes of a text. -/
def ascii (text : String) : List UInt8 := text.toList.map fun letter => UInt8.ofNat letter.toNat

/-- A literal is a list of letters, so this replaces reading its letters. -/
theorem ascii_ofList (letters : List Char) :
    ascii (String.ofList letters) = letters.map fun letter => UInt8.ofNat letter.toNat := by
  rw [ascii, String.toList_ofList]

theorem not_mem_ascii_ofList (absent : byte ∉ letters.map fun letter => UInt8.ofNat letter.toNat) :
    byte ∉ ascii (String.ofList letters) := by
  rwa [ascii_ofList]

/-- The byte of a digit. -/
def digitByte (digit : Nat) : UInt8 := UInt8.ofNat (48 + digit)

/-- The digit of a byte. -/
def byteDigit (byte : UInt8) : Option Nat :=
  if 48 ≤ byte.toNat ∧ byte.toNat < 58 then some (byte.toNat - 48) else none

/-- The decimal numeral of a number. -/
def decimal (number : Nat) : List UInt8 :=
  if number < 10 then [digitByte number]
  else decimal (number / 10) ++ [digitByte (number % 10)]

/-- The number of a digit string behind the digits already read. -/
def readDigitsFrom (number : Nat) : List UInt8 → Option Nat
  | [] => some number
  | byte :: bytes =>
    (byteDigit byte).bind fun digit => readDigitsFrom (10 * number + digit) bytes

/-- The number of a non-empty digit string. -/
def readDigits : List UInt8 → Option Nat
  | [] => none
  | byte :: bytes => readDigitsFrom 0 (byte :: bytes)

theorem byteDigit_digitByte (small : digit < 10) : byteDigit (digitByte digit) = some digit := by
  have each : ∀ digit < 10, byteDigit (digitByte digit) = some digit := by decide
  exact each digit small

theorem readDigitsFrom_append (number : Nat) (first second : List UInt8) :
    readDigitsFrom number (first ++ second) = (readDigitsFrom number first).bind fun read =>
        readDigitsFrom read second := by
  induction first generalizing number with
  | nil => rfl
  | cons byte bytes ih =>
    rw [cons_append, readDigitsFrom, readDigitsFrom]
    cases byteDigit byte with
    | none => rfl
    | some digit => exact ih _

theorem decimal_ne_nil (number : Nat) : decimal number ≠ [] := by
  rw [decimal]
  split_ifs <;> simp

/-- A numeral is read as the number written. -/
theorem readDigitsFrom_decimal (number : Nat) :
    readDigitsFrom 0 (decimal number) = some number := by
  fun_induction decimal number with
  | case1 number small => simp [readDigitsFrom, byteDigit_digitByte small]
  | case2 number large ih =>
    have last : number % 10 < 10 := Nat.mod_lt _ (by decide)
    rw [readDigitsFrom_append, ih]
    simp [readDigitsFrom, byteDigit_digitByte last, Nat.div_add_mod]

/-- A numeral is read back. -/
@[simp] theorem readDigits_decimal (number : Nat) :
    readDigits (decimal number) = some number := by
  cases written : decimal number with
  | nil => exact absurd written (decimal_ne_nil number)
  | cons byte bytes => rw [readDigits, ← written, readDigitsFrom_decimal]

/-- The length of a numeral bounds the number. -/
theorem length_decimal_le_iff (number digits : Nat) :
    (decimal number).length ≤ digits + 1 ↔ number < 10 ^ (digits + 1) := by
  induction digits generalizing number with
  | zero =>
    rw [decimal]
    split_ifs with small
    · simpa using small
    · have longer := length_pos_iff.mpr (decimal_ne_nil (number / 10))
      simp only [length_append, length_singleton]
      omega
  | succ digits ih =>
    rw [decimal]
    split_ifs with small
    · have grows : 10 ≤ 10 ^ (digits + 1 + 1) := Nat.le_self_pow (Nat.succ_ne_zero _) 10
      simp only [length_singleton]
      omega
    · rw [length_append, length_singleton, Nat.add_le_add_iff_right, ih,
        Nat.div_lt_iff_lt_mul (by decide), ← Nat.pow_succ]

/-- Leading zeros do not matter to the reader. -/
theorem readDigits_replicate_zero (zeros : Nat) (read : readDigits numeral = some number) :
    readDigits (List.replicate zeros 48 ++ numeral) = some number := by
  have fromZero : readDigitsFrom 0 numeral = some number := by
    cases numeral with
    | nil => cases read
    | cons byte bytes => exact read
  have behind : readDigitsFrom 0 (List.replicate zeros 48 ++ numeral) = some number := by
    induction zeros with
    | zero => exact fromZero
    | succ zeros ih => exact ih
  cases whole : List.replicate zeros 48 ++ numeral with
  | nil =>
    rw [whole] at behind
    obtain ⟨_, rfl⟩ := append_eq_nil_iff.mp whole
    cases read
  | cons byte bytes => rwa [readDigits, ← whole]

theorem exists_digit_of_mem_decimal (member : byte ∈ decimal number) :
    ∃ digit < 10, byte = digitByte digit := by
  fun_induction decimal number with
  | case1 number small => exact ⟨number, small, mem_singleton.mp member⟩
  | case2 number large ih =>
    rcases mem_append.mp member with earlier | last
    · exact ih earlier
    · exact ⟨number % 10, Nat.mod_lt _ (by decide), mem_singleton.mp last⟩

/-- A proper beginning of a numeral is the numeral of a number with fewer
digits. -/
theorem exists_decimal_of_prefix (beginning : part <+: decimal number)
    (nonempty : part ≠ []) (proper : part ≠ decimal number) :
    ∃ shorter ≤ number / 10, part = decimal shorter := by
  fun_induction decimal number with
  | case1 number small =>
    have length := beginning.length_le
    have positive := length_pos_iff.mpr nonempty
    refine absurd (beginning.eq_of_length_le ?_) proper
    simp only [length_singleton] at length ⊢
    omega
  | case2 number large ih =>
    rcases prefix_concat_iff.mp beginning with whole | earlier
    · exact absurd whole proper
    · by_cases same : part = decimal (number / 10)
      · exact ⟨number / 10, Nat.le_refl _, same⟩
      · obtain ⟨shorter, bounded, rfl⟩ := ih earlier same
        exact ⟨shorter, by omega, rfl⟩

/-! ## Signed numerals -/

/-- The byte of a minus sign. -/
def minusByte : UInt8 := 45

/-- The decimal numeral of an integer. -/
def decimalInt : Int → List UInt8
  | .ofNat number => decimal number
  | .negSucc number => minusByte :: decimal (number + 1)

/-- The integer of a digit string with an optional minus sign. -/
def readInt : List UInt8 → Option Int
  | [] => none
  | byte :: bytes =>
    if byte = minusByte then (readDigits bytes).map fun number => -(number : Int)
    else (readDigits (byte :: bytes)).map fun number => (number : Int)

theorem byteDigit_minusByte : byteDigit minusByte = none := by
  decide

theorem decimalInt_ne_nil (number : Int) : decimalInt number ≠ [] := by
  cases number with
  | ofNat number => exact decimal_ne_nil number
  | negSucc number => exact cons_ne_nil _ _

/-- So is one with a sign. -/
@[simp] theorem readInt_decimalInt (number : Int) :
    readInt (decimalInt number) = some number := by
  cases number with
  | negSucc number =>
    simp only [decimalInt, readInt, if_true, readDigits_decimal]
    rfl
  | ofNat number =>
    have read := readDigits_decimal number
    rw [decimalInt]
    cases written : decimal number with
    | nil => exact absurd written (decimal_ne_nil number)
    | cons byte bytes =>
      rw [written] at read
      have unsigned : byte ≠ minusByte := by
        rintro rfl
        simp [readDigits, readDigitsFrom, byteDigit_minusByte] at read
      simp [readInt, unsigned, read]

/-- A numeral belongs to one number. -/
theorem decimalInt_injective : Function.Injective decimalInt := by
  intro first second same
  have read := congrArg readInt same
  rw [readInt_decimalInt, readInt_decimalInt] at read
  exact Option.some.inj read

/-- A numeral is made of digits and a sign. -/
theorem not_mem_decimalInt (noDigit : byteDigit byte = none)
    (noSign : byte ≠ minusByte) (number : Int) :
    byte ∉ decimalInt number := by
  have unsigned : ∀ number : Nat, byte ∉ decimal number := by
    intro number member
    obtain ⟨digit, small, rfl⟩ := exists_digit_of_mem_decimal member
    rw [byteDigit_digitByte small] at noDigit
    cases noDigit
  cases number with
  | ofNat number => exact unsigned number
  | negSucc number =>
    rw [decimalInt, mem_cons, not_or]
    exact ⟨noSign, unsigned _⟩

/-- The integer of a canonical numeral in a range. -/
def readIntIn (lower upper : Int) (numeral : List UInt8) : Option Int :=
  (readInt numeral).filter fun number =>
    decide (decimalInt number = numeral ∧ lower ≤ number ∧ number < upper)

/-- The reader accepts exactly the canonical numerals of the range. -/
theorem readIntIn_eq_some_iff :
    readIntIn lower upper numeral = some number ↔
      decimalInt number = numeral ∧ lower ≤ number ∧ number < upper := by
  rw [readIntIn, Option.filter_eq_some_iff]
  constructor
  · rintro ⟨_, accepted⟩
    exact of_decide_eq_true accepted
  · rintro ⟨rfl, inRange⟩
    exact ⟨readInt_decimalInt number, by simpa using inRange⟩

end Pika.Foundation
