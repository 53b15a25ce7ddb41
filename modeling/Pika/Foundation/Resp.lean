import Pika.Foundation.Decimal

/-!
# Arrays of bulk strings

The request format of the Redis protocol: an array length, then every element
with its length in front.  A reader takes the lengths as digit strings.  What
is written is read back, with any number of leading zeros in a length.
-/

namespace Pika.Foundation

open List

/-- The byte of a carriage return. -/
def carriageReturn : UInt8 := 13

/-- The end of a line. -/
def newLine : List UInt8 := [carriageReturn, 10]

/-- The marker of an array. -/
def arrayMarker : UInt8 := 42

/-- The marker of a bulk string. -/
def bulkMarker : UInt8 := 36

/-- A length line with a given numeral. -/
def lengthLine (marker : UInt8) (numeral : List UInt8) : List UInt8 :=
  marker :: (numeral ++ newLine)

/-- A bulk string whose length is written with a given numeral. -/
def bulk (numeral text : List UInt8) : List UInt8 :=
  lengthLine bulkMarker numeral ++ (text ++ newLine)

/-- An array of bulk strings. -/
def respArray (texts : List (List UInt8)) : List UInt8 :=
  lengthLine arrayMarker (decimal texts.length) ++
    texts.flatMap fun text => bulk (decimal text.length) text

/-- Take the separator off the front. -/
def skipNewLine : List UInt8 → Option (List UInt8)
  | first :: second :: rest => if [first, second] = newLine then some rest else none
  | _ => none

/-- A length line, with what follows it. -/
def readLength (marker : UInt8) : List UInt8 → Option (Nat × List UInt8)
  | [] => none
  | first :: rest =>
    if first = marker then
      (readDigits (rest.takeWhile (· != carriageReturn))).bind fun length =>
        (skipNewLine (rest.dropWhile (· != carriageReturn))).map fun behind => (length, behind)
    else none

/-- A bulk string, with what follows it. -/
def readBulk (input : List UInt8) : Option (List UInt8 × List UInt8) :=
  (readLength bulkMarker input).bind fun (length, rest) =>
    if length ≤ rest.length then
      (skipNewLine (rest.drop length)).map fun behind => (rest.take length, behind)
    else none

/-- A number of bulk strings, with what follows them. -/
def readBulks : Nat → List UInt8 → Option (List (List UInt8) × List UInt8)
  | 0, input => some ([], input)
  | count + 1, input =>
    (readBulk input).bind fun (text, rest) =>
      (readBulks count rest).map fun (texts, behind) => (text :: texts, behind)

/-- One array of bulk strings that is the whole input. -/
def readArray (input : List UInt8) : Option (List (List UInt8)) :=
  (readLength arrayMarker input).bind fun (count, rest) =>
    (readBulks count rest).bind fun (texts, behind) => if behind = [] then some texts else none

/-! ## Reading what was written -/

@[simp] theorem skipNewLine_append (rest : List UInt8) :
    skipNewLine (newLine ++ rest) = some rest := by
  simp [newLine, skipNewLine]

theorem forall_ne_of_readDigitsFrom (read : readDigitsFrom before numeral = some number) :
    ∀ byte ∈ numeral, (byte != carriageReturn) = true := by
  induction numeral generalizing before with
  | nil => simp
  | cons byte bytes ih =>
    rw [readDigitsFrom, Option.bind_eq_some_iff] at read
    obtain ⟨digit, isDigit, rest⟩ := read
    refine forall_mem_cons.mpr ⟨?_, ih rest⟩
    rw [bne_iff_ne]
    rintro rfl
    have noDigit : byteDigit carriageReturn = none := by decide
    rw [noDigit] at isDigit
    cases isDigit

theorem forall_ne_of_readDigits (read : readDigits numeral = some number) :
    ∀ byte ∈ numeral, (byte != carriageReturn) = true := by
  cases numeral with
  | nil => cases read
  | cons byte bytes => exact forall_ne_of_readDigitsFrom read

/-- The line of a length is read back. -/
theorem readLength_lengthLine (marker : UInt8)
    (read : readDigits numeral = some number) (rest : List UInt8) :
    readLength marker (lengthLine marker numeral ++ rest) = some (number, rest) := by
  have digits := forall_ne_of_readDigits read
  have stop : (newLine ++ rest).takeWhile (· != carriageReturn) = [] := by simp [newLine]
  have stay : (newLine ++ rest).dropWhile (· != carriageReturn) = newLine ++ rest := by
    simp [newLine]
  rw [lengthLine, cons_append, append_assoc, readLength, if_pos rfl,
    takeWhile_append_of_pos digits, dropWhile_append_of_pos digits,
    stop, stay, append_nil, read, skipNewLine_append]
  rfl

/-- A bulk string is read as it was written. -/
theorem readBulk_bulk (text : List UInt8)
    (read : readDigits numeral = some text.length) (rest : List UInt8) :
    readBulk (bulk numeral text ++ rest) = some (text, rest) := by
  have bounded : text.length ≤ (text ++ (newLine ++ rest)).length := by
    rw [length_append]
    exact Nat.le_add_right _ _
  rw [readBulk, bulk, append_assoc, append_assoc, readLength_lengthLine bulkMarker read]
  simp only [Option.bind_some, if_pos bounded, drop_left, take_left,
    skipNewLine_append, Option.map_some]

/-- Bulk strings, each with a numeral of its length, are read with whatever
follows them. -/
theorem readBulks_flatMap (bulks : List (List UInt8 × List UInt8))
    (read : ∀ pair ∈ bulks, readDigits pair.1 = some pair.2.length) (rest : List UInt8) :
    readBulks bulks.length ((bulks.flatMap fun pair => bulk pair.1 pair.2) ++ rest) =
      some (bulks.map Prod.snd, rest) := by
  induction bulks with
  | nil => rfl
  | cons pair bulks ih =>
    obtain ⟨first, later⟩ := forall_mem_cons.mp read
    rw [length_cons, readBulks, flatMap_cons, append_assoc,
      readBulk_bulk pair.2 first]
    simp only [Option.bind_some, ih later, Option.map_some, map_cons]

/-- An array whose lengths are written with any numerals is read back. -/
theorem readArray_of_numerals (bulks : List (List UInt8 × List UInt8))
    (count : readDigits numeral = some bulks.length)
    (read : ∀ pair ∈ bulks, readDigits pair.1 = some pair.2.length) :
    readArray (lengthLine arrayMarker numeral ++ bulks.flatMap fun pair => bulk pair.1 pair.2) =
      some (bulks.map Prod.snd) := by
  have readAll := readBulks_flatMap bulks read []
  rw [append_nil] at readAll
  rw [readArray, readLength_lengthLine arrayMarker count]
  simp only [Option.bind_some, readAll, if_true]

/-- An array is read back. -/
@[simp] theorem readArray_respArray (texts : List (List UInt8)) :
    readArray (respArray texts) = some texts := by
  have read := readArray_of_numerals (texts.map fun text => (decimal text.length, text))
    (by rw [length_map, readDigits_decimal])
    (by simp)
  simpa [respArray, flatMap_map, Function.comp_def] using read

end Pika.Foundation
