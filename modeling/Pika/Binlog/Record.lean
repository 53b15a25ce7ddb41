import Mathlib.Data.List.Basic
import Mathlib.Tactic.Linarith

/-!
# Physical records of the binlog

The constants of the block format and the eight-byte header that precedes
every fragment: three little-endian bytes of length, four of the emission time
and one of the record type.
-/

namespace Pika.Binlog

abbrev Bytes := List UInt8

def kBlockSize : Nat := 65536

/-- Size of a physical record header. -/
def kHeaderSize : Nat := 8

/-- A position in the binlog: a file number and an offset in that file. -/
@[ext] structure BinlogOffset where
  filenum : Nat
  offset : Nat
  deriving DecidableEq, Repr

namespace BinlogOffset

/-- Positions are ordered by file, then by offset. -/
instance : LT BinlogOffset where
  lt first second :=
    first.filenum < second.filenum ∨ first.filenum = second.filenum ∧ first.offset < second.offset

instance (first second : BinlogOffset) : Decidable (first < second) :=
  inferInstanceAs (Decidable (_ ∨ _ ∧ _))

theorem lt_iff {first second : BinlogOffset} :
    first < second ↔ first.filenum < second.filenum ∨
        first.filenum = second.filenum ∧ first.offset < second.offset :=
  Iff.rfl

theorem lt_irrefl (position : BinlogOffset) : ¬position < position := by
  simp [lt_iff]

theorem lt_trans {first second third : BinlogOffset} (firstLt : first < second)
    (secondLt : second < third) :
    first < third := by
  rw [lt_iff] at *
  omega

theorem lt_of_not_lt_of_lt {first second third : BinlogOffset}
    (notLt : ¬second < first) (thirdLt : second < third) :
    first < third := by
  rw [lt_iff] at *
  omega

end BinlogOffset

/-- Record types, in the order of the source's enumeration.  The last three are
never written as the type of a record that carries data. -/
inductive RecordType where
  | zero
  | full
  | first
  | middle
  | last
  | eof
  | badRecord
  | oldRecord
  deriving DecidableEq, Repr

namespace RecordType

/-- The value of a record type in the source's enumeration. -/
def code : RecordType → Nat
  | zero => 0
  | full => 1
  | first => 2
  | middle => 3
  | last => 4
  | eof => 5
  | badRecord => 6
  | oldRecord => 7

/-- The type of a fragment from its place in the item. -/
def ofPlace (isBegin isEnd : Bool) : RecordType :=
  if isBegin && isEnd then full
  else if isBegin then first
  else if isEnd then last
  else middle

/-- Record types fit in the low half of a byte's range, where a `char` is not
negative. -/
theorem code_lt (type : RecordType) : type.code < 128 := by
  cases type <;> decide

end RecordType

/-- The header of a physical record with `length` payload bytes. -/
def header (type : RecordType) (length now : Nat) : Bytes :=
  [UInt8.ofNat (length % 256), UInt8.ofNat (length / 2 ^ 8 % 256), UInt8.ofNat (length / 2 ^ 16),
    UInt8.ofNat (now % 256), UInt8.ofNat (now / 2 ^ 8 % 256), UInt8.ofNat (now / 2 ^ 16 % 256),
    UInt8.ofNat (now / 2 ^ 24 % 256), UInt8.ofNat type.code]

@[simp] theorem length_header (type : RecordType) (length now : Nat) :
    (header type length now).length = kHeaderSize := rfl

/-- The payload length a reader computes from header bytes. -/
def headerLength (bytes : Bytes) : Nat :=
  (bytes.getD 0 0).toNat + (bytes.getD 1 0).toNat * 2 ^ 8 + (bytes.getD 2 0).toNat * 2 ^ 16

/-- The record type a reader computes from header bytes.  The type byte is a
`char`, so its upper half is sign-extended to a large `unsigned int`. -/
def headerType (bytes : Bytes) : Nat :=
  let byte := (bytes.getD 7 0).toNat
  if byte < 128 then byte else 2 ^ 32 - 256 + byte

/-- The length field holds every length below `2 ^ 24`. -/
theorem headerLength_header (type : RecordType) (now : Nat) (bounded : length < 2 ^ 24) :
    headerLength (header type length now) = length := by
  simp only [headerLength, header, List.getD_cons_zero, List.getD_cons_succ, UInt8.toNat_ofNat']
  omega

/-- The type field survives the trip through a `char`. -/
@[simp] theorem headerType_header (type : RecordType) (length now : Nat) :
    headerType (header type length now) = type.code := by
  have codeBound := type.code_lt
  simp only [headerType, header, List.getD_cons_zero, List.getD_cons_succ, UInt8.toNat_ofNat']
  rw [Nat.mod_eq_of_lt (by omega), if_pos codeBound]

end Pika.Binlog
