import Pika.Binlog.Record
import Pika.Foundation.MachineInt

/-!
# Binlog items

The fields `ProposeLog` gives a command for its record, and the encoding of a
record: a header of 34 little-endian bytes and the content.
-/

namespace Pika.Binlog

/-- The header fields of a binlog item. -/
structure BinlogItem where
  execTime : Nat
  termId : Nat
  logicId : Nat
  filenum : Nat
  offset : Nat
  deriving DecidableEq, Repr

/-- The little-endian bytes of a number, as `PutFixed16`, `PutFixed32` and
`PutFixed64` append them. -/
def putFixed : Nat → Nat → Bytes
  | 0, _ => []
  | width + 1, value => UInt8.ofNat (value % 256) :: putFixed width (value / 256)

@[simp] theorem length_putFixed (width value : Nat) : (putFixed width value).length = width := by
  induction width generalizing value with
  | zero => rfl
  | succ width ih => rw [putFixed, List.length_cons, ih]

end Pika.Binlog
