import Pika.Command.RecordSize
import Pika.Foundation.Slice
import Pika.Replication.Ingest

/-!
# The format of a binlog item

An item is a header of 34 bytes and a content, and the last field of the header
is the length of the content.  `BinlogDecode` finds exactly the items among the
strings that are long enough; no reader of items calls it.
-/

namespace Pika.Replication

open Foundation List
open Binlog (BinlogItem Bytes putFixed)
open Command (binlogEncode binlogEncodeLen recordContent recordContent_binlogEncode)
open Sync (getFixed)

/-! ## Little-endian numbers -/

theorem getFixed_cons (byte : UInt8) (bytes : Bytes) :
    getFixed (byte :: bytes) = byte.toNat + 256 * getFixed bytes := rfl

theorem getFixed_lt (bytes : Bytes) : getFixed bytes < 256 ^ bytes.length := by
  induction bytes with
  | nil => exact Nat.one_pos
  | cons byte bytes ih =>
    have small := byte.toNat_lt
    rw [getFixed_cons, length_cons, Nat.pow_succ]
    omega

theorem getFixed_putFixed (fits : value < 256 ^ width) :
    getFixed (putFixed width value) = value := by
  induction width generalizing value with
  | zero =>
    rw [Nat.pow_zero] at fits
    exact (Nat.lt_one_iff.mp fits).symm
  | succ width ih =>
    have higher : value / 256 < 256 ^ width := by
      rw [Nat.pow_succ] at fits
      omega
    have lowest : (UInt8.ofNat (value % 256)).toNat = value % 256 := by
      rw [UInt8.toNat_ofNat']
      omega
    rw [putFixed, getFixed_cons, ih higher, lowest]
    omega

theorem putFixed_getFixed (bytes : Bytes) : putFixed bytes.length (getFixed bytes) = bytes := by
  induction bytes with
  | nil => rfl
  | cons byte bytes ih =>
    have small := byte.toNat_lt
    have lowest : (byte.toNat + 256 * getFixed bytes) % 256 = byte.toNat := by omega
    have higher : (byte.toNat + 256 * getFixed bytes) / 256 = getFixed bytes := by omega
    rw [length_cons, getFixed_cons, putFixed, lowest, higher, ih, UInt8.ofNat_toNat]

/-! ## Fields -/

/-- The bytes of the field of a width at a place. -/
def field (start width : Nat) (binlog : Bytes) : Bytes := (binlog.drop start).take width

theorem length_field (present : start + width ≤ binlog.length) :
    (field start width binlog).length = width := by
  rw [field, length_take, length_drop]
  omega

theorem field_append_drop (start width : Nat) (binlog : Bytes) :
    field start width binlog ++ binlog.drop (start + width) = binlog.drop start := by
  rw [field, ← drop_drop, take_append_drop]

theorem field_of_append (behind : Bytes) (beforeLength : before.length = start)
    (length : bytes.length = width) :
    field start width (before ++ (bytes ++ behind)) = bytes := by
  rw [field, drop_left' beforeLength, take_left' length]

theorem putFixed_getFixed_field (present : start + width ≤ binlog.length) :
    putFixed width (getFixed (field start width binlog)) = field start width binlog := by
  have written := putFixed_getFixed (field start width binlog)
  rwa [length_field present] at written

theorem getFixed_field_lt (start width : Nat) (binlog : Bytes) :
    getFixed (field start width binlog) < 256 ^ width := by
  apply (getFixed_lt _).trans_le
  exact Nat.pow_le_pow_right (by decide) (length_take_le width _)

/-! ## Items -/

/-- The content length of the header. -/
def contentLength (binlog : Bytes) : Nat := getFixed (field 30 4 binlog)

/-- The fields of an item are in the range of their types. -/
structure ItemFits (item : BinlogItem) : Prop where
  execTime : item.execTime < 256 ^ 4
  termId : item.termId < 256 ^ 4
  logicId : item.logicId < 256 ^ 8
  filenum : item.filenum < 256 ^ 4
  offset : item.offset < 256 ^ 8

/-- `BinlogDecode` of type `TypeFirst`. -/
def binlogDecode (binlog : Bytes) : Option (BinlogItem × Bytes) :=
  (decodeItem binlog).bind fun item =>
    if (recordContent binlog).length = contentLength binlog then some (item, recordContent binlog)
    else none

theorem binlogItemWithoutContentDecode_binlogEncode (item : BinlogItem) (content : Bytes) :
    binlogItemWithoutContentDecode (binlogEncode item content) = true := by
  simp [binlogItemWithoutContentDecode, binlogEncode, putFixed]

theorem contentLength_binlogEncode (item : BinlogItem) (short : content.length < 256 ^ 4) :
    contentLength (binlogEncode item content) = content.length := by
  have place : field 30 4 (binlogEncode item content) = putFixed 4 content.length := by
    rw [binlogEncode, append_assoc]
    apply field_of_append <;> simp
  rw [contentLength, place, getFixed_putFixed short]

theorem decodeItem_binlogEncode (content : Bytes) (fits : ItemFits item) :
    decodeItem (binlogEncode item content) = some item := by
  have whole : binlogEncode item content =
      putFixed 2 1 ++ (putFixed 4 item.execTime ++ (putFixed 4 item.termId ++
        (putFixed 8 item.logicId ++ (putFixed 4 item.filenum ++
          (putFixed 8 item.offset ++ (putFixed 4 content.length ++ content)))))) := by
    simp only [binlogEncode, append_assoc]
  have execTime : field 2 4 (binlogEncode item content) = putFixed 4 item.execTime := by
    rw [whole]
    apply field_of_append <;> simp
  have termId : field 6 4 (binlogEncode item content) = putFixed 4 item.termId := by
    rw [whole, ← append_assoc]
    apply field_of_append <;> simp
  have logicId : field 10 8 (binlogEncode item content) = putFixed 8 item.logicId := by
    rw [whole, ← append_assoc, ← append_assoc]
    apply field_of_append <;> simp
  have filenum : field 18 4 (binlogEncode item content) = putFixed 4 item.filenum := by
    rw [whole, ← append_assoc, ← append_assoc, ← append_assoc]
    apply field_of_append <;> simp
  have offset : field 22 8 (binlogEncode item content) = putFixed 8 item.offset := by
    rw [whole, ← append_assoc, ← append_assoc, ← append_assoc, ← append_assoc]
    apply field_of_append <;> simp
  simp only [field] at execTime termId logicId filenum offset
  rw [decodeItem, if_pos (binlogItemWithoutContentDecode_binlogEncode _ _),
    execTime, termId, logicId, filenum, offset,
    getFixed_putFixed fits.execTime, getFixed_putFixed fits.termId,
    getFixed_putFixed fits.logicId, getFixed_putFixed fits.filenum, getFixed_putFixed fits.offset]

/-- The type field is that of an item, or the string ends inside of it. -/
theorem binlogItemWithoutContentDecode_iff (binlog : Bytes) :
    binlogItemWithoutContentDecode binlog = true ↔ binlog = [1] ∨ binlog.take 2 = [1, 0] := by
  cases binlog with
  | nil => decide
  | cons first rest =>
    cases rest with
    | nil => simp [binlogItemWithoutContentDecode]
    | cons second rest => simp [binlogItemWithoutContentDecode]

theorem decodeItem_isSome (binlog : Bytes) :
    (decodeItem binlog).isSome = binlogItemWithoutContentDecode binlog := by
  unfold decodeItem
  split_ifs with decodes <;> simp [decodes]

theorem itemFits_of_decodeItem (decoded : decodeItem binlog = some item) : ItemFits item := by
  unfold decodeItem at decoded
  split_ifs at decoded
  cases decoded
  exact
    { execTime := getFixed_field_lt 2 4 binlog
      termId := getFixed_field_lt 6 4 binlog
      logicId := getFixed_field_lt 10 8 binlog
      filenum := getFixed_field_lt 18 4 binlog
      offset := getFixed_field_lt 22 8 binlog }

/-- A string with a complete header and as much content as the header says is
the encoding of what the decoder finds. -/
theorem eq_binlogEncode_of_decodeItem (decoded : decodeItem binlog = some item)
    (header : binlogEncodeLen ≤ binlog.length)
    (announced : (recordContent binlog).length = contentLength binlog) :
    binlog = binlogEncode item (recordContent binlog) := by
  unfold binlogEncodeLen at header
  have tag : field 0 2 binlog = putFixed 2 1 := by
    have decodes := decodeItem_isSome binlog
    rw [decoded, Option.isSome_some, eq_comm, binlogItemWithoutContentDecode_iff] at decodes
    obtain rfl | typeField := decodes
    · simp at header
    · exact typeField
  unfold decodeItem at decoded
  split_ifs at decoded
  cases decoded
  have fields : ∀ start width, start + width ≤ 34 →
      putFixed width (getFixed ((binlog.drop start).take width)) =
        field start width binlog := fun start width inside =>
    putFixed_getFixed_field (inside.trans header)
  -- Each field is followed by the rest of the string.
  have at0 := field_append_drop 0 2 binlog
  have at2 := field_append_drop 2 4 binlog
  have at6 := field_append_drop 6 4 binlog
  have at10 := field_append_drop 10 8 binlog
  have at18 := field_append_drop 18 4 binlog
  have at22 := field_append_drop 22 8 binlog
  have at30 := field_append_drop 30 4 binlog
  simp only [Nat.reduceAdd] at at0 at2 at6 at10 at18 at22 at30
  rw [binlogEncode, announced, ← tag, contentLength,
    putFixed_getFixed_field (Nat.le_trans (by decide) header)]
  simp only [fields 2 4 (by decide), fields 6 4 (by decide),
    fields 10 8 (by decide), fields 18 4 (by decide), fields 22 8 (by decide),
    append_assoc, recordContent, binlogEncodeLen]
  rw [at30, at22, at18, at10, at6, at2, at0, drop_zero]

/-- On strings with a complete header, `BinlogDecode` inverts
`BinlogEncode`. -/
theorem binlogDecode_eq_some_iff (header : binlogEncodeLen ≤ binlog.length) :
    binlogDecode binlog = some (item, content) ↔ ItemFits item ∧ content.length < 256 ^ 4 ∧
        binlog = binlogEncode item content := by
  constructor
  · intro decoded
    rw [binlogDecode, Option.bind_eq_some_iff] at decoded
    obtain ⟨found, foundEq, decoded⟩ := decoded
    split_ifs at decoded with announced
    cases decoded
    refine ⟨itemFits_of_decodeItem foundEq, ?_,
      eq_binlogEncode_of_decodeItem foundEq header announced⟩
    rw [announced]
    exact getFixed_field_lt 30 4 binlog
  · rintro ⟨fits, short, rfl⟩
    rw [binlogDecode, decodeItem_binlogEncode content fits, Option.bind_some,
      recordContent_binlogEncode, contentLength_binlogEncode item short, if_pos rfl]

end Pika.Replication
