import Pika.Replication.ItemFormat

/-!
# The two decoders of a binlog item

`BinlogDecode` and `BinlogItemWithoutContentDecode` take one field after the
other from the front of a string.  They find the fields at the places where the
format has them, so that the first one accepts exactly the strings that
`BinlogEncode` makes and the second one reads the same header.
-/

namespace Pika.Replication

open Foundation
open Binlog (BinlogItem Bytes kBlockSize kHeaderSize)
open Command (Cmd OtherInitial binlogEncode binlogEncodeLen constructPaddingBinlog followerCmd
  length_binlogEncode paddingContent paddingItem recordContent)
open Sync (getFixed)

/-- `GetFixed16`, `GetFixed32` and `GetFixed64`, by their widths: the number at
the front of a string, which is erased from it. -/
def takeFixed (width : Nat) : StateM Bytes Nat := do
  let text ← get
  set (text.drop width)
  return getFixed (text.take width)

/-- `BinlogType::TypeFirst`. -/
def typeFirst : Nat := 1

/-- The fields that both decoders read behind the type. -/
def takeItem : StateM Bytes BinlogItem := do
  let execTime ← takeFixed 4
  let termId ← takeFixed 4
  let logicId ← takeFixed 8
  let filenum ← takeFixed 4
  let offset ← takeFixed 8
  return { execTime, termId, logicId, filenum, offset }

/-- `BinlogItemWithoutContentDecode` as a run over the string. -/
def itemWithoutContentDecode (binlog : Bytes) : Option BinlogItem :=
  let run : StateM Bytes (Option BinlogItem) := do
    let binlogType ← takeFixed 2
    if binlogType ≠ typeFirst then return none
    return some (← takeItem)
  (run binlog).1

/-- `BinlogDecode` as a run over the string. -/
def itemDecode (binlog : Bytes) : Option (BinlogItem × Bytes) :=
  let run : StateM Bytes (Option (BinlogItem × Bytes)) := do
    let binlogType ← takeFixed 2
    if binlogType ≠ typeFirst then return none
    let item ← takeItem
    let contentLength ← takeFixed 4
    let content ← get
    return if content.length = contentLength then some (item, content) else none
  (run binlog).1

/-! ## Fields at their places -/

theorem takeFixed_run (width : Nat) (text : Bytes) :
    takeFixed width text = (getFixed (text.take width), text.drop width) := rfl

theorem takeItem_run (binlog : Bytes) :
    takeItem (binlog.drop 2) =
      ({ execTime := getFixed (field 2 4 binlog)
         termId := getFixed (field 6 4 binlog)
         logicId := getFixed (field 10 8 binlog)
         filenum := getFixed (field 18 4 binlog)
         offset := getFixed (field 22 8 binlog) }, binlog.drop 30) := by
  have run : takeItem (binlog.drop 2) =
      ({ execTime := getFixed ((binlog.drop 2).take 4)
         termId := getFixed (((binlog.drop 2).drop 4).take 4)
         logicId := getFixed ((((binlog.drop 2).drop 4).drop 4).take 8)
         filenum := getFixed (((((binlog.drop 2).drop 4).drop 4).drop 8).take 4)
         offset := getFixed
           ((((((binlog.drop 2).drop 4).drop 4).drop 8).drop 4).take 8) },
        ((((((binlog.drop 2).drop 4).drop 4).drop 8).drop 4).drop 8)) := rfl
  rw [run]
  simp only [List.drop_drop, Nat.reduceAdd, field]

/-- The number of the type field is that of an item. -/
theorem getFixed_take_two_iff (binlog : Bytes) :
    getFixed (binlog.take 2) = typeFirst ↔ binlogItemWithoutContentDecode binlog = true := by
  rw [binlogItemWithoutContentDecode_iff]
  cases binlog with
  | nil => decide
  | cons first rest =>
    cases rest with
    | nil =>
      have single : getFixed ([first].take 2) = first.toNat := rfl
      rw [single]
      simp [typeFirst, ← UInt8.toNat_inj]
    | cons second rest =>
      have pair : getFixed ((first :: second :: rest).take 2) =
          first.toNat + 256 * second.toNat := rfl
      rw [pair]
      simp [typeFirst, ← UInt8.toNat_inj]
      omega

theorem itemWithoutContentDecode_run (binlog : Bytes) :
    itemWithoutContentDecode binlog =
      if getFixed (binlog.take 2) = typeFirst then some (takeItem (binlog.drop 2)).1
      else none := by
  by_cases type : getFixed (binlog.take 2) = typeFirst
  · rw [if_pos type]
    simp only [itemWithoutContentDecode, bind, StateT.bind, takeFixed_run,
      type, ne_eq, not_true_eq_false, if_false]
    rfl
  · rw [if_neg type]
    simp only [itemWithoutContentDecode, bind, StateT.bind, takeFixed_run,
      type, ne_eq, not_false_eq_true, if_true]
    rfl

theorem itemDecode_run (binlog : Bytes) :
    itemDecode binlog = if getFixed (binlog.take 2) = typeFirst then
        if (recordContent binlog).length = contentLength binlog then
          some ((takeItem (binlog.drop 2)).1, recordContent binlog)
        else none
      else none := by
  by_cases type : getFixed (binlog.take 2) = typeFirst
  · rw [if_pos type]
    have rest : (binlog.drop 30).drop 4 = recordContent binlog := by
      rw [List.drop_drop]
      rfl
    simp only [itemDecode, bind, StateT.bind, takeFixed_run, type, ne_eq,
      not_true_eq_false, if_false, takeItem_run, rest]
    rfl
  · rw [if_neg type]
    simp only [itemDecode, bind, StateT.bind, takeFixed_run, type, ne_eq,
      not_false_eq_true, if_true]
    rfl

theorem itemWithoutContentDecode_eq (binlog : Bytes) :
    itemWithoutContentDecode binlog = decodeItem binlog := by
  rw [itemWithoutContentDecode_run, takeItem_run]
  unfold decodeItem
  simp only [getFixed_take_two_iff, field]

theorem itemDecode_eq (binlog : Bytes) : itemDecode binlog = binlogDecode binlog := by
  rw [binlogDecode, ← itemWithoutContentDecode_eq, itemDecode_run, itemWithoutContentDecode_run]
  split_ifs <;> simp_all

/-! ## Encoder and decoders -/

/-- `BinlogEncode`, `BinlogDecode` and `BinlogItemWithoutContentDecode` fit
together. -/
structure ItemCodec : Prop where
  /-- What was encoded is decoded. -/
  roundTrip : ∀ item content, ItemFits item → content.length < 2 ^ 32 →
    itemDecode (binlogEncode item content) = some (item, content)
  accepted : ∀ binlog item content, binlogEncodeLen ≤ binlog.length →
    itemDecode binlog = some (item, content) →
      ItemFits item ∧ content.length < 2 ^ 32 ∧ binlog = binlogEncode item content
  distinct : ∀ item other content otherContent, ItemFits item →
    ItemFits other → content.length < 2 ^ 32 → otherContent.length < 2 ^ 32 →
    binlogEncode item content = binlogEncode other otherContent →
      item = other ∧ content = otherContent
  /-- A string with more or less content than its header says is rejected. -/
  rejected : ∀ binlog, binlogEncodeLen ≤ binlog.length →
    contentLength binlog ≠ (recordContent binlog).length → itemDecode binlog = none
  /-- The header is read alike. -/
  sameHeader : ∀ binlog item content, itemDecode binlog = some (item, content) →
    itemWithoutContentDecode binlog = some item

theorem itemDecode_binlogEncode (fits : ItemFits item) (short : content.length < 2 ^ 32) :
    itemDecode (binlogEncode item content) = some (item, content) := by
  rw [itemDecode_eq]
  apply (binlogDecode_eq_some_iff _).mpr ⟨fits, short, rfl⟩
  rw [length_binlogEncode]
  exact Nat.le_add_left _ _

/-- The decoders invert the encoder. -/
theorem itemCodec : ItemCodec where
  roundTrip _ _ := itemDecode_binlogEncode
  accepted binlog item content header decoded := by
    rw [itemDecode_eq] at decoded
    exact (binlogDecode_eq_some_iff header).mp decoded
  distinct item other content otherContent fits otherFits short otherShort
      same := by
    have decoded := itemDecode_binlogEncode fits short
    rw [same, itemDecode_binlogEncode otherFits otherShort] at decoded
    cases decoded
    exact ⟨rfl, rfl⟩
  rejected binlog header differs := by
    rw [itemDecode_run, if_neg differs.symm, ite_self]
  sameHeader binlog item content decoded := by
    rw [itemDecode_run] at decoded
    split_ifs at decoded with type announced
    cases decoded
    rw [itemWithoutContentDecode_run, if_pos type]

/-! ## Paddings -/

/-- A record of a size that decodes as a padding, and that a follower which has
read it writes again. -/
structure IsPadding (otherInitial : OtherInitial) (size : Nat) (binlog : Bytes) : Prop where
  length_eq : binlog.length = size
  decodes : ∃ content stars, itemDecode binlog = some (paddingItem, content) ∧
    readArray content = some [ascii "padding", List.replicate stars 42] ∧
    followerCmd otherInitial binlog = some (.padding [ascii "padding", List.replicate stars 42]) ∧
    ∀ clock item, (Cmd.padding [ascii "padding", List.replicate stars 42]).toBinlog clock item =
      binlog

/-- Where the assertions of `ConstructPaddingBinlog` hold, it makes a padding of
exactly the size it is asked for. -/
theorem isPadding_constructPaddingBinlog (otherInitial : OtherInitial) {size : Nat}
    (least : 34 + 22 + 5 ≤ size) (most : size ≤ kBlockSize - kHeaderSize) :
    IsPadding otherInitial size (constructPaddingBinlog size) := by
  obtain ⟨length, rfl⟩ := Nat.exists_eq_add_of_le' least
  have short : length < 100000 := by
    simp only [kBlockSize, kHeaderSize] at most
    omega
  have low : length % 2 ^ 32 = length := Nat.mod_eq_of_lt (by omega)
  have again : ∀ clock item, (Cmd.padding [ascii "padding",
      List.replicate length 42]).toBinlog clock item = constructPaddingBinlog (length + 61) := by
    intro clock item
    have size := Command.castUInt32_paddingSize (low.symm ▸ short)
    rw [low] at size
    simp [Cmd.toBinlog, Command.argument, size]
  have parameter : (Command.argument [ascii "padding", List.replicate length 42] 1).length =
      length := List.length_replicate
  have read := @Command.followerCmd_padding otherInitial 0 paddingItem
    [ascii "padding", List.replicate length 42]
  rw [again, parameter, low, if_pos short] at read
  have fits : ItemFits paddingItem := ⟨by decide, by decide, by decide, by decide, by decide⟩
  have content := Command.length_paddingContent short
  have record := Command.constructPaddingBinlog_eq short
  refine ⟨?_, paddingContent length, length, ?_, Command.readArray_paddingContent length, read,
    again⟩
  · rw [record, length_binlogEncode, content]
  · rw [record]
    exact itemDecode_binlogEncode fits (by omega)

/-- A padding with a parameter of 39 bytes. -/
theorem isPadding_hundred : IsPadding (fun _ _ => .ok ()) 100 (constructPaddingBinlog 100) :=
  isPadding_constructPaddingBinlog _ (by decide) (by decide)

end Pika.Replication
