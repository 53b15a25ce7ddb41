import Pika.Binlog.Garbage

/-!
# The last byte of a file

An item can be such that no header in its last block announces a record that
the end of the file cuts.  What a reader returns then does not depend on the
last byte of the item, unless the reader meets the end of the file or returns
the size of the file as its offset.
-/

namespace Pika.Binlog

open Foundation
open List hiding length

namespace Reader

variable {files : Files}

theorem read_curOffset (files : Files) (count : Nat) (reader : Reader) :
    (reader.read files count).2.2.curOffset = reader.curOffset := by
  unfold read
  split <;> rfl

/-- A whole record is returned with the offset behind it, counted from the end
of the file. -/
theorem Facing.offset_readPhysicalRecord (facing : Facing files reader inBlock bytes)
    (tracked : reader.curOffset + bytes.length = size)
    (found : Entry.ofBytes (pastTail inBlock bytes).2 =
      some (.fragment true type payload)) (output : Output) :
    (reader.readPhysicalRecord files output).reader.curOffset +
          ((pastTail inBlock bytes).2.drop (kHeaderSize + headerLength
              ((pastTail inBlock bytes).2.take kHeaderSize))).length = size ∧
      (reader.readPhysicalRecord files output).output.offset =
        (reader.readPhysicalRecord files output).reader.curOffset := by
  obtain ⟨located, -⟩ := facing.skipBlockTail
  obtain ⟨announced, headed, -⟩ := located.readHeader
  have header := Entry.length_of_ofBytes found
  have whole := Entry.whole_of_ofBytes found
  have trackedHere : (reader.skipBlockTail files).curOffset +
      (pastTail inBlock bytes).2.length = size := by
    simp only [Reader.skipBlockTail, pastTail, facing.lastRecordOffset_eq] at header ⊢
    split_ifs at header ⊢ with short
    · simp only [length_drop, kHeaderSize] at header ⊢
      omega
    · exact tracked
  have headedOffset : ((reader.skipBlockTail files).readHeader
      files).2.curOffset = (reader.skipBlockTail files).curOffset :=
    read_curOffset files kHeaderSize _
  rcases headerRead : (reader.skipBlockTail files).readHeader files with ⟨action, next⟩
  simp only [headerRead, found] at announced headed headedOffset
  subst announced
  obtain ⟨statusEq, -, -, -⟩ := headed.read
    (headerLength ((pastTail inBlock bytes).2.take kHeaderSize))
  rw [if_neg (Nat.not_lt.mpr whole)] at statusEq
  simp only [Reader.readPhysicalRecord, readRecord, headerRead,
    Reader.readPayload, statusEq, if_true, headedOffset, and_true, length_drop] at whole ⊢
  omega

end Reader

/-- A byte that is the code of no record type. -/
def NoType (byte : UInt8) : Prop := RecordType.oldRecord.code < byte.toNat ∧ byte.toNat < 128

instance (byte : UInt8) : Decidable (NoType byte) := inferInstanceAs (Decidable (_ ∧ _))

/-- Skipping a block tail leaves the last byte last, or nothing. -/
theorem pastTail_append (inBlock : Nat) (bytes : Bytes) :
    (∀ byte : UInt8, (pastTail inBlock (bytes ++ [byte])).2 = []) ∨
      ∃ place rest, rest <:+ bytes ∧ ∀ byte : UInt8,
          pastTail inBlock (bytes ++ [byte]) = (place, rest ++ [byte]) := by
  by_cases short : castUInt64 (kBlockSize - inBlock) ≤ kHeaderSize
  · by_cases gone : bytes.length < castUInt64 (kBlockSize - inBlock)
    · left
      intro byte
      simp only [pastTail, short, if_true]
      apply drop_of_length_le
      rw [length_append]
      exact gone
    · refine .inr ⟨0, bytes.drop (castUInt64 (kBlockSize - inBlock)),
        drop_suffix _ _, fun byte => ?_⟩
      simp only [pastTail, short, if_true]
      rw [drop_append_of_le_length (Nat.le_of_not_lt gone)]
  · refine .inr ⟨inBlock, bytes, suffix_rfl, fun byte => ?_⟩
    simp only [pastTail, short, if_false]

namespace Entry

/-- The entry at the start of some bytes whose last one is not in the
header. -/
theorem ofBytes_append (header : kHeaderSize ≤ bytes.length) (byte : UInt8) :
    ofBytes (bytes ++ [byte]) =
      if kBlockSize - kHeaderSize < headerLength (bytes.take kHeaderSize) then some oversized
      else if headerType (bytes.take kHeaderSize) = RecordType.zero.code ∨
          headerLength (bytes.take kHeaderSize) = 0 then
        some blank
      else
        some (fragment (decide (headerLength (bytes.take kHeaderSize) ≤
            bytes.length - kHeaderSize + 1))
          (headerType (bytes.take kHeaderSize))
          ((bytes.drop kHeaderSize ++ [byte]).take (headerLength (bytes.take kHeaderSize)))) := by
  have long : ¬bytes.length + 1 < kHeaderSize := by omega
  simp only [ofBytes, take_append_of_le_length header,
    drop_append_of_le_length header, length_append,
    length_drop, length_singleton, long, if_false]

/-- A header whose type is the last byte announces no record. -/
theorem ofBytes_append_type (header : bytes.length + 1 = kHeaderSize) (noType : NoType byte) :
    ofBytes (bytes ++ [byte]) = if kBlockSize - kHeaderSize < headerLength bytes then some oversized
      else if headerLength bytes = 0 then some blank
      else some (fragment false byte.toNat []) := by
  obtain ⟨nonzero, positive⟩ := noType
  have all : (bytes ++ [byte]).take kHeaderSize = bytes ++ [byte] :=
    take_of_length_le (by simp [header])
  have none : (bytes ++ [byte]).drop kHeaderSize = [] := drop_of_length_le (by simp [header])
  have lengthEq : headerLength (bytes ++ [byte]) = headerLength bytes := by
    simp only [kHeaderSize] at header
    have early : ∀ place < 3, (bytes ++ [byte]).getD place 0 = bytes.getD place 0 := by
      intro place _
      simp only [getD_eq_getElem?_getD]
      rw [List.getElem?_append_left (by omega)]
    simp only [headerLength, early _ (show 0 < 3 by decide),
      early _ (show 1 < 3 by decide), early _ (show 2 < 3 by decide)]
  have typeEq : headerType (bytes ++ [byte]) = byte.toNat := by
    simp only [kHeaderSize] at header
    have last : (bytes ++ [byte]).getD 7 0 = byte := by
      rw [getD_eq_getElem?_getD, List.getElem?_append_right (by omega)]
      simp [show 7 - bytes.length = 0 by omega]
    simp only [headerType, last, positive, if_true]
  have long : ¬(bytes ++ [byte]).length < kHeaderSize := by simp [header]
  have notZero : byte.toNat ≠ RecordType.zero.code := by
    simp only [RecordType.code] at nonzero ⊢
    omega
  simp only [ofBytes, long, if_false, all, none, lengthEq, typeEq, notZero,
    false_or, take_nil, length_nil]
  split_ifs with oversized blank
  · rfl
  · rfl
  · simp [blank]

end Entry

/-- An entry of an unknown type ends an item with what was assembled. -/
theorem assemble_of_unknown (unknown : RecordType.oldRecord.code < type)
    (whole : Bool) (scratch : Bytes) :
    assemble (.fragment whole type payload :: rest) scratch =
      (.ioError "Unknow reason", scratch) := by
  have different : ∀ known : RecordType, type ≠ known.code := by
    intro known
    cases known <;> simp only [RecordType.code] at unknown ⊢ <;> omega
  simp only [assemble, different, if_false]

/-- Nothing in the last block of some bytes and one more byte is a header. -/
def Sealed (bytes : Bytes) : Prop :=
  ∀ tail, tail <:+ bytes → kHeaderSize ≤ tail.length → tail.length + 1 < kBlockSize →
      kBlockSize - kHeaderSize < headerLength (tail.take kHeaderSize)

/-- What a `Consume` can have to do with the last byte of a file: it meets the
end of the file, or the byte does not matter, or the item ends with it. -/
def LastByteOutcome (result : Status × Output × Reader) (expected : Status × Bytes)
    (size : Nat) : Prop :=
  result.1.isEndFile = true ∨ (result.1, result.2.1.scratch) = expected ∨ result.2.1.offset = size

namespace Reader

variable {files : Files}

theorem Facing.isEndFile_consume_nil (facing : Facing files reader inBlock []) (output : Output) :
    (reader.consume files output).1.isEndFile = true := by
  have assembled := (facing.consume output).1
  rw [stream_nil] at assembled
  rw [congrArg Prod.fst assembled]
  rfl

theorem switchRecord_offset (record : PhysicalRecord) :
    (switchRecord record).2.offset = record.output.offset := by
  simp only [switchRecord]
  split_ifs <;> rfl

/-- `Consume` at a record that reaches to the end of the file. -/
theorem Facing.consume_of_last (facing : Facing files reader inBlock bytes)
    (tracked : reader.curOffset + bytes.length = size)
    (found : Entry.ofBytes (pastTail inBlock bytes).2 = some (.fragment true type payload))
    (reaches : (pastTail inBlock bytes).2.length ≤ kHeaderSize +
      headerLength ((pastTail inBlock bytes).2.take kHeaderSize)) (output : Output) :
    (reader.consume files output).1.isEndFile = true ∨
      (reader.consume files output).2.1.offset = size := by
  obtain ⟨trackedNext, offsetEq⟩ := facing.offset_readPhysicalRecord tracked found output
  obtain ⟨next, outcome, record, -, facingNext, -⟩ := facing.readPhysicalRecord found output
  rw [drop_of_length_le reaches] at trackedNext facingNext
  cases switched : (switchRecord (reader.readPhysicalRecord files output)).1 with
  | some status =>
    right
    rw [consume_of_stop switched, switchRecord_offset, offsetEq]
    exact trackedNext
  | none =>
    left
    rw [consume_of_continue switched, record]
    exact facingNext.isEndFile_consume_nil _

/-- `Consume` and the last byte of a file, if that byte is no record type and
no header announces a record that the end of the file cuts. -/
theorem Facing.consume_lastByte (facing : Facing files reader inBlock (bytes ++ [byte]))
    (tracked : reader.curOffset + (bytes ++ [byte]).length = size)
    (isSealed : Sealed bytes) (noType : NoType byte)
    (otherNoType : NoType other) (output : Output) :
    LastByteOutcome (reader.consume files output)
      (assemble (stream inBlock (bytes ++ [other])) output.scratch) size := by
  induction remaining : bytes.length using Nat.strongRecOn
    generalizing reader inBlock bytes output with
  | ind count ih =>
    have assembled := (facing.consume output).1
    have ended : ∀ entries, stream inBlock (bytes ++ [byte]) = entries →
        (assemble entries output.scratch).1.isEndFile = true →
        (reader.consume files output).1.isEndFile = true := by
      rintro entries rfl ends
      rwa [← congrArg Prod.fst assembled] at ends
    rcases pastTail_append inBlock bytes with
      gone | ⟨place, rest, suffix, located⟩
    · left
      apply ended [] _ rfl
      apply stream_of_none
      rw [gone]
      rfl
    have entryAt : ∀ last : UInt8, Entry.ofBytes (pastTail inBlock (bytes ++ [last])).2 =
          Entry.ofBytes (rest ++ [last]) := by
      intro last
      rw [located]
    by_cases header : kHeaderSize ≤ rest.length
    · have here := (entryAt byte).trans (Entry.ofBytes_append header byte)
      have there := (entryAt other).trans (Entry.ofBytes_append header other)
      split_ifs at here there with oversized blank
      · right; left
        rw [assembled, stream_of_mark here nofun, stream_of_mark there nofun]
      · left
        exact ended _ (stream_of_mark here nofun) rfl
      · have sizeEq : (rest ++ [byte]).length = rest.length + 1 := by
          rw [length_append, length_singleton]
        have taken : ∀ last : UInt8, (rest ++ [last]).take kHeaderSize = rest.take kHeaderSize :=
          fun last => take_append_of_le_length header
        rcases Nat.lt_trichotomy (headerLength (rest.take kHeaderSize))
          (rest.length - kHeaderSize + 1) with inside | reaches | cut
        · -- The record ends before the last byte.
          have payloadEq : ∀ last : UInt8, (rest.drop kHeaderSize ++ [last]).take
                  (headerLength (rest.take kHeaderSize)) =
                (rest.drop kHeaderSize).take (headerLength (rest.take kHeaderSize)) := by
            intro last
            apply take_append_of_le_length
            rw [length_drop]
            omega
          have behind : ∀ last : UInt8, (rest ++ [last]).drop
              (kHeaderSize + headerLength (rest.take kHeaderSize)) = rest.drop (kHeaderSize +
                  headerLength (rest.take kHeaderSize)) ++ [last] := by
            intro last
            apply drop_append_of_le_length
            omega
          rw [payloadEq, decide_eq_true inside.le] at here there
          obtain ⟨trackedNext, -⟩ := facing.offset_readPhysicalRecord tracked here output
          obtain ⟨next, outcome, record, sameScratch, facingNext, -⟩ :=
            facing.readPhysicalRecord here output
          rw [located, taken, behind] at trackedNext facingNext
          rw [stream_of_fragment there, located, taken, behind, ← sameScratch]
          cases switched : (switchRecord (reader.readPhysicalRecord files output)).1 with
          | some status =>
            right; left
            rw [consume_of_stop switched]
            rw [record] at switched ⊢
            exact (assemble_of_stop true switched).symm
          | none =>
            rw [consume_of_continue switched]
            rw [record] at switched trackedNext ⊢
            rw [assemble_of_continue true switched]
            apply ih _ _ facingNext trackedNext _ _ rfl
            · have fewer := suffix.length_le
              simp only [length_drop, kHeaderSize] at header ⊢
              omega
            · intro tail isSuffix
              exact isSealed tail (isSuffix.trans ((drop_suffix _ _).trans suffix))
        · -- It ends with the last byte.
          rw [decide_eq_true reaches.le] at here
          rcases facing.consume_of_last tracked here
            (by rw [located, taken, sizeEq]; omega) output with
            atEnd | offsetEq
          · exact .inl atEnd
          · exact .inr (.inr offsetEq)
        · -- The end of the file would cut it.
          refine absurd (isSealed rest suffix header ?_) oversized
          simp only [kBlockSize, kHeaderSize] at oversized cut header ⊢
          omega
    · by_cases type : rest.length + 1 = kHeaderSize
      · have here := (entryAt byte).trans (Entry.ofBytes_append_type type noType)
        have there := (entryAt other).trans (Entry.ofBytes_append_type type otherNoType)
        split_ifs at here there with oversized blank
        · right; left
          rw [assembled, stream_of_mark here nofun, stream_of_mark there nofun]
        · left
          exact ended _ (stream_of_mark here nofun) rfl
        · right; left
          rw [assembled, stream_of_fragment here, stream_of_fragment there,
            assemble_of_unknown noType.1, assemble_of_unknown otherNoType.1]
      · left
        apply ended [] _ rfl
        apply stream_of_none
        rw [entryAt]
        have short : (rest ++ [byte]).length < kHeaderSize := by
          rw [length_append, length_singleton]
          omega
        exact if_pos short

end Reader

/-! ## Items whose last block is sealed -/

/-- A clock of which no byte is zero. -/
def sealingClock : Nat := 2 ^ 32 - 1

/-- The header of a full block at the end of an item and all but one of its
bytes. -/
def sealingBlock : Bytes :=
  header .last (kBlockSize - kHeaderSize) sealingClock ++
    List.replicate (kBlockSize - kHeaderSize - 1) 255

theorem length_sealingBlock : sealingBlock.length + 1 = kBlockSize := by
  rw [sealingBlock, length_append, length_header, length_replicate]
  decide

theorem getElem?_sealingBlock (behind : 3 ≤ place) (inside : place < sealingBlock.length) :
    ∃ byte : UInt8, sealingBlock[place]? = some byte ∧ 1 ≤ byte.toNat := by
  have total := length_sealingBlock
  rw [sealingBlock]
  by_cases early : place < kHeaderSize
  · rw [List.getElem?_append_left (by rwa [length_header])]
    simp only [kHeaderSize] at early
    have cases : place = 3 ∨ place = 4 ∨ place = 5 ∨ place = 6 ∨ place = 7 := by omega
    rcases cases with rfl | rfl | rfl | rfl | rfl <;> exact ⟨_, rfl, by decide⟩
  · have late := Nat.le_of_not_lt early
    rw [List.getElem?_append_right (by rwa [length_header]),
      length_header, List.getElem?_replicate, if_pos]
    · exact ⟨255, rfl, by decide⟩
    · simp only [kBlockSize, kHeaderSize] at late total ⊢
      omega

theorem sealed_sealingBlock (lead : Bytes) : Sealed (lead ++ sealingBlock) := by
  intro tail isSuffix header short
  have total := length_sealingBlock
  obtain ⟨front, split⟩ : tail <:+ sealingBlock := by
    apply suffix_of_suffix_length_le isSuffix (suffix_append _ _)
    omega
  have lengths := congrArg List.length split
  rw [length_append] at lengths
  obtain ⟨byte, found, positive⟩ := getElem?_sealingBlock (show 3 ≤ front.length + 2 by omega)
      (by simp only [kHeaderSize] at header; omega)
  rw [← split, List.getElem?_append_right (Nat.le_add_right _ _), Nat.add_sub_cancel_left] at found
  have third : (tail.take kHeaderSize).getD 2 0 = byte := by
    rw [getD_eq_getElem?_getD, List.getElem?_take_of_lt (by decide), found]
    rfl
  rw [headerLength, third]
  simp only [kBlockSize, kHeaderSize]
  omega

/-- The first fragment of an item depends on no more than fits in it. -/
theorem fragments_append (room : roomAt offset ≤ front.length) (clock : Nat) (isBegin : Bool) :
    ∃ fragment : Fragment, ∀ block : Bytes, block ≠ [] →
      fragments (fun _ => clock) offset isBegin (front ++ block) =
        fragment :: fragments (fun _ => clock)
          (offset + (padAt offset + (kHeaderSize + roomAt offset))) false
          (front.drop (roomAt offset) ++ block) := by
  refine ⟨
    { pad := padAt offset
      type := RecordType.ofPlace isBegin false
      payload := front.take (roomAt offset)
      now := clock }, fun block nonempty => ?_⟩
  have longer : roomAt offset < (front ++ block).length := by
    have positive := length_pos_of_ne_nil nonempty
    rw [length_append]
    omega
  rw [fragments, dif_pos longer, nextFragment,
    take_append_of_le_length room, drop_append_of_le_length room,
    decide_eq_false (Nat.not_le.mpr longer)]

/-- The last block of an item that fills it. -/
theorem fragments_append_block (clock : Nat) (blocks : Nat) (offset : Nat)
    (isBegin : Bool) (front : Bytes)
    (fills : front.length = roomAt offset + (kBlockSize - kHeaderSize) * blocks) :
    ∃ lead : Bytes, ∀ block : Bytes, block.length = kBlockSize - kHeaderSize →
        (fragments (fun _ => clock) offset isBegin (front ++ block)).flatMap Fragment.bytes =
          lead ++ (header .last (kBlockSize - kHeaderSize) clock ++ block) := by
  have blockStart := blockStart_after_full offset
  have fullRoom := roomAt_of_blockStart blockStart
  have nonempty : ∀ block : Bytes, block.length = kBlockSize - kHeaderSize → block ≠ [] := by
    rintro block full rfl
    simp [kBlockSize, kHeaderSize] at full
  obtain ⟨fragment, fragmentsEq⟩ :=
    fragments_append (show roomAt offset ≤ front.length by omega) clock isBegin
  induction blocks generalizing offset isBegin front fragment with
  | zero =>
    refine ⟨fragment.bytes, fun block full => ?_⟩
    rw [fragmentsEq block (nonempty block full), flatMap_cons,
      drop_of_length_le (by omega), nil_append, fragments,
      dif_neg (by omega), flatMap_singleton]
    simp [Fragment.bytes, nextFragment, RecordType.ofPlace, fullRoom, full,
      take_of_length_le full.le, padAt_of_blockStart blockStart]
  | succ blocks ih =>
    have rest : (front.drop (roomAt offset)).length =
        roomAt (offset + (padAt offset + (kHeaderSize + roomAt offset))) +
          (kBlockSize - kHeaderSize) * blocks := by
      rw [fullRoom, length_drop, fills, Nat.mul_succ]
      omega
    have nextStart := blockStart_after_full
      (offset + (padAt offset + (kHeaderSize + roomAt offset)))
    obtain ⟨next, nextEq⟩ := fragments_append (Nat.le.intro rest.symm) clock false
    obtain ⟨lead, leadEq⟩ := ih _ false _ rest nextStart
      (roomAt_of_blockStart nextStart) next nextEq
    refine ⟨fragment.bytes ++ lead, fun block full => ?_⟩
    rw [fragmentsEq block (nonempty block full), flatMap_cons,
      leadEq block full, append_assoc]

theorem recordEnd_of_blocks (fills : length = roomAt offset + (kBlockSize - kHeaderSize) * blocks) :
    recordEnd offset length = offset + padAt offset + roomAt offset + kHeaderSize +
        kBlockSize * blocks := by
  unfold recordEnd
  rw [fills]
  simp only [kBlockSize, kHeaderSize]
  omega

/-- Padding and headers add to an item a small part of its length. -/
theorem recordEnd_le_add (offset length : Nat) :
    recordEnd offset length ≤ offset + length + length / 8191 + 24 := by
  have place := padAt_roomAt_cases offset
  unfold recordEnd
  simp only [kBlockSize, kHeaderSize]
  omega

end Pika.Binlog
