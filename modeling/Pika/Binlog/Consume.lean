import Pika.Binlog.Layout
import Pika.Binlog.Reader

/-!
# The reader follows the layout

The reader skips a block tail of at most one header where the writer pads only
a shorter one, so it never sees the empty fragment the writer leaves in a tail
of exactly one header.  Placed at the start of an item, `Consume` returns the
item and stops behind its last fragment.
-/

namespace Pika.Binlog

open Foundation
open List hiding count length

/-- Bytes the reader skips at an offset. -/
def skipAt (offset : Nat) : Nat :=
  if kBlockSize - offset % kBlockSize ≤ kHeaderSize then kBlockSize - offset % kBlockSize
  else 0

theorem skipAt_cases (offset : Nat) :
    (offset % 65536 < 65528 ∧ skipAt offset = 0) ∨
      (65528 ≤ offset % 65536 ∧ skipAt offset = 65536 - offset % 65536) := by
  by_cases tail : kBlockSize - offset % kBlockSize ≤ kHeaderSize
  · have skipped : skipAt offset = kBlockSize - offset % kBlockSize := if_pos tail
    simp only [kBlockSize, kHeaderSize] at tail skipped
    omega
  · have skipped : skipAt offset = 0 := if_neg tail
    simp only [kBlockSize, kHeaderSize] at tail
    omega

/-- Where the layout leaves room for payload, the reader skips the padding and
nothing else. -/
theorem skipAt_of_room (room : 0 < roomAt offset) : skipAt offset = padAt offset := by
  have place := padAt_roomAt_cases offset
  have skipped := skipAt_cases offset
  omega

/-- Where the layout has room for a header only, the reader skips that
header. -/
theorem skipAt_of_no_room (noRoom : roomAt offset = 0) :
    skipAt offset = padAt offset + (kHeaderSize + roomAt offset) := by
  have place := padAt_roomAt_cases offset
  have skipped := skipAt_cases offset
  simp only [kHeaderSize]
  omega

theorem skipAt_of_blockStart (blockStart : offset % kBlockSize = 0) : skipAt offset = 0 := by
  rw [skipAt, blockStart]
  decide

namespace Reader

/-- The reader that stands at an offset of a file. -/
def positioned (filenum offset : Nat) : Reader :=
  { curFilenum := filenum
    curOffset := offset
    lastRecordOffset := offset % kBlockSize
    queue := some { number := filenum, position := offset } }

/-- A reader stands at an offset of a file; at a block boundary its position in
the block may still be the end of the block that was left. -/
structure At (reader : Reader) (filenum offset : Nat) : Prop where
  curFilenum_eq : reader.curFilenum = filenum
  curOffset_eq : reader.curOffset = offset
  queue_eq : reader.queue = some { number := filenum, position := offset }
  blockAt : BlockAt reader.lastRecordOffset offset

/-- The reader that has read the header of a record at an offset. -/
def headed (filenum offset : Nat) : Reader :=
  { curFilenum := filenum
    curOffset := offset
    lastRecordOffset := offset % kBlockSize
    queue := some { number := filenum, position := offset + kHeaderSize } }

/-- The reader that has read a record of `length` payload bytes at an
offset. -/
def afterRecord (filenum offset length : Nat) : Reader :=
  { curFilenum := filenum
    curOffset := offset + (kHeaderSize + length)
    lastRecordOffset := offset % kBlockSize + (kHeaderSize + length)
    queue := some
      { number := filenum, position := offset + (kHeaderSize + length) } }

theorem at_positioned (filenum offset : Nat) : (positioned filenum offset).At filenum offset where
  curFilenum_eq := rfl
  curOffset_eq := rfl
  queue_eq := rfl
  blockAt := BlockAt.of_mod offset

theorem at_afterRecord (filenum : Nat) (fits : length ≤ roomAt offset) :
    (afterRecord filenum (offset + padAt offset) length).At filenum
      (offset + (padAt offset + (kHeaderSize + length))) where
  curFilenum_eq := rfl
  curOffset_eq := Nat.add_assoc _ _ _
  queue_eq := by
    rw [← Nat.add_assoc]
    rfl
  blockAt := BlockAt.of_record fits

variable {files : Files} {reader : Reader}

theorem skip_of_le (opened : reader.queue = some { number := filenum, position := offset })
    (enough : offset + count ≤ (files.contents filenum).length) :
    reader.skip files count =
      { reader with queue := some { number := filenum, position := offset + count } } := by
  have fits : min count ((files.contents filenum).length - offset) = count :=
    Nat.min_eq_left (by omega)
  simp only [skip, opened, Option.map_some, SequentialFile.skip,
    SequentialFile.rest, length_drop, fits]

/-- Skipping a block tail forgets from which side a block boundary was
reached. -/
theorem At.skipBlockTail_eq (standing : reader.At filenum offset)
    (enough : offset + skipAt offset ≤ (files.contents filenum).length) :
    reader.skipBlockTail files = positioned filenum (offset + skipAt offset) := by
  obtain ⟨sameFile, sameOffset, sameQueue, inBlock, sameMod⟩ := standing
  have tailEq : castUInt64 ((kBlockSize : Int) - reader.lastRecordOffset) =
      kBlockSize - reader.lastRecordOffset := by
    rw [← Nat.cast_sub inBlock]
    exact castUInt64_natCast_of_lt (by simp only [kBlockSize]; omega)
  have skipped := skipAt_cases offset
  unfold skipBlockTail positioned
  simp only [tailEq]
  simp only [kBlockSize] at inBlock sameMod
  by_cases tail : kBlockSize - reader.lastRecordOffset ≤ kHeaderSize
  · have skipEq : skipAt offset = kBlockSize - reader.lastRecordOffset := by
      simp only [kBlockSize, kHeaderSize] at tail ⊢
      omega
    have blockStart : (offset + skipAt offset) % kBlockSize = 0 := by
      simp only [kBlockSize, kHeaderSize] at tail ⊢
      omega
    rw [if_pos tail, ← skipEq, skip_of_le sameQueue enough, blockStart]
    simp [sameFile, sameOffset]
  · have skipEq : skipAt offset = 0 := by
      simp only [kBlockSize, kHeaderSize] at tail
      omega
    have inside : offset % kBlockSize = reader.lastRecordOffset := by
      simp only [kBlockSize, kHeaderSize] at tail ⊢
      omega
    rw [if_neg tail, skipEq, Nat.add_zero, inside, ← sameFile, ← sameOffset]
    rw [← sameFile, ← sameOffset] at sameQueue
    rw [← sameQueue]

theorem drop_add_of_drop_eq {contents part rest : Bytes}
    (split : contents.drop offset = part ++ rest) :
    contents.drop (offset + part.length) = rest := by
  rw [← drop_drop, split, drop_left]

theorem read_of_drop (opened : reader.queue = some { number := filenum, position := offset })
    (split : (files.contents filenum).drop offset = part ++ rest) :
    reader.read files part.length = (.ok, part,
        { reader with queue := some { number := filenum, position := offset + part.length } }) := by
  simp [read, opened, SequentialFile.read, SequentialFile.rest, split]

/-- Behind the block tail, the header of a record with payload asks for the
payload. -/
theorem readHeader_positioned (split : (files.contents filenum).drop offset =
      header type payload.length now ++ rest) (nonzero : type ≠ .zero) (nonempty : payload ≠ [])
    (bounded : payload.length ≤ kBlockSize - kHeaderSize) :
    (positioned filenum offset).readHeader files =
      (.payload type.code payload.length, headed filenum offset) := by
  have headerRead : (positioned filenum offset).read files
      (header type payload.length now).length = _ :=
    read_of_drop rfl split
  rw [length_header] at headerRead
  have lengthEq : headerLength (header type payload.length now) = payload.length :=
    headerLength_header type now (by simp only [kBlockSize, kHeaderSize] at bounded; omega)
  have typeNonzero : type.code ≠ RecordType.zero.code := by
    cases type <;> simp_all [RecordType.code]
  have lengthNonzero : payload.length ≠ 0 := by simpa using nonempty
  simp only [readHeader, headerRead, lengthEq, headerType_header]
  simp [Status.isEndFile, Nat.not_lt.mpr bounded, typeNonzero, lengthNonzero, positioned, headed]

/-- Behind its header, a payload is returned whole and the reader moves past
the record. -/
theorem readPayload_headed (split : (files.contents filenum).drop (offset + kHeaderSize) =
      payload ++ rest) (output : Output) (type : Nat) :
    (headed filenum offset).readPayload files output type payload.length =
      { recordType := type
        fragment := payload
        output :=
          { output with filenum := filenum, offset := offset + (kHeaderSize + payload.length) }
        reader := afterRecord filenum offset payload.length } := by
  have payloadRead : (headed filenum offset).read files payload.length = _ := read_of_drop rfl split
  simp only [readPayload, payloadRead, if_true]
  simp [headed, afterRecord, Nat.add_assoc]

theorem readHeader_at_end (opened : reader.queue = some { number := filenum, position := offset })
    (atEnd : (files.contents filenum).length ≤ offset) :
    reader.readHeader files = (.stop .eof, reader) := by
  cases reader
  simp only at opened
  simp [readHeader, read, opened, SequentialFile.read, SequentialFile.rest,
    drop_of_length_le atEnd, kHeaderSize, Status.isEndFile]

/-- `Consume` depends on the reader only through the place behind the block
tail. -/
theorem consume_congr {other : Reader}
    (sameTail : reader.skipBlockTail files = other.skipBlockTail files) :
    reader.consume files output = other.consume files output := by
  conv_lhs => rw [consume, readPhysicalRecord, sameTail]
  conv_rhs => rw [consume, readPhysicalRecord]

theorem consume_of_stop (stops : (switchRecord (reader.readPhysicalRecord files output)).1 =
      some status) :
    reader.consume files output = (status,
        (switchRecord (reader.readPhysicalRecord files output)).2,
        (reader.readPhysicalRecord files output).reader) := by
  rw [consume]
  split <;> simp_all

theorem consume_of_continue
    (continues : (switchRecord (reader.readPhysicalRecord files output)).1 = none) :
    reader.consume files output = (reader.readPhysicalRecord files output).reader.consume files
        (switchRecord (reader.readPhysicalRecord files output)).2 := by
  rw [consume]
  split <;> simp_all

/-- The switch on a fragment: the item is complete at its last fragment, and
only the first one discards what was assembled before. -/
theorem switchRecord_ofPlace (isBegin isEnd : Bool) (fragment : Bytes)
    (cleared : isBegin = true → output.scratch = []) :
    switchRecord
        { recordType := (RecordType.ofPlace isBegin isEnd).code
          fragment := fragment
          output := output
          reader := reader } = (if isEnd then some .ok else none,
        { output with scratch := output.scratch ++ fragment }) := by
  cases isBegin <;> cases isEnd <;> simp_all [switchRecord, RecordType.ofPlace, RecordType.code]

/-- Where the layout leaves room for payload, the reader reads the next
fragment. -/
theorem At.readPhysicalRecord_eq {left rest : Bytes}
    (standing : reader.At filenum offset) (nonempty : left ≠ []) (room : 0 < roomAt offset)
    (split : (files.contents filenum).drop offset =
      (nextFragment now offset isBegin left).bytes ++ rest) (output : Output) :
    reader.readPhysicalRecord files output =
      { recordType := (nextFragment now offset isBegin left).type.code
        fragment := left.take (roomAt offset)
        output :=
          { output with
            filenum := filenum
            offset := offset + padAt offset + (kHeaderSize + (left.take (roomAt offset)).length) }
        reader := afterRecord filenum (offset + padAt offset)
          (left.take (roomAt offset)).length } := by
  have afterPad := split
  rw [Fragment.bytes, append_assoc] at afterPad
  replace afterPad := drop_add_of_drop_eq afterPad
  rw [length_replicate, append_assoc] at afterPad
  have enough : offset + skipAt offset ≤ (files.contents filenum).length := by
    have := congrArg List.length split
    simp only [length_drop, length_append, Fragment.length_bytes,
      Fragment.size, nextFragment, kHeaderSize] at this
    rw [skipAt_of_room room]
    omega
  have nonzero : (nextFragment now offset isBegin left).type ≠ .zero := by
    unfold nextFragment RecordType.ofPlace
    split_ifs <;> simp
  have payloadNonempty : (nextFragment now offset isBegin left).payload ≠ [] := by
    simp [nextFragment, nonempty, room.ne']
  have bounded : (nextFragment now offset isBegin left).payload.length ≤ kBlockSize - kHeaderSize :=
    (length_take_le _ _).trans (roomAt_le offset)
  have tail := standing.skipBlockTail_eq enough
  rw [skipAt_of_room room] at tail
  change _ = positioned filenum (offset + (nextFragment now offset isBegin left).pad) at tail
  have payloadSplit := drop_add_of_drop_eq afterPad
  rw [length_header] at payloadSplit
  rw [readPhysicalRecord, tail, readRecord,
    readHeader_positioned afterPad nonzero payloadNonempty bounded]
  exact readPayload_headed payloadSplit output _

/-- Where the layout leaves room for payload, the reader takes the next
fragment and moves behind it. -/
theorem At.readPhysicalRecord_nextFragment (standing : reader.At filenum offset)
    (nonempty : left ≠ []) (room : 0 < roomAt offset)
    (split : (files.contents filenum).drop offset =
      (nextFragment now offset isBegin left).bytes ++ rest)
    (cleared : isBegin = true → output.scratch = []) :
    (reader.readPhysicalRecord files output).reader = afterRecord filenum (offset + padAt offset)
          (left.take (roomAt offset)).length ∧
      switchRecord (reader.readPhysicalRecord files output) =
        (if left.length ≤ roomAt offset then some .ok else none,
          { scratch := output.scratch ++ left.take (roomAt offset)
            filenum := filenum
            offset := offset + (nextFragment now offset isBegin left).size }) := by
  rw [standing.readPhysicalRecord_eq nonempty room split]
  refine ⟨rfl, (switchRecord_ofPlace _ _ _ (by exact cleared)).trans ?_⟩
  simp [nextFragment, Fragment.size, Nat.add_assoc]

/-- The first fragment of an item discards what was assembled before. -/
theorem At.consume_clear (standing : reader.At filenum offset)
    (nonempty : item ≠ []) (room : 0 < roomAt offset)
    (split : (files.contents filenum).drop offset =
      frame now offset item ++ rest) (output : Output) :
    reader.consume files output = reader.consume files { output with scratch := [] } := by
  have first : ∃ more, (files.contents filenum).drop offset =
      (nextFragment (now 0) offset true item).bytes ++ more := by
    rw [split, frame, fragments]
    split_ifs
    · exact ⟨_, by rw [flatMap_cons, append_assoc]⟩
    · exact ⟨rest, by rw [flatMap_singleton]⟩
  obtain ⟨more, firstSplit⟩ := first
  have record := standing.readPhysicalRecord_eq nonempty room firstSplit
  have switched : switchRecord (reader.readPhysicalRecord files output) =
      switchRecord (reader.readPhysicalRecord files
        { output with scratch := [] }) := by
    rw [record, record]
    by_cases fits : item.length ≤ roomAt offset <;>
      simp [switchRecord, nextFragment, RecordType.ofPlace, RecordType.code, fits]
  have sameReader : (reader.readPhysicalRecord files output).reader =
      (reader.readPhysicalRecord files
        { output with scratch := [] }).reader := by
    rw [record, record]
  cases stops : (switchRecord (reader.readPhysicalRecord files output)).1 with
  | some status =>
    rw [consume_of_stop stops, switched, sameReader, consume_of_stop (switched ▸ stops)]
  | none =>
    rw [consume_of_continue stops, switched, sameReader, ← consume_of_continue (switched ▸ stops)]

/-- Placed before the remaining fragments of an item, `Consume` completes the
item and stops behind its last fragment. -/
theorem At.consume_fragments (now : Nat → Nat) (offset : Nat) (isBegin : Bool)
    (left rest : Bytes) (output : Output) (reader : Reader)
    (nonempty : left ≠ []) (standing : reader.At filenum offset)
    (split : (files.contents filenum).drop offset =
      (fragments now offset isBegin left).flatMap Fragment.bytes ++ rest)
    (cleared : isBegin = true → output.scratch = []) :
    ∃ next : Reader,
      next.At filenum (recordEnd offset left.length) ∧ reader.consume files output = (.ok,
            { scratch := output.scratch ++ left
              filenum := filenum
              offset := recordEnd offset left.length }, next) := by
  fun_induction fragments now offset isBegin left generalizing output reader with
  | case1 now offset isBegin left longer ih =>
    rw [flatMap_cons, append_assoc] at split
    have restNonempty : left.drop (roomAt offset) ≠ [] := by simpa using longer
    have nextSize : (nextFragment (now 0) offset isBegin left).size =
        padAt offset + (kHeaderSize + roomAt offset) := by
      simp [Fragment.size, nextFragment, longer.le]
    have restSplit := drop_add_of_drop_eq split
    rw [Fragment.length_bytes, nextSize] at restSplit
    rw [recordEnd_of_lt longer, ← length_drop]
    by_cases room : roomAt offset = 0
    · -- A header without payload: the reader skips it as a block tail.
      have blockStart := blockStart_after_full offset
      have enough : offset + skipAt offset ≤ (files.contents filenum).length := by
        have := congrArg List.length split
        simp only [length_drop, length_append,
          Fragment.length_bytes, nextSize, kHeaderSize] at this
        rw [skipAt_of_no_room room]
        simp only [kHeaderSize]
        omega
      have sameTail := standing.skipBlockTail_eq enough
      rw [skipAt_of_no_room room] at sameTail enough
      have nextTail : Reader.skipBlockTail files (positioned filenum
          (offset + (padAt offset + (kHeaderSize + roomAt offset)))) = _ :=
        (at_positioned _ _).skipBlockTail_eq (by rwa [skipAt_of_blockStart blockStart])
      rw [skipAt_of_blockStart blockStart, Nat.add_zero] at nextTail
      obtain ⟨next, nextAt, consumed⟩ :=
        ih output _ restNonempty (at_positioned _ _) restSplit (by simp)
      refine ⟨next, nextAt, ?_⟩
      rw [consume_congr (sameTail.trans nextTail.symm), consumed]
      simp [room]
    · obtain ⟨readerEq, switchEq⟩ :=
        standing.readPhysicalRecord_nextFragment nonempty (Nat.pos_of_ne_zero room) split cleared
      rw [if_neg (Nat.not_le.mpr longer)] at switchEq
      rw [length_take_of_le longer.le] at readerEq
      obtain ⟨next, nextAt, consumed⟩ :=
        ih (switchRecord (reader.readPhysicalRecord files output)).2 _
          restNonempty (at_afterRecord filenum le_rfl) restSplit (by simp)
      refine ⟨next, nextAt, ?_⟩
      rw [consume_of_continue (by rw [switchEq]), readerEq, consumed, switchEq]
      simp
  | case2 now offset isBegin left fits =>
    have fits := Nat.le_of_not_lt fits
    rw [flatMap_cons, append_assoc] at split
    have room : 0 < roomAt offset := (length_pos_of_ne_nil nonempty).trans_le fits
    obtain ⟨readerEq, switchEq⟩ :=
      standing.readPhysicalRecord_nextFragment nonempty room split cleared
    have nextSize : (nextFragment (now 0) offset isBegin left).size =
        padAt offset + (kHeaderSize + left.length) := by
      simp [Fragment.size, nextFragment, fits]
    rw [if_pos fits, nextSize, take_of_length_le fits] at switchEq
    rw [take_of_length_le fits] at readerEq
    rw [recordEnd_of_le fits]
    refine ⟨_, at_afterRecord filenum fits, ?_⟩
    rw [consume_of_stop (by rw [switchEq]), switchEq, readerEq]

/-- Placed before an item, `Consume` returns the item. -/
theorem At.consume_frame (standing : reader.At filenum offset)
    (nonempty : item ≠ []) (split : (files.contents filenum).drop offset =
      frame now offset item ++ rest) (cleared : output.scratch = []) :
    ∃ next : Reader,
      next.At filenum (recordEnd offset item.length) ∧ reader.consume files output = (.ok,
            { scratch := item, filenum := filenum, offset := recordEnd offset item.length },
            next) := by
  obtain ⟨next, nextAt, consumed⟩ :=
    At.consume_fragments now offset true item rest output reader nonempty
      standing split (fun _ => cleared)
  exact ⟨next, nextAt, by simpa [cleared] using consumed⟩

/-- At the end of a file there is no block tail to skip. -/
theorem At.skipBlockTail_at_end (standing : reader.At filenum offset)
    (atEnd : (files.contents filenum).length ≤ offset) :
    (reader.skipBlockTail files).curFilenum = filenum ∧ (reader.skipBlockTail files).queue =
        some { number := filenum, position := offset } := by
  have nothing : (files.contents filenum).drop offset = [] := drop_of_length_le atEnd
  simp only [skipBlockTail]
  split_ifs <;>
    simp [skip, standing.queue_eq, standing.curFilenum_eq,
      SequentialFile.skip, SequentialFile.rest, nothing]

/-- At the end of a file, `Consume` changes no variable of the caller and
reports the end of the file. -/
theorem At.consume_at_end (standing : reader.At filenum offset)
    (atEnd : (files.contents filenum).length ≤ offset) :
    ∃ next : Reader, next.curFilenum = filenum ∧
        reader.consume files output = (.endFile "Eof", output, next) := by
  obtain ⟨tailFile, tailQueue⟩ := standing.skipBlockTail_at_end atEnd
  have recordEq : reader.readPhysicalRecord files output =
      { recordType := RecordType.eof.code
        fragment := []
        output := output
        reader := reader.skipBlockTail files } := by
    rw [readPhysicalRecord, readRecord, readHeader_at_end tailQueue atEnd]
  refine ⟨reader.skipBlockTail files, tailFile, ?_⟩
  rw [consume_of_stop (by rw [recordEq]; rfl), recordEq]
  rfl

end Reader
end Pika.Binlog
