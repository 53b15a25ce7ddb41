import Pika.Binlog.Harmless
import Pika.Binlog.Landing
import Pika.Binlog.LastByte

/-!
# Failed Puts that do harm

In every other case a failed `Put` does harm.  If the header of the last
fragment is in the file, a reader returns an item made of what was left behind.
If the next `Put` goes to the same file, its item lies behind those bytes while
the published offset counts it from before them.  And if nothing was left
behind but the block offset moved, the fragments of the next items no longer
begin with the blocks of the file, and `Seek` fails.
-/

namespace Pika.Binlog

open Foundation
open List hiding count

variable {next : Binlog}

theorem castUInt64_castInt32_of_lt (bounded : value < 2 ^ 31) :
    castUInt64 (castInt32 (value : Nat)) = value :=
  (castUInt64_castInt32_eq_iff (bounded.trans (by decide))).mpr bounded

theorem putAll_singleton {log : Binlog} {call : PutCall} (opened : log.opened = true)
    (fits : (log.nextPlace call.item.length).Fits) :
    log.putAll [call] = some (log.putSlice call.now call.item,
        [{ item := call.item, position := (log.putSlice call.now call.item).position }]) :=
  putAll_cons opened fits

namespace FailedPut

variable {put : FailedPut}

theorem Harmless.get_eq (harmless : put.Harmless) (hasCalls : calls ≠ [])
    (nonempty : ∀ call ∈ calls, call.item ≠ []) (fits : put.failed.PutsFit calls)
    (returned : put.failed.putAll calls = some (next, record :: later))
    (grows : put.failed.files.Grows next.files put.filenum) (output : Output) :
    ∃ fuel after, (Reader.positioned put.filenum put.offset).getLoop next fuel
          { output with scratch := [] } = some (.ok,
          { scratch := record.item
            filenum := record.position.filenum
            offset := record.position.offset }, after) := by
  obtain ⟨-, reader, sought, drains⟩ := harmless calls next _ hasCalls nonempty fits returned
  have here := grows.marked le_rfl put.marked_position
  rw [position_eq, here.seek_eq] at sought
  cases sought
  obtain ⟨fuel, after, getEq, -⟩ := drains output
  rw [get_of_queue (Reader.at_positioned _ _).queue_ne_none] at getEq
  exact ⟨fuel, after, getEq⟩

theorem facing_positioned {files : Files} (put : FailedPut)
    (contentsEq : files.contents put.filenum =
      put.log.checkRoll.files.contents put.filenum ++ behind) :
    Reader.Facing files (Reader.positioned put.filenum put.offset)
      (put.offset % kBlockSize) behind := by
  refine ⟨rfl, _, rfl, ?_⟩
  rw [SequentialFile.rest, contentsEq, ← put.length_contents, drop_left]

/-! ## An item made of what was left behind -/

/-- With the header of the last fragment in the file, a reader returns an item
that does not depend on what is put afterwards. -/
theorem not_harmless_of_headed (beyond : put.log.fileSize < put.offset + put.garbage.length)
    (headed : (operations put.now put.offset true put.item).length < put.made + 3) :
    ¬put.Harmless := by
  intro harmless
  have full := full_of_over beyond
  have same : ∀ byte : UInt8,
      (assemble (stream (put.offset % kBlockSize) put.garbage) []).2 = [byte] := by
    intro byte
    have fits : (put.failed.nextPlace [byte].length).Fits := by
      have short := recordEnd_le 0 1
      rw [full.nextPlace_eq]
      exact ⟨full.numbered, short.trans_lt (by decide)⟩
    have allFit : put.failed.PutsFit [{ item := [byte], now := fun _ => 0 }] := ⟨fits, trivial⟩
    have returned := putAll_singleton full.opened allFit.1
    have continued := continued_of_over beyond (cons_ne_nil _ _) (by simp) allFit returned
    obtain ⟨fuel, after, getEq⟩ := harmless.get_eq (cons_ne_nil _ _)
      (by simp) allFit returned (Files.Grows.of_agree continued.files_eq)
      { scratch := [], filenum := 0, offset := 0 }
    have standing := Reader.at_positioned put.filenum put.offset
    have opened := standing.queue_ne_none
    have assembled := ((put.facing_positioned continued.contents_eq).consume
      { scratch := [], filenum := 0, offset := 0 }).1
    cases fuel with
    | zero => cases getEq
    | succ fuel =>
      rw [Reader.getLoop_succ opened (continued.readToTheEnd_eq standing), if_neg] at getEq
      · rw [← assembled]
        have result := congrArg Prod.snd (Option.some.inj getEq)
        exact congrArg (fun outcome => outcome.1.scratch) result
      · rw [Reader.isEndFile_consume_iff opened, continued.exhausted_iff standing]
        exact Nat.not_le.mpr headed
  have different := (same 0).symm.trans (same 1)
  simp at different

/-! ## An item behind what was left -/

/-- The bytes of an item put next. -/
def nextFrame (put : FailedPut) (call : PutCall) : Bytes :=
  frame call.now put.failed.blockOffset call.item

/-- A log after one item was put behind what the failed `Put` left. -/
structure PutBehind (put : FailedPut) (next : Binlog) (call : PutCall) : Prop where
  opened : next.opened = true
  proNum_eq : next.proNum = put.filenum
  published : next.version.proNum = put.filenum
  fileSize_eq : next.fileSize = put.log.fileSize
  files_eq : next.files = put.failed.files.append put.filenum (put.nextFrame call)
  offset_eq : next.version.proOffset = put.offset + (put.nextFrame call).length
  blockAt : BlockAt next.blockOffset (recordEnd put.failed.blockOffset call.item.length)

theorem putBehind_of_below (below : put.offset + put.garbage.length ≤ put.log.fileSize)
    (call : PutCall) (small : put.offset + (put.nextFrame call).length < 2 ^ 31) :
    PutBehind put (put.failed.putSlice call.now call.item) call := by
  obtain ⟨-, inBlock, failedEq⟩ := put.journal.aligned.putFailing_spec put.returned
  have stayed : put.failed.checkRoll = put.failed := by
    apply checkRoll_of_le
    rwa [put.fileSize_failed, put.length_contents_failed]
  have offsetEq : put.failed.version.proOffset = put.offset :=
    congrArg BinlogOffset.offset put.position_eq
  have placed : BlockAt put.failed.checkRoll.blockOffset put.failed.blockOffset := by
    rw [stayed]
    exact ⟨inBlock, rfl⟩
  obtain ⟨produced, putEq, blockAt, offsetAfter⟩ := putSlice_frame placed call.now call.item
  have lengthEq := add_length_frame call.now put.failed.blockOffset call.item
  rw [stayed, offsetEq, ← lengthEq, Nat.add_sub_cancel_left, ← Nat.cast_add] at offsetAfter
  rw [stayed] at putEq
  rw [putEq]
  exact
    { opened := put.opened_failed
      proNum_eq := put.proNum_failed
      published := put.proNum_eq_failed.trans put.proNum_failed
      fileSize_eq := put.fileSize_failed
      files_eq := congrArg (fun number => put.failed.files.append number (put.nextFrame call))
        put.proNum_failed
      offset_eq := (congrArg castUInt64 offsetAfter).trans (castUInt64_castInt32_of_lt small)
      blockAt := blockAt }

namespace PutBehind

variable {call : PutCall} (behind : PutBehind put next call)

include behind

theorem contents_eq :
    next.files.contents put.filenum = put.log.checkRoll.files.contents put.filenum ++
        (put.garbage ++ put.nextFrame call) := by
  rw [behind.files_eq, Files.contents_append_self, put.contents_failed, append_assoc]

theorem position_eq :
    next.position =
      { filenum := put.filenum, offset := put.offset + (put.nextFrame call).length } :=
  Binlog.position_eq behind.published behind.offset_eq

/-- An item that exceeds the threshold lets the next `Put` roll. -/
theorem overfull (beyond : next.fileSize < (next.files.contents next.proNum).length) :
    next.Overfull :=
  ⟨behind.opened, behind.published.trans behind.proNum_eq.symm,
    behind.proNum_eq.symm ▸ put.filenum_lt, beyond⟩

end PutBehind

theorem nextPlace_of_below (below : put.offset + put.garbage.length ≤ put.log.fileSize)
    (length : Nat) :
    put.failed.nextPlace length =
      { filenum := put.filenum, offset := recordEnd put.offset length } := by
  rw [nextPlace, if_neg, position_eq]
  · rfl
  · rw [put.fileSize_failed, put.length_contents_failed]
    exact Nat.not_lt.mpr below

/-- In the file behind the one of the failed `Put`, `Get` returns a record of
that file. -/
theorem filenum_lt_of_getLoop {records : List Record} {output result : Output} {after : Reader}
    (journal : next.Journal { filenum := number + 1, offset := 0 } records)
    (nonempty : records ≠ [])
    (returned : (Reader.positioned (number + 1) 0).getLoop next fuel output =
      some (.ok, result, after)) :
    number < result.filenum := by
  obtain ⟨record, later, rfl⟩ := exists_cons_of_ne_nil nonempty
  have published := journal.aligned.getProducerStatus_eq
  have standing := Reader.at_positioned (number + 1) 0
  rw [Reader.getLoop_clear journal.chain published standing rfl,
    ← get_of_queue standing.queue_ne_none] at returned
  obtain ⟨_, next, getEq, -⟩ := drains_of_chain journal.chain published standing output
  cases Reader.get_unique returned getEq
  have ahead := journal.chain.uncons.1
  rw [BinlogOffset.lt_iff] at ahead
  simp only at ahead ⊢
  omega

/-- The first `Consume` behind the position of the failed `Put`, after an item
that exceeds the threshold. -/
theorem Harmless.consume_eq (harmless : put.Harmless)
    (below : put.offset + put.garbage.length ≤ put.log.fileSize)
    (call : PutCall) (nonempty : call.item ≠ [])
    (fits : recordEnd put.offset call.item.length < 2 ^ 31)
    (small : put.offset + (put.nextFrame call).length < 2 ^ 31)
    (overflows : put.log.fileSize < put.offset + (put.garbage ++ put.nextFrame call).length)
    (output : Output) :
    ∃ files : Files, files.contents put.filenum = put.log.checkRoll.files.contents put.filenum ++
            (put.garbage ++ put.nextFrame call) ∧
        ((Reader.positioned put.filenum put.offset).consume files
          { output with scratch := [] }).1.isEndFile = false ∧
        ((Reader.positioned put.filenum put.offset).consume files
          { output with scratch := [] }).2.1 =
            { scratch := call.item
              filenum := put.filenum
              offset := put.offset + (put.nextFrame call).length } := by
  have behind := putBehind_of_below below call small
  have full := behind.overfull (by
    rwa [behind.fileSize_eq, behind.proNum_eq, behind.contents_eq, length_append,
      put.length_contents])
  -- A second item goes to the next file, where it is all there is.
  let second : PutCall := { item := [0], now := fun _ => 0 }
  have secondFits : ((put.failed.putSlice call.now call.item).nextPlace
      second.item.length).Fits := by
    have short := recordEnd_le 0 1
    rw [full.nextPlace_eq]
    exact ⟨full.numbered, short.trans_lt (by decide)⟩
  have allFit : put.failed.PutsFit [call, second] := by
    refine ⟨?_, secondFits, trivial⟩
    rw [nextPlace_of_below below]
    exact ⟨Nat.lt_of_succ_lt put.filenum_lt, fits⟩
  have allNonempty : ∀ other ∈ [call, second], other.item ≠ [] := by simp [nonempty, second]
  have lastReturned := putAll_singleton full.opened secondFits
  have returned := (putAll_cons put.opened_failed allFit.1 : put.failed.putAll [call, second] = _)
  rw [lastReturned, Option.map_some] at returned
  obtain ⟨journal, filesEq⟩ := full.putAll (cons_ne_nil second [])
    (by simp [second]) ⟨secondFits, trivial⟩ lastReturned
  rw [behind.proNum_eq] at journal filesEq
  have contentsEq := behind.contents_eq
  rw [Files.contents, ← filesEq _ le_rfl] at contentsEq
  have grows := Files.Grows.append put.failed.files put.filenum (put.nextFrame call)
  rw [← behind.files_eq] at grows
  obtain ⟨fuel, after, getEq⟩ := harmless.get_eq (cons_ne_nil _ _)
    allNonempty allFit returned (grows.of_agree_right filesEq) output
  rw [behind.position_eq] at getEq
  have standing := Reader.at_positioned put.filenum put.offset
  have ahead := journal.chain.filenum_le
  have notEnd : Reader.readToTheEnd _ (Reader.positioned put.filenum put.offset) = false :=
    Reader.readToTheEnd_of_ne journal.aligned.getProducerStatus_eq
      (show Reader.At _ (BinlogOffset.filenum ⟨put.filenum, put.offset⟩)
        (BinlogOffset.offset ⟨put.filenum, put.offset⟩) from standing)
      (by
        intro same
        rw [same] at ahead
        exact Nat.not_succ_le_self _ ahead)
  have nextEq : (Reader.positioned put.filenum put.offset).openNext =
      Reader.positioned (put.filenum + 1) 0 := by
    simp [Reader.openNext, Reader.positioned, castUInt32_succ put.filenum_lt]
  refine ⟨_, contentsEq, ?_⟩
  cases fuel with
  | zero => cases getEq
  | succ fuel =>
    rw [Reader.getLoop_succ standing.queue_ne_none notEnd, nextEq] at getEq
    split_ifs at getEq with ended present
    · have later := filenum_lt_of_getLoop journal (cons_ne_nil _ _) getEq
      exact (Nat.lt_irrefl _ later).elim
    · cases getEq
    · refine ⟨Bool.eq_false_of_not_eq_true ended, ?_⟩
      have result := congrArg Prod.snd (Option.some.inj getEq)
      exact congrArg Prod.fst result

/-- The item with which the last byte of the file is told. -/
def sealingCall (front : Bytes) (byte : UInt8) : PutCall :=
  { item := front ++ (List.replicate (kBlockSize - kHeaderSize - 1) 255 ++ [byte])
    now := fun _ => sealingClock }

theorem frame_sealingCall (blocks offset : Nat) (front : Bytes)
    (fills : front.length = roomAt offset + (kBlockSize - kHeaderSize) * blocks) :
    ∃ lead : Bytes, ∀ byte : UInt8, frame (sealingCall front byte).now offset
          (sealingCall front byte).item = lead ++ sealingBlock ++ [byte] := by
  obtain ⟨lead, leadEq⟩ := fragments_append_block sealingClock blocks offset true front fills
  refine ⟨lead, fun byte => ?_⟩
  have framed := leadEq (List.replicate (kBlockSize - kHeaderSize - 1) 255 ++ [byte]) (by
      rw [length_append, length_replicate]
      rfl)
  rw [sealingBlock, append_assoc, append_assoc]
  exact framed

theorem length_sealingCall (front : Bytes) (byte : UInt8) :
    (sealingCall front byte).item.length = front.length + (kBlockSize - kHeaderSize) := by
  rw [sealingCall, length_append, length_append, length_replicate]
  rfl

/-- If the next `Put` goes to the file in which bytes were left behind, a
failed `Put` does harm. -/
theorem not_harmless_of_garbage (below : put.offset + put.garbage.length ≤ put.log.fileSize)
    (left : put.garbage ≠ []) :
    ¬put.Harmless := by
  intro harmless
  -- An item long enough to exceed the threshold, and no longer.
  obtain ⟨blocks, blocksEq⟩ : ∃ blocks, blocks =
      (put.log.fileSize - (put.offset + put.garbage.length)) / kBlockSize :=
    ⟨_, rfl⟩
  obtain ⟨front, fills⟩ : ∃ front : Bytes, front.length =
      roomAt put.failed.blockOffset + (kBlockSize - kHeaderSize) * blocks :=
    ⟨List.replicate _ 0, length_replicate⟩
  obtain ⟨lead, framed⟩ := frame_sealingCall blocks _ front fills
  have lengthEq : ∀ byte, (sealingCall front byte).item.length =
      roomAt put.failed.blockOffset + (kBlockSize - kHeaderSize) * (blocks + 1) := by
    intro byte
    rw [length_sealingCall, fills, Nat.mul_succ, Nat.add_assoc]
  have threshold := put.threshold
  have blocksLe := Nat.div_mul_le_self
    (put.log.fileSize - (put.offset + put.garbage.length)) kBlockSize
  have blocksGt := Nat.lt_div_mul_add (a :=
    put.log.fileSize - (put.offset + put.garbage.length)) (show 0 < kBlockSize by decide)
  rw [← blocksEq] at blocksLe blocksGt
  have room := roomAt_le put.failed.blockOffset
  have place := padAt_roomAt_cases put.failed.blockOffset
  have sizeEq : ∀ byte, (put.nextFrame (sealingCall front byte)).length =
      padAt put.failed.blockOffset + roomAt put.failed.blockOffset +
        kHeaderSize + kBlockSize * (blocks + 1) := by
    intro byte
    have total := add_length_frame (sealingCall front byte).now
      put.failed.blockOffset (sealingCall front byte).item
    rw [recordEnd_of_blocks (lengthEq byte)] at total
    rw [nextFrame]
    omega
  simp only [kBlockSize, kHeaderSize] at lengthEq blocksLe blocksGt sizeEq
  have consumed := fun byte => harmless.consume_eq below
    (sealingCall front byte) (by simp [sealingCall])
    (by
      have bounded := recordEnd_le_add put.offset (sealingCall front byte).item.length
      rw [lengthEq] at bounded ⊢
      omega)
    (by rw [sizeEq]; omega)
    (by rw [length_append, sizeEq]; omega)
    { scratch := [], filenum := 0, offset := 0 }
  obtain ⟨files, contentsEq, notEnded, result⟩ := consumed 100
  obtain ⟨others, otherContents, -, otherResult⟩ := consumed 101
  have behind : ∀ byte, put.garbage ++ put.nextFrame (sealingCall front byte) =
      (put.garbage ++ lead ++ sealingBlock) ++ [byte] := by
    intro byte
    rw [nextFrame, framed]
    simp only [append_assoc]
  rw [behind] at contentsEq otherContents
  have otherAssembled := congrArg Prod.snd ((put.facing_positioned otherContents).consume
      { scratch := [], filenum := 0, offset := 0 }).1
  rcases (put.facing_positioned contentsEq).consume_lastByte rfl
    (sealed_sealingBlock _) (by decide) (show NoType 101 by decide)
    { scratch := [], filenum := 0, offset := 0 } with
    ended | same | offsetEq
  · exact Bool.false_ne_true (notEnded.symm.trans ended)
  · -- Both items would be what the reader returns.
    have scratchEq := (congrArg Prod.snd same).trans otherAssembled.symm
    simp only [result, otherResult, sealingCall, append_cancel_left_eq] at scratchEq
    simp at scratchEq
  · -- The published offset does not count what was left behind.
    have positive := length_pos_of_ne_nil left
    have total := congrArg List.length (behind 100)
    rw [length_append] at total
    rw [result] at offsetEq
    simp only [Reader.positioned] at offsetEq
    omega

/-! ## Fragments that do not begin with the blocks of the file -/

end FailedPut

theorem announced_of_type (noType : headerType (bytes.take kHeaderSize) = RecordType.zero.code ∨
      RecordType.oldRecord.code < headerType (bytes.take kHeaderSize)) :
    announced bytes = none := by
  have different : ∀ known : RecordType, known ≠ .zero →
      headerType (bytes.take kHeaderSize) ≠ known.code := by
    intro known nonzero
    cases known <;> simp only [RecordType.code] at noType ⊢ <;> first | contradiction | omega
  rw [announced]
  simp only [different .first (by decide), different .middle (by decide),
    different .full (by decide), different .last (by decide),
    different .badRecord (by decide), or_self, if_false]
  split_ifs <;> rfl

/-- Zeros, and behind them nothing or the header of a short item, announce no
item. -/
theorem announced_of_zeros (positive : 0 < count)
    (cut : behind = [] ∨ ∃ rest, behind = header .full 100 0 ++ rest) :
    announced (List.replicate count 0 ++ behind) = none := by
  by_cases long : kHeaderSize ≤ count
  · apply announced_of_type
    left
    simp only [kHeaderSize] at long
    have zero : ((List.replicate count (0 : UInt8) ++ behind).take kHeaderSize).getD 7 0 = 0 := by
      rw [getD_eq_getElem?_getD, List.getElem?_take_of_lt (by decide),
        List.getElem?_append_left (by simp; omega), List.getElem?_replicate, if_pos (by omega)]
      rfl
    rw [headerType, zero]
    rfl
  · simp only [kHeaderSize] at long
    rcases cut with rfl | ⟨rest, rfl⟩
    · rw [announced, dif_pos]
      simpa [kHeaderSize] using long
    · apply announced_of_type
      have cases : count = 1 ∨ count = 2 ∨ count = 3 ∨ count = 4 ∨
          count = 5 ∨ count = 6 ∨ count = 7 := by
        omega
      rcases cases with rfl | rfl | rfl | rfl | rfl | rfl | rfl <;>
        simp [headerType, header, kHeaderSize, RecordType.code]

theorem Stops.eq_zero_of_none (none : announced bytes = none) (stops : Stops bytes count) :
    count = 0 := by
  cases stops with
  | start => rfl
  | item found _ => cases none.symm.trans found

/-- `Seek` fails in a block that begins with no header. -/
theorem seek_of_announced_none (present : log.files.fileExists filenum = true)
    (inside : 0 < offset % kBlockSize)
    (none : announced (Reader.blockBytes log.files filenum offset) = none) :
    Reader.seek log filenum offset = Option.none := by
  obtain ⟨opened, -, facing, seekEq⟩ := Reader.seek_of_present present offset
  rw [seekEq]
  apply facing.seekLoop_of_short
  intro count stops
  rwa [stops.eq_zero_of_none none]

theorem frame_of_blockStart (blockStart : offset % kBlockSize = 0)
    (fits : item.length ≤ kBlockSize - kHeaderSize) (now : Nat → Nat) :
    frame now offset item = header .full item.length (now 0) ++ item := by
  have room := roomAt_of_blockStart blockStart
  rw [frame, fragments, dif_neg (by omega), flatMap_singleton]
  simp [Fragment.bytes, nextFragment, RecordType.ofPlace, room, fits,
    take_of_length_le fits, padAt_of_blockStart blockStart]

namespace FailedPut

variable {put : FailedPut}

/-- How far the block offset runs ahead when the first operation fails. -/
theorem skew_of_first (first : put.made = 0) (unpadded : padAt put.offset = 0)
    (skewed : ¬(put.offset % kBlockSize = 0 ∧ kBlockSize - kHeaderSize ≤ put.item.length)) :
    ∃ skew, put.failed.blockOffset = put.offset % kBlockSize + skew ∧
        kHeaderSize ≤ skew ∧ skew < kBlockSize := by
  have failedEq := put.journal.aligned.putFailing_zero (first ▸ put.returned)
  refine ⟨kHeaderSize + (put.item.take (roomAt put.offset)).length, ?_, Nat.le_add_right _ _, ?_⟩
  · rw [failedEq]
    exact if_neg (Nat.not_lt.mpr unpadded.le)
  · have place := padAt_roomAt_cases put.offset
    rw [length_take]
    simp only [kBlockSize, kHeaderSize] at skewed ⊢
    omega

/-- An item that fills its last block with zeros. -/
theorem exists_zerosCall (put : FailedPut) :
    ∃ call : PutCall, ∃ lead, call.item.length =
          roomAt put.failed.blockOffset + (kBlockSize - kHeaderSize) * 1 ∧
        put.nextFrame call = lead ++ List.replicate (kBlockSize - kHeaderSize) 0 := by
  obtain ⟨front, fills⟩ : ∃ front : Bytes, front.length =
      roomAt put.failed.blockOffset + (kBlockSize - kHeaderSize) * 0 :=
    ⟨List.replicate _ 0, length_replicate⟩
  obtain ⟨lead, framed⟩ := fragments_append_block 0 0 put.failed.blockOffset true front fills
  refine ⟨{ item := front ++ List.replicate (kBlockSize - kHeaderSize) 0, now := fun _ => 0 },
    lead ++ header .last (kBlockSize - kHeaderSize) 0, ?_, ?_⟩
  · rw [length_append, length_replicate, fills, Nat.mul_zero, Nat.mul_one, Nat.add_zero]
  · rw [append_assoc]
    exact framed _ length_replicate

/-- A short item of zeros. -/
def shortCall : PutCall := { item := List.replicate 100 0, now := fun _ => 0 }

theorem PutBehind.contents_putSlice {call : PutCall} (behind : PutBehind put next call)
    (blockStart : recordEnd put.failed.blockOffset call.item.length % kBlockSize = 0)
    (fits : (next.nextPlace shortCall.item.length).Fits) :
    (next.putSlice shortCall.now shortCall.item).files.fileExists put.filenum = true ∧
      ∃ more, (more = [] ∨ ∃ rest, more = header .full 100 0 ++ rest) ∧
          (next.putSlice shortCall.now shortCall.item).files.contents put.filenum =
            next.files.contents put.filenum ++ more := by
  have present : next.files.fileExists put.filenum = true := by
    rw [behind.files_eq]
    simp [put.marked_position.fileExists]
  by_cases beyond : next.fileSize < (next.files.contents next.proNum).length
  · have full := behind.overfull beyond
    obtain ⟨-, filesEq⟩ := full.putAll (cons_ne_nil shortCall [])
      (by simp [shortCall]) ⟨fits, trivial⟩
      (putAll_singleton full.opened fits)
    have agree := filesEq put.filenum behind.proNum_eq.ge
    rw [Files.fileExists, Files.contents, agree]
    exact ⟨present, [], .inl rfl, (append_nil _).symm⟩
  · have stayed : next.checkRoll = next := if_neg beyond
    obtain ⟨produced, putEq, -, -⟩ :=
      putSlice_frame (stayed.symm ▸ behind.blockAt) shortCall.now shortCall.item
    have filesEq : (next.putSlice shortCall.now shortCall.item).files =
        next.files.append put.filenum (frame shortCall.now
            (recordEnd put.failed.blockOffset call.item.length)
            shortCall.item) := by
      rw [putEq, stayed, ← behind.proNum_eq]
      rfl
    rw [filesEq, Files.contents_append_self, frame_of_blockStart blockStart (by decide)]
    exact ⟨by simp [present], _, .inr ⟨_, rfl⟩, rfl⟩

/-- The last zeros of an item, from the start of the block of its published
end on. -/
theorem blockBytes_of_zeros {files : Files} {lead front more : Bytes}
    (contentsEq : files.contents number =
      front ++ (lead ++ List.replicate (kBlockSize - kHeaderSize) 0) ++ more)
    (stopEq : stop = front.length +
      (lead ++ List.replicate (kBlockSize - kHeaderSize) (0 : UInt8)).length)
    (modEq : stop % kBlockSize = kBlockSize - skew)
    (skewGe : kHeaderSize ≤ skew) (skewLe : skew ≤ kBlockSize) :
    Reader.blockBytes files number stop = List.replicate (kBlockSize - skew) 0 ++ more := by
  have split : List.replicate (kBlockSize - kHeaderSize) (0 : UInt8) =
      List.replicate (skew - kHeaderSize) 0 ++ List.replicate (kBlockSize - skew) 0 := by
    rw [replicate_append_replicate]
    congr 1
    omega
  have total := Nat.div_add_mod' stop kBlockSize
  rw [length_append, length_replicate] at stopEq
  have startEq : stop / kBlockSize * kBlockSize = (front ++ lead ++
        List.replicate (skew - kHeaderSize) (0 : UInt8)).length := by
    rw [length_append, length_append, length_replicate]
    omega
  have contentsSplit : files.contents number =
      front ++ lead ++ List.replicate (skew - kHeaderSize) 0 ++
        (List.replicate (kBlockSize - skew) 0 ++ more) := by
    rw [contentsEq, split]
    simp only [append_assoc]
  rw [Reader.blockBytes, startEq, contentsSplit, drop_left]

theorem operations_eq_cons (now : Nat → Nat) (offset : Nat) (isBegin : Bool) (left : Bytes) :
    ∃ first rest, first ≠ [] ∧ operations now offset isBegin left = first :: rest := by
  have head : ∀ fragment : Fragment, ∃ first rest,
      first ≠ [] ∧ fragment.operations = first :: rest := by
    intro fragment
    unfold Fragment.operations Fragment.appends
    split_ifs with padded
    · refine ⟨_, _, ?_, rfl⟩
      rwa [← length_pos_iff_ne_nil, length_replicate]
    · exact ⟨_, _, cons_ne_nil _ _, rfl⟩
  rw [operations, fragments]
  split_ifs
  · obtain ⟨first, rest, nonempty, same⟩ := head (nextFragment (now 0) offset isBegin left)
    rw [flatMap_cons, same]
    exact ⟨first, _, nonempty, rfl⟩
  · rw [flatMap_singleton]
    exact head _

/-- Only a failure of the first operation leaves nothing behind. -/
theorem made_eq_zero (put : FailedPut) (nothing : put.garbage = []) : put.made = 0 := by
  obtain ⟨first, rest, nonempty, same⟩ := operations_eq_cons put.now put.offset true put.item
  rw [garbage, leftBehind, same] at nothing
  by_contra positive
  obtain ⟨more, madeEq⟩ := Nat.exists_eq_succ_of_ne_zero positive
  rw [madeEq, take_succ_cons, flatten_cons] at nothing
  exact nonempty (append_eq_nil_iff.mp nothing).1

/-- If the first operation fails and moves the block offset away from the
blocks of the file, a failed `Put` does harm. -/
theorem not_harmless_of_skew (first : put.made = 0) (unpadded : padAt put.offset = 0)
    (skewed : ¬(put.offset % kBlockSize = 0 ∧ kBlockSize - kHeaderSize ≤ put.item.length)) :
    ¬put.Harmless := by
  intro harmless
  obtain ⟨skew, skewEq, skewGe, skewLt⟩ := skew_of_first first unpadded skewed
  have offsetLe : put.offset ≤ put.log.fileSize := put.journal.aligned.offset_le
  have nothing : put.garbage = [] := by
    rw [garbage, leftBehind, first]
    rfl
  have below : put.offset + put.garbage.length ≤ put.log.fileSize := by
    rw [nothing]
    exact offsetLe
  obtain ⟨call, lead, lengthEq, framed⟩ := put.exists_zerosCall
  have endEq := recordEnd_of_blocks lengthEq
  have total := add_length_frame call.now put.failed.blockOffset call.item
  have fullBlock := blockStart_after_full put.failed.blockOffset
  have threshold := put.threshold
  have room := roomAt_le put.failed.blockOffset
  have place := padAt_roomAt_cases put.failed.blockOffset
  change _ + (put.nextFrame call).length = _ at total
  have endMod : recordEnd put.failed.blockOffset call.item.length % kBlockSize = 0 := by
    rw [endEq]
    simp only [kBlockSize, kHeaderSize] at fullBlock ⊢
    omega
  simp only [kBlockSize, kHeaderSize] at endEq room lengthEq
  have small : put.offset + (put.nextFrame call).length < 2 ^ 31 := by omega
  have behind := putBehind_of_below below call small
  have secondFits : ((put.failed.putSlice call.now call.item).nextPlace
      shortCall.item.length).Fits := by
    have here := recordEnd_le (put.offset + (put.nextFrame call).length) 100
    have there := recordEnd_le 0 100
    rw [nextPlace, behind.position_eq]
    split_ifs
    · exact ⟨put.filenum_lt, there.trans_lt (by decide)⟩
    · refine ⟨Nat.lt_of_succ_lt put.filenum_lt, here.trans_lt ?_⟩
      omega
  have allFit : put.failed.PutsFit [call, shortCall] := by
    refine ⟨?_, secondFits, trivial⟩
    have bounded := recordEnd_le_add put.offset call.item.length
    rw [nextPlace_of_below below]
    refine ⟨Nat.lt_of_succ_lt put.filenum_lt, ?_⟩
    change recordEnd put.offset call.item.length < _
    omega
  have allNonempty : ∀ other ∈ [call, shortCall], other.item ≠ [] := by
    have nonempty : call.item ≠ [] := by
      rw [← length_pos_iff_ne_nil, lengthEq]
      omega
    simp [nonempty, shortCall]
  have returned := (putAll_cons put.opened_failed allFit.1 :
    put.failed.putAll [call, shortCall] = _)
  rw [putAll_singleton behind.opened secondFits, Option.map_some] at returned
  obtain ⟨present, more, cut, contentsEq⟩ := behind.contents_putSlice endMod secondFits
  have modEq : (put.offset + (put.nextFrame call).length) % kBlockSize = kBlockSize - skew := by
    simp only [kBlockSize, kHeaderSize] at fullBlock skewEq skewLt skewGe ⊢
    omega
  rw [behind.contents_eq, nothing, nil_append, framed] at contentsEq
  have bytesEq := blockBytes_of_zeros contentsEq
    (show put.offset + (put.nextFrame call).length = _ by
      rw [put.length_contents, framed])
    modEq skewGe skewLt.le
  have positive : 0 < kBlockSize - skew := Nat.sub_pos_of_lt skewLt
  obtain ⟨reader, sought, -⟩ :=
    (harmless _ _ _ (cons_ne_nil _ _) allNonempty allFit returned).1
      (put.records ++ [_]) [_] (append_cons _ _ _)
      (cons_ne_nil _ _)
  rw [Chain.positionAfter_append_cons, Chain.positionAfter] at sought
  simp only [behind.position_eq] at sought
  rw [seek_of_announced_none present (modEq ▸ positive)] at sought
  · cases sought
  · rw [bytesEq]
    exact announced_of_zeros positive cut

/-! ## Exactly the harmless failures -/

/-- A failed `Put` does no harm to later items exactly if its first operation
failed and left the block offset in step with the file, or the file is left
above the threshold without the header of the item's last fragment. -/
theorem harmless_iff_leavesIntact (put : FailedPut) : put.Harmless ↔ put.LeavesIntact := by
  constructor
  · intro harmless
    by_cases beyond : put.log.fileSize < put.offset + put.garbage.length
    · refine .inr ⟨beyond, ?_⟩
      by_contra headed
      exact not_harmless_of_headed beyond (Nat.lt_of_not_le headed) harmless
    · have below := Nat.le_of_not_lt beyond
      have nothing : put.garbage = [] := by
        by_contra left
        exact not_harmless_of_garbage below left harmless
      have first : put.made = 0 := put.made_eq_zero nothing
      refine .inl ⟨first, ?_⟩
      by_contra moved
      obtain ⟨padded, skewed⟩ := not_or.mp moved
      exact not_harmless_of_skew first (Nat.eq_zero_of_not_pos padded) skewed harmless
  · rintro (⟨first, unmoved⟩ | ⟨beyond, unheaded⟩)
    · exact harmless_of_first first unmoved
    · exact harmless_of_over beyond unheaded

/-- The header of a small item is written to a fresh log, the payload is
not. -/
theorem not_harmless_headerOnly :
    ∃ put : FailedPut, put.log = fresh 104857600 0 ∧ put.item = [7] ∧ put.made = 1 ∧
        ¬put.Harmless := by
  have aligned := aligned_fresh 104857600 0
  have operationsEq : operations (fun _ => 0) 0 true [7] = [header .full 1 0, [7], []] := by
    rw [operations_of_le (by decide)]
    rfl
  obtain ⟨state, loopEq, -⟩ := @produceLoopFailing_of_lt 0
    { appends := []
      blockOffset := (fresh 104857600 0).checkRoll.blockOffset
      tempProOffset := castInt32 (fresh 104857600 0).checkRoll.version.proOffset
      left := [7]
      isBegin := true }
    aligned.checkRoll.blockAt (fun _ => 0) 1 (by decide) []
  let put : FailedPut :=
    { log := fresh 104857600 0
      start := { filenum := 0, offset := 0 }
      records := []
      journal := journal_fresh 104857600 0
      item := [7]
      nonempty := cons_ne_nil _ _
      now := fun _ => 0
      made := 1
      failed := _
      returned := congrArg (Option.map _) loopEq
      threshold := by decide
      numbered := by decide }
  have garbageEq : put.garbage = header .full 1 0 := by
    change ((operations (fun _ => 0) 0 true [7]).take 1).flatten = _
    rw [operationsEq]
    rfl
  refine ⟨put, rfl, rfl, rfl, not_harmless_of_garbage ?_ ?_⟩
  · rw [garbageEq]
    change (fresh 104857600 0).checkRoll.version.proOffset + _ ≤ (fresh 104857600 0).fileSize
    decide
  · rw [garbageEq]
    exact cons_ne_nil _ _

end FailedPut
end Pika.Binlog
