import Pika.Binlog.Seek
import Pika.Binlog.Stream

/-!
# Where `Seek` lands in arbitrary bytes

From the start of a block, headers announce items one behind another until a
header announces none.  The ends of these items are the stops of the walk.
`Seek` lands on the first stop at or behind the place it looks for, and fails
when the walk ends before that place.
-/

namespace Pika.Binlog

/-- The size that the headers at the start of some bytes announce for one item,
and the bytes behind it.  Behind the end of the file there are none. -/
def announced (bytes : Bytes) : Option (Nat × Bytes) :=
  let length := headerLength (bytes.take kHeaderSize)
  let type := headerType (bytes.take kHeaderSize)
  let behind := bytes.drop (kHeaderSize + length)
  if _short : bytes.length < kHeaderSize then none
  else if kBlockSize - kHeaderSize < length then none
  else if type = RecordType.first.code ∨ type = RecordType.middle.code then
    (announced behind).map fun item => (kHeaderSize + length + item.1, item.2)
  else if type = RecordType.full.code ∨ type = RecordType.last.code ∨
      type = RecordType.badRecord.code then
    some (kHeaderSize + length, behind)
  else none
termination_by bytes.length
decreasing_by
  simp only [List.length_drop, kHeaderSize] at _short ⊢
  omega

/-- The ends of the items announced one behind another, and their start. -/
inductive Stops : Bytes → Nat → Prop where
  | start : Stops bytes 0
  | item {bytes rest : Bytes} (found : announced bytes = some (size, rest))
      (tail : Stops rest count) :
      Stops bytes (size + count)

/-- A walk over some bytes comes behind a place without a stop at it. -/
def PassesOver (bytes : Bytes) (place : Nat) : Prop :=
  ¬Stops bytes place ∧ ∃ count, Stops bytes count ∧ place < count

theorem not_passesOver_zero (bytes : Bytes) : ¬PassesOver bytes 0 := fun passed => passed.1 .start

namespace Reader

variable {files : Files} {reader : Reader}

section

variable (facing : Facing files reader inBlock bytes)
include facing

/-- One header of `GetNext`, in terms of the unread bytes. -/
theorem Facing.getNext_header (offset : Nat) :
    ∃ behind : Reader, Facing files behind inBlock (bytes.drop
            (kHeaderSize + headerLength (bytes.take kHeaderSize))) ∧
        behind.curFilenum = reader.curFilenum ∧
        reader.getNext files offset =
          let size := kHeaderSize + headerLength (bytes.take kHeaderSize)
          let type := headerType (bytes.take kHeaderSize)
          if bytes.length < kHeaderSize then none
          else if kBlockSize - kHeaderSize < headerLength (bytes.take kHeaderSize) then none
          else if type = RecordType.first.code ∨ type = RecordType.middle.code then
            behind.getNext files (offset + size)
          else if type = RecordType.full.code ∨ type = RecordType.last.code ∨
              type = RecordType.badRecord.code then
            some (offset + size, behind)
          else none := by
  obtain ⟨statusEq, headerEq, headed, headedFile⟩ := facing.read kHeaderSize
  obtain ⟨-, -, behind, behindFile⟩ := headed.read (headerLength (bytes.take kHeaderSize))
  rw [List.drop_drop] at behind
  refine ⟨_, behind, behindFile.trans headedFile, ?_⟩
  rw [Reader.getNext]
  simp only [statusEq, headerEq]
  by_cases short : bytes.length < kHeaderSize
  · simp [short]
  · simp only [short, if_false, if_true]
    -- A type is closing or continuing, never both.
    split_ifs <;> simp_all [RecordType.code]

/-- `GetNext` is a function of the unread bytes. -/
theorem Facing.getNext (offset : Nat) :
    match announced bytes with
    | none => reader.getNext files offset = none
    | some item =>
      ∃ next, reader.getNext files offset = some (offset + item.1, next) ∧
        Facing files next inBlock item.2 ∧
        next.curFilenum = reader.curFilenum := by
  -- Induction on the unread bytes, as an item goes on behind its first header.
  induction remaining : bytes.length using Nat.strongRecOn generalizing reader bytes offset with
  | ind count ih =>
    obtain ⟨behind, facingBehind, behindFile, getNextEq⟩ := facing.getNext_header offset
    rw [announced]
    simp only at getNextEq ⊢
    split_ifs at getNextEq ⊢ with short oversized continues closing
    · exact getNextEq
    · exact getNextEq
    · have fewer : (bytes.drop (kHeaderSize +
          headerLength (bytes.take kHeaderSize))).length < count := by
        simp only [List.length_drop, kHeaderSize] at short ⊢
        omega
      have rest := ih _ fewer facingBehind
        (offset + (kHeaderSize + headerLength (bytes.take kHeaderSize)))
        rfl
      rw [getNextEq, ← behindFile]
      cases found : announced (bytes.drop (kHeaderSize +
          headerLength (bytes.take kHeaderSize))) with
      | none =>
        rw [found] at rest
        exact rest
      | some item => simpa only [found, Option.map_some, Nat.add_assoc] using rest
    · exact ⟨behind, getNextEq, facingBehind, behindFile⟩
    · exact getNextEq

theorem Facing.getNext_of_announced (found : announced bytes = some (size, rest)) :
    ∃ next, reader.getNext files 0 = some (size, next) ∧ Facing files next inBlock rest ∧
      next.curFilenum = reader.curFilenum := by
  have announces := facing.getNext 0
  simpa only [found, Nat.zero_add] using announces

/-- `Seek` fails when the walk ends before the place it looks for. -/
theorem Facing.seekLoop_of_short (startBlock : Nat)
    (short : ∀ count, Stops bytes count → res + count < place) :
    reader.seekLoop files startBlock place res = none := by
  fun_induction seekLoop files startBlock place res reader generalizing bytes with
  | case1 res reader reached =>
    have before := short 0 .start
    omega
  | case2 => rfl
  | case3 res reader ahead next found ih =>
    cases item : announced bytes with
    | none =>
      have failed := facing.getNext 0
      simp [item, found] at failed
    | some item =>
      obtain ⟨after, returned, facingAfter, -⟩ := facing.getNext_of_announced item
      cases found.symm.trans returned
      apply ih facingAfter
      intro count stops
      rw [Nat.add_assoc]
      exact short _ (.item ‹_› stops)

end

theorem seekLoop_of_getNext (ahead : ¬place ≤ res)
    (found : reader.getNext files 0 = some (size, next)) :
    reader.seekLoop files startBlock place res =
      next.seekLoop files startBlock place (res + size) := by
  rw [seekLoop, if_neg ahead]
  split
  · rename_i missing
    cases found.symm.trans missing
  · rename_i same
    cases found.symm.trans same
    rfl

/-- `Seek` lands on the first stop at or behind the place it looks for. -/
theorem Facing.seekLoop_of_stop (facing : Facing files reader inBlock bytes)
    (startBlock : Nat) (stops : Stops bytes count) (reached : place ≤ res + count) :
    ∃ landing next, Stops bytes landing ∧ place ≤ res + landing ∧ landing ≤ count ∧
        reader.seekLoop files startBlock place res = some next ∧
        next.curOffset = startBlock + (res + landing) ∧
        next.curFilenum = reader.curFilenum := by
  induction stops generalizing reader res with
  | start =>
    rw [seekLoop, if_pos (show place ≤ res from reached)]
    exact ⟨0, _, .start, reached, le_rfl, rfl, rfl, rfl⟩
  | item found _ ih =>
    by_cases here : place ≤ res
    · rw [seekLoop, if_pos here]
      exact ⟨0, _, .start, here, Nat.zero_le _, rfl, rfl, rfl⟩
    · obtain ⟨after, returned, facingAfter, sameFile⟩ := facing.getNext_of_announced found
      obtain ⟨landing, next, tail, behind, first, sought, offsetEq,
        fileEq⟩ := ih facingAfter (Nat.add_assoc .. ▸ reached)
      rw [Nat.add_assoc] at behind offsetEq
      exact ⟨_, next, .item found tail, behind, Nat.add_le_add_left first _,
        (seekLoop_of_getNext here returned).trans sought, offsetEq, fileEq.trans sameFile⟩

/-! ## `Seek` in a file -/

/-- The bytes of a file from the start of the block of an offset on. -/
def blockBytes (files : Files) (filenum offset : Nat) : Bytes :=
  (files.contents filenum).drop (offset / kBlockSize * kBlockSize)

section

variable {log : Binlog} (present : log.files.fileExists filenum = true)
include present

theorem seek_of_present (offset : Nat) :
    ∃ opened : Reader, opened.curFilenum = filenum ∧
        Facing log.files opened (filenum % kBlockSize) (blockBytes log.files filenum offset) ∧
        seek log filenum offset = opened.seekLoop log.files (offset / kBlockSize * kBlockSize)
            (offset % kBlockSize) 0 := by
  rw [seek, if_pos present]
  refine ⟨_, rfl, ⟨rfl, _, rfl, ?_⟩, rfl⟩
  simp [SequentialFile.skip, SequentialFile.rest, blockBytes, List.drop_eq_drop_iff]

/-- `GetReaderStatus` of a new reader after a `Seek`, whatever the `Seek`
returned.  A `Seek` that fails inside the file has stored the offset it was
asked for. -/
def seekedOffset (log : Pika.Binlog) (filenum offset : Nat) : BinlogOffset :=
  match seek log filenum offset with
  | some reader => { filenum := reader.curFilenum, offset := reader.curOffset }
  | none =>
    if log.files.fileExists filenum then { filenum := filenum, offset := offset }
    else { filenum := unseeked.curFilenum, offset := unseeked.curOffset }

theorem seekedOffset_of_stop (stops : Stops (blockBytes log.files filenum offset) count)
    (reached : offset % kBlockSize ≤ count) :
    ∃ landing, Stops (blockBytes log.files filenum offset) landing ∧
        offset % kBlockSize ≤ landing ∧ landing ≤ count ∧
        seekedOffset log filenum offset =
          { filenum := filenum, offset := offset / kBlockSize * kBlockSize + landing } := by
  obtain ⟨opened, sameFile, facing, seekEq⟩ := seek_of_present present offset
  obtain ⟨landing, next, landed, behind, first, sought, offsetEq, fileEq⟩ :=
    facing.seekLoop_of_stop (offset / kBlockSize * kBlockSize) stops
      ((Nat.zero_add count).symm ▸ reached)
  rw [Nat.zero_add] at behind offsetEq
  refine ⟨landing, landed, behind, first, ?_⟩
  simp only [seekedOffset, seekEq, sought, fileEq, sameFile, offsetEq]

theorem seekedOffset_of_short (short : ∀ count, Stops (blockBytes log.files filenum offset) count →
      count < offset % kBlockSize) :
    seekedOffset log filenum offset = { filenum := filenum, offset := offset } := by
  obtain ⟨opened, -, facing, seekEq⟩ := seek_of_present present offset
  have failed := facing.seekLoop_of_short (offset / kBlockSize * kBlockSize)
    fun count stops => (Nat.zero_add count).symm ▸ short count stops
  simp only [seekedOffset, seekEq, failed, present, if_true]

/-- In an existing file, a `Seek` leaves the reader at the offset it was asked
for unless its walk passes over that offset. -/
theorem seekedOffset_eq_iff :
    seekedOffset log filenum offset = { filenum := filenum, offset := offset } ↔
      ¬PassesOver (blockBytes log.files filenum offset) (offset % kBlockSize) := by
  have total := Nat.div_add_mod' offset kBlockSize
  constructor
  · rintro same ⟨missed, count, stops, far⟩
    obtain ⟨landing, landed, -, -, seeked⟩ := seekedOffset_of_stop present stops far.le
    rw [same, BinlogOffset.mk.injEq] at seeked
    have here : landing = offset % kBlockSize := by omega
    exact missed (here ▸ landed)
  · intro notPassed
    by_cases stopped : Stops (blockBytes log.files filenum offset) (offset % kBlockSize)
    · obtain ⟨landing, -, behind, first, seeked⟩ := seekedOffset_of_stop present stopped le_rfl
      rw [seeked, Nat.le_antisymm first behind, total]
    · apply seekedOffset_of_short present
      intro count stops
      by_contra far
      apply notPassed
      refine ⟨stopped, count, stops, Nat.lt_of_le_of_ne ?_ ?_⟩
      · exact Nat.le_of_not_lt far
      · rintro rfl
        exact stopped stops

end

end Reader
end Pika.Binlog
