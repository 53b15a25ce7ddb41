import Pika.Binlog.Consume

/-!
# Seeking follows the layout

`Seek` walks the records of the last block before a position.  A file written
by `Put` or by `AppendPadding` holds, from the start of its last block to its
end, only records that end a walk step, so the walk stops exactly there.
-/

namespace Pika.Binlog

open List

/-- Record types at which `GetNext` stops. -/
def RecordType.Closing (type : RecordType) : Prop :=
  type = .full ∨ type = .last ∨ type = .badRecord

/-- A run of records at each of which `GetNext` stops. -/
inductive Walk : Bytes → Prop where
  | nil : Walk []
  | cons {type : RecordType} {payload rest : Bytes} (closing : type.Closing)
      (bounded : payload.length ≤ kBlockSize - kHeaderSize)
      (now : Nat)
      (tail : Walk rest) :
      Walk (header type payload.length now ++ payload ++ rest)

theorem Walk.append (firstWalk : Walk first) (secondWalk : Walk second) :
    Walk (first ++ second) := by
  induction firstWalk with
  | nil => exact secondWalk
  | cons closing bounded now _ ih =>
    rw [append_assoc]
    exact .cons closing bounded now ih

/-- The last block of a file prefix can be walked to its end. -/
def Seekable (contents : Bytes) : Prop :=
  Walk (contents.drop (contents.length / kBlockSize * kBlockSize))

theorem seekable_of_blockStart (blockStart : contents.length % kBlockSize = 0) :
    Seekable contents := by
  have whole : contents.length / kBlockSize * kBlockSize = contents.length := by
    simp only [kBlockSize] at blockStart ⊢
    omega
  rw [Seekable, whole, drop_length]
  exact .nil

/-- Appending padding of the layout and a closing record keeps a file
seekable. -/
theorem Seekable.append_record (seekable : Seekable contents)
    (closing : type.Closing) (fits : payload.length ≤ roomAt contents.length) :
    Seekable (contents ++ (List.replicate (padAt contents.length) 0 ++
      (header type payload.length now ++ payload))) := by
  have place := padAt_roomAt_cases contents.length
  have recordWalk : Walk (header type payload.length now ++ payload) := by
    have := Walk.cons closing (fits.trans (roomAt_le _)) now .nil
    rwa [append_nil] at this
  have lengthEq : (contents ++ (List.replicate (padAt contents.length) 0 ++
      (header type payload.length now ++ payload))).length =
      contents.length + (padAt contents.length + (kHeaderSize + payload.length)) := by
    simp
  by_cases blockEnd : (contents.length + (padAt contents.length +
      (kHeaderSize + payload.length))) % kBlockSize = 0
  · exact seekable_of_blockStart (lengthEq ▸ blockEnd)
  · rw [Seekable, lengthEq]
    simp only [kBlockSize, kHeaderSize] at blockEnd ⊢
    rcases place with ⟨inside, pad, room⟩ | ⟨tail, pad, room⟩
    · have sameBlock : (contents.length + (padAt contents.length +
          (8 + payload.length))) / 65536 * 65536 = contents.length / 65536 * 65536 := by
        omega
      rw [sameBlock, pad, drop_append_of_le_length (by omega)]
      exact seekable.append recordWalk
    · have nextBlock : (contents.length + (padAt contents.length +
          (8 + payload.length))) / 65536 * 65536 =
          (contents ++ List.replicate (padAt contents.length) 0).length := by
        simp only [length_append, length_replicate]
        omega
      rw [nextBlock, ← append_assoc, drop_left]
      exact recordWalk

/-- Appending the fragments of an item keeps a file seekable. -/
theorem Seekable.append_fragments (now : Nat → Nat) (offset : Nat)
    (isBegin : Bool) (left : Bytes) (seekable : Seekable contents)
    (lengthEq : contents.length = offset) :
    Seekable (contents ++ (fragments now offset isBegin left).flatMap Fragment.bytes) := by
  fun_induction fragments now offset isBegin left generalizing contents with
  | case1 now offset isBegin left longer ih =>
    have grown : (contents ++ (nextFragment (now 0) offset isBegin left).bytes).length =
        offset + (padAt offset + (kHeaderSize + roomAt offset)) := by
      simp [Fragment.size, nextFragment, longer.le, lengthEq]
    rw [flatMap_cons, ← append_assoc]
    refine ih (seekable_of_blockStart ?_) grown
    rw [grown]
    exact blockStart_after_full offset
  | case2 now offset isBegin left fits =>
    subst lengthEq
    have fits := Nat.le_of_not_lt fits
    have closing : (nextFragment (now 0) contents.length isBegin
        left).type.Closing := by
      cases isBegin <;> simp [nextFragment, RecordType.ofPlace, RecordType.Closing, fits]
    rw [flatMap_singleton]
    exact seekable.append_record closing (length_take_le _ _)

theorem Seekable.append_frame (seekable : Seekable contents) (now : Nat → Nat) (item : Bytes) :
    Seekable (contents ++ frame now contents.length item) :=
  seekable.append_fragments now contents.length true item rfl

namespace Reader

variable {files : Files} {reader : Reader}

theorem getNext_of_closing (opened : reader.queue = some { number := filenum, position := offset })
    (closing : type.Closing)
    (bounded : payload.length ≤ kBlockSize - kHeaderSize)
    (split : (files.contents filenum).drop offset =
      header type payload.length now ++ (payload ++ rest)) :
    reader.getNext files 0 = some (kHeaderSize + payload.length,
        { reader with
          queue := some
            { number := filenum, position := offset + (kHeaderSize + payload.length) } }) := by
  have headerRead := read_of_drop opened split
  have payloadSplit := drop_add_of_drop_eq split
  rw [length_header] at headerRead payloadSplit
  have payloadRead : (reader.read files kHeaderSize).2.2.read files payload.length = _ :=
    read_of_drop (by rw [headerRead]) payloadSplit
  have lengthEq : headerLength (header type payload.length now) = payload.length :=
    headerLength_header type now (by simp only [kBlockSize, kHeaderSize] at bounded; omega)
  rw [headerRead] at payloadRead
  rw [getNext]
  simp only [headerRead, lengthEq, headerType_header, payloadRead]
  rcases closing with rfl | rfl | rfl <;>
    simp [RecordType.code, Nat.not_lt.mpr bounded, Nat.add_assoc]

/-- The walk of `Seek` over closing records ends at their end. -/
theorem seekLoop_of_walk (startBlock res : Nat) (walk : Walk walked)
    (sameFile : reader.curFilenum = filenum) (opened : reader.queue =
      some { number := filenum, position := startBlock + res })
    (split : (files.contents filenum).drop (startBlock + res) = walked ++ rest) :
    reader.seekLoop files startBlock (res + walked.length) res =
      some (positioned filenum (startBlock + (res + walked.length))) := by
  induction walk generalizing reader res with
  | nil =>
    rw [seekLoop, if_pos (by simp)]
    simp [positioned, sameFile, opened]
  | @cons type payload tail closing bounded now _ ih =>
    rw [append_assoc, append_assoc] at split
    have nextEq := getNext_of_closing opened closing bounded split
    have tailSplit := drop_add_of_drop_eq (append_assoc .. ▸ split)
    rw [length_append, length_header, Nat.add_assoc] at tailSplit
    have total : res + (header type payload.length now ++ payload ++ tail).length =
        res + (kHeaderSize + payload.length) + tail.length := by
      simp [Nat.add_assoc]
    rw [seekLoop, if_neg (by simp [kHeaderSize])]
    split
    · simp_all
    · rename_i next found
      rw [nextEq] at found
      rw [total, ← Option.some.inj found]
      exact ih _ sameFile (by rw [Nat.add_assoc]) tailSplit

/-- `Seek` to the end of a seekable prefix of a file succeeds and leaves the
reader exactly there. -/
theorem seek_of_seekable (seekable : Seekable contents)
    (present : log.files.fileExists filenum = true)
    (split : log.files.contents filenum = contents ++ rest) :
    seek log filenum contents.length = some (positioned filenum contents.length) := by
  have startLe : contents.length / kBlockSize * kBlockSize ≤ contents.length :=
    Nat.div_mul_le_self _ _
  have walkedLength : (contents.drop (contents.length / kBlockSize * kBlockSize)).length =
      contents.length % kBlockSize := by
    rw [length_drop]
    simp only [kBlockSize]
    omega
  have total : contents.length / kBlockSize * kBlockSize +
      contents.length % kBlockSize = contents.length :=
    Nat.div_add_mod' _ _
  have enough : 0 + contents.length / kBlockSize * kBlockSize ≤
      (log.files.contents filenum).length := by
    rw [split, length_append]
    omega
  rw [seek, if_pos present]
  simp only
  rw [skip_of_le rfl enough]
  rw [← walkedLength, ← Nat.zero_add (List.length (contents.drop _)),
    seekLoop_of_walk _ 0 seekable rfl (by rw [Nat.zero_add, Nat.add_zero])
      (by rw [Nat.add_zero, split, drop_append_of_le_length startLe]), walkedLength]
  simp only [Nat.zero_add, total]

end Reader

end Pika.Binlog
