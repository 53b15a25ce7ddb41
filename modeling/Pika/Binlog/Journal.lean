import Pika.Binlog.Chain
import Pika.Binlog.Produce

/-!
# What the writer keeps true

An aligned writer publishes the size of its current file and has the matching
block offset.  A journal is an aligned writer whose files hold a chain of
records up to the published position; a `Put` whose end fits the position's
integer types extends it by one record.
-/

namespace Pika.Binlog

open Foundation

/-- The published position, whether or not the log is open. -/
def position (log : Binlog) : BinlogOffset :=
  { filenum := log.version.proNum, offset := log.version.proOffset }

@[simp] theorem position_filenum (log : Binlog) : log.position.filenum = log.version.proNum := rfl

@[simp] theorem position_offset (log : Binlog) :
    log.position.offset = log.version.proOffset := rfl

theorem position_eq {log : Binlog} {place : BinlogOffset}
    (number : log.version.proNum = place.filenum) (offset : log.version.proOffset = place.offset) :
    log.position = place := by
  rw [position, number, offset]

/-- The position from which an item is written: the next file once the current
one is larger than the threshold. -/
def BinlogOffset.writeFrom (position : BinlogOffset) (fileSize : Nat) : BinlogOffset :=
  if fileSize < position.offset then position.nextFile else position

theorem BinlogOffset.writeFrom_of_lt {position : BinlogOffset} {fileSize : Nat}
    (full : fileSize < position.offset) :
    position.writeFrom fileSize = position.nextFile :=
  if_pos full

theorem BinlogOffset.writeFrom_of_not_lt {position : BinlogOffset}
    {fileSize : Nat} (roomy : ¬fileSize < position.offset) :
    position.writeFrom fileSize = position :=
  if_neg roomy

/-- The position behind an item of `length` bytes, in unbounded numbers. -/
def BinlogOffset.place (position : BinlogOffset) (fileSize length : Nat) : BinlogOffset :=
  (position.writeFrom fileSize).afterItem length

@[simp] theorem BinlogOffset.place_filenum (position : BinlogOffset) (fileSize length : Nat) :
    (position.place fileSize length).filenum = (position.writeFrom fileSize).filenum := by
  rw [place, afterItem_filenum]

@[simp] theorem BinlogOffset.place_offset (position : BinlogOffset) (fileSize length : Nat) :
    (position.place fileSize length).offset =
      recordEnd (position.writeFrom fileSize).offset length := by
  rw [place, afterItem_offset]

/-- A record ends behind the position before it. -/
theorem BinlogOffset.lt_place (position : BinlogOffset) (fileSize length : Nat) :
    position < position.place fileSize length := by
  have written := (position.writeFrom fileSize).lt_afterItem length
  rw [place]
  unfold writeFrom at written ⊢
  split_ifs at written ⊢
  · exact BinlogOffset.lt_trans position.lt_nextFile written
  · exact written

/-- The published integers hold the position: the offset goes through an `int`
and the file number through 32 unsigned bits. -/
def BinlogOffset.Fits (position : BinlogOffset) : Prop :=
  position.filenum < 2 ^ 32 ∧ position.offset < 2 ^ 31

instance (position : BinlogOffset) : Decidable position.Fits :=
  inferInstanceAs (Decidable (_ ∧ _))

/-- The offset comes back unchanged from the `int` it is published through. -/
def BinlogOffset.Kept (position : BinlogOffset) : Prop :=
  castUInt64 (castInt32 position.offset) = position.offset

instance (position : BinlogOffset) : Decidable position.Kept :=
  inferInstanceAs (Decidable (_ = _))

theorem BinlogOffset.Kept.offset_eq {position : BinlogOffset} (kept : position.Kept) :
    castUInt64 (castInt32 position.offset) = position.offset :=
  kept

theorem BinlogOffset.Fits.kept {position : BinlogOffset} (fits : position.Fits) : position.Kept :=
  (castUInt64_castInt32_eq_iff (fits.2.trans (by decide))).mpr fits.2

theorem BinlogOffset.Fits.number {position : BinlogOffset}
    {fileSize length : Nat} (fits : (position.place fileSize length).Fits) :
    (position.writeFrom fileSize).filenum < 2 ^ 32 := by
  have bounded := fits.1
  rwa [place_filenum] at bounded

/-- The writer's numbers agree with the size of the file it writes. -/
structure Aligned (log : Binlog) : Prop where
  opened : log.opened = true
  proNum_eq : log.version.proNum = log.proNum
  fileExists : log.files.fileExists log.proNum = true
  size_eq : (log.files.contents log.proNum).length = log.version.proOffset
  blockAt : BlockAt log.blockOffset log.version.proOffset

theorem Aligned.getProducerStatus_eq {log : Binlog} (aligned : log.Aligned) :
    log.getProducerStatus = some log.position := by
  simp [getProducerStatus, aligned.opened, position]

theorem aligned_fresh (fileSize term : Nat) : (fresh fileSize term).Aligned where
  opened := rfl
  proNum_eq := rfl
  fileExists := rfl
  size_eq := rfl
  blockAt := BlockAt.of_mod 0

/-! ## Rolling -/

theorem aligned_roll (log : Binlog) : log.roll.Aligned where
  opened := rfl
  proNum_eq := rfl
  fileExists := by simp [roll, initLogFile, publishRoll, createNextFile]
  size_eq := by simp [roll, initLogFile, publishRoll, createNextFile]
  blockAt := by
    simp only [roll, initLogFile, publishRoll, createNextFile,
      Files.contents_newWritableFile_self, List.length_nil]
    exact BlockAt.of_mod 0

variable {log : Binlog}

theorem Aligned.checkRoll (aligned : log.Aligned) : log.checkRoll.Aligned := by
  unfold Binlog.checkRoll
  split_ifs
  · exact aligned_roll log
  · exact aligned

@[simp] theorem checkRoll_fileSize (log : Binlog) : log.checkRoll.fileSize = log.fileSize := by
  unfold checkRoll
  split_ifs <;> rfl

/-- The position from which the next item is written, while file numbers do
not wrap. -/
theorem Aligned.position_checkRoll (aligned : log.Aligned)
    (bounded : (log.position.writeFrom log.fileSize).filenum < 2 ^ 32) :
    log.checkRoll.position = log.position.writeFrom log.fileSize := by
  by_cases full : log.fileSize < log.version.proOffset
  · have fromNext : log.position.writeFrom log.fileSize = log.position.nextFile := if_pos full
    have rolled : log.checkRoll = log.roll := if_pos (aligned.size_eq.symm ▸ full)
    rw [fromNext, BinlogOffset.nextFile_filenum, position_filenum] at bounded
    have number : castUInt32 ((log.proNum : Int) + 1) = log.version.proNum + 1 := by
      rw [← aligned.proNum_eq, castUInt32_succ bounded]
    rw [fromNext, rolled]
    simp [position, roll, initLogFile, publishRoll, createNextFile, BinlogOffset.nextFile, number]
  · have fromHere : log.position.writeFrom log.fileSize = log.position := if_neg full
    have stayed : log.checkRoll = log := if_neg (aligned.size_eq.symm ▸ full)
    rw [fromHere, stayed]

/-! ## Appending -/

theorem Files.append_append (files : Files) (number : Nat) (first second : Bytes) :
    (files.append number first).append number second = files.append number (first ++ second) := by
  funext other
  by_cases same : other = number <;> simp [Files.append, Files.contents, same]

theorem foldl_appendQueue (log : Binlog) (first : Bytes) (slices : List Bytes) :
    slices.foldl appendQueue (log.appendQueue first) =
      log.appendQueue (first ++ slices.flatten) := by
  induction slices generalizing first with
  | nil => simp
  | cons slice slices ih =>
    have merged : (log.appendQueue first).appendQueue slice = log.appendQueue (first ++ slice) := by
      simp [appendQueue, Files.append_append]
    rw [List.foldl_cons, merged, ih, List.flatten_cons, List.append_assoc]

theorem appendQueue_nil (present : log.files.fileExists log.proNum = true) :
    log.appendQueue [] = log := by
  rw [appendQueue, Files.append_nil present]

theorem foldl_appendQueue_of_present (present : log.files.fileExists log.proNum = true)
    (slices : List Bytes) :
    slices.foldl appendQueue log = log.appendQueue slices.flatten := by
  have folded := foldl_appendQueue log [] slices
  rwa [appendQueue_nil present, List.nil_append] at folded

/-- The slices of an item's fragments make up its frame. -/
theorem flatten_flatMap_appends (now : Nat → Nat) (offset : Nat) (item : Bytes) :
    ((fragments now offset true item).flatMap Fragment.appends).flatten =
      frame now offset item := by
  rw [frame, ← List.flatMap_id, List.flatMap_assoc]
  simp

/-- What `Put` of a slice does where `offset` stands for the file's end: the
frame of the item goes to the current file, and its end is published through
an `int`. -/
structure PutEffect (log next : Binlog) (now : Nat → Nat) (item : Bytes)
    (offset : Nat) : Prop where
  opened_eq : next.opened = log.opened
  fileSize_eq : next.fileSize = log.fileSize
  proNum_eq : next.proNum = log.proNum
  version_proNum_eq : next.version.proNum = log.version.proNum
  files_eq : next.files = log.files.append log.proNum (frame now offset item)
  proOffset_eq : next.version.proOffset = castUInt64 (castInt32 (recordEnd offset item.length))
  blockAt : BlockAt next.blockOffset (recordEnd offset item.length)

/-- `Put` of a slice where `offset` stands for the block offset: the frame of
the item is appended, and its size is added to the published offset. -/
theorem putSlice_frame (placed : BlockAt log.checkRoll.blockOffset offset)
    (now : Nat → Nat) (item : Bytes) :
    ∃ produced : ProduceState, log.putSlice now item =
          (log.checkRoll.appendQueue (frame now offset item)).publishPut produced ∧
        BlockAt produced.blockOffset (recordEnd offset item.length) ∧
        produced.tempProOffset = castInt32 (log.checkRoll.version.proOffset +
            (recordEnd offset item.length - offset : Nat)) := by
  rw [putSlice]
  generalize log.checkRoll = base at placed ⊢
  obtain ⟨appendsEq, blockAt, offsetEq⟩ := produceLoop_spec now offset true item
      { appends := []
        blockOffset := base.blockOffset
        tempProOffset := castInt32 base.version.proOffset
        left := item
        isBegin := true }
      placed rfl rfl
  simp only [castInt32_castInt32_add] at offsetEq
  have filesEq : (base.produce now item).appends.foldl appendQueue base =
      base.appendQueue (frame now offset item) := by
    rw [produce, appendsEq, List.nil_append, ← flatten_flatMap_appends]
    cases sliced : (fragments now offset true item).flatMap Fragment.appends with
    | nil =>
      rw [fragments] at sliced
      split_ifs at sliced <;> simp [Fragment.appends] at sliced
    | cons first slices => rw [List.foldl_cons, foldl_appendQueue, List.flatten_cons]
  refine ⟨base.produce now item, ?_, blockAt, ?_⟩
  · simp only [filesEq]
  · rw [produce]
    exact offsetEq

/-- `Put` needs its block offset and the low 32 bits of the published offset
to agree with the file, and no more. -/
theorem putSlice_effect (placed : BlockAt log.checkRoll.blockOffset offset)
    (low : castInt32 log.checkRoll.version.proOffset = castInt32 offset)
    (now : Nat → Nat) (item : Bytes) :
    log.checkRoll.PutEffect (log.putSlice now item) now item offset := by
  obtain ⟨produced, putEq, blockAt, endOffset⟩ := putSlice_frame placed now item
  have grows := add_length_lt_recordEnd offset item.length
  have endEq : (offset : Int) + (recordEnd offset item.length - offset : Nat) =
      recordEnd offset item.length := by
    omega
  rw [← castInt32_castInt32_add, low, castInt32_castInt32_add, endEq] at endOffset
  rw [putEq]
  exact
    { opened_eq := rfl
      fileSize_eq := rfl
      proNum_eq := rfl
      version_proNum_eq := rfl
      files_eq := rfl
      proOffset_eq := congrArg castUInt64 endOffset
      blockAt := blockAt }

theorem Aligned.putSlice_effect (aligned : log.Aligned) (now : Nat → Nat) (item : Bytes) :
    log.checkRoll.PutEffect (log.putSlice now item) now item log.checkRoll.version.proOffset :=
  Binlog.putSlice_effect aligned.checkRoll.blockAt rfl now item

theorem putSlice_opened (now : Nat → Nat) (item : Bytes) (opened : log.opened = true) :
    (log.putSlice now item).opened = true := by
  have kept : ∀ (slices : List Bytes) (base : Binlog),
      (slices.foldl appendQueue base).opened = base.opened := by
    intro slices base
    induction slices generalizing base with
    | nil => rfl
    | cons slice slices ih => exact ih (base.appendQueue slice)
  have rolled : log.checkRoll.opened = true := by
    unfold checkRoll
    split_ifs
    · rfl
    · exact opened
  exact (kept _ _).trans rolled

theorem Aligned.proOffset_checkRoll (aligned : log.Aligned) :
    log.checkRoll.version.proOffset = (log.position.writeFrom log.fileSize).offset := by
  by_cases full : log.fileSize < log.version.proOffset
  · have rolled : log.checkRoll = log.roll := if_pos (aligned.size_eq.symm ▸ full)
    have fromNext : log.position.writeFrom log.fileSize = log.position.nextFile := if_pos full
    rw [rolled, fromNext]
    rfl
  · have stayed : log.checkRoll = log := if_neg (aligned.size_eq.symm ▸ full)
    have fromHere : log.position.writeFrom log.fileSize = log.position := if_neg full
    rw [stayed, fromHere, position_offset]

/-- After a `Put` the file ends with the item, whatever is published. -/
theorem Aligned.size_putSlice (aligned : log.Aligned) (now : Nat → Nat) (item : Bytes) :
    ((log.putSlice now item).files.contents (log.putSlice now item).proNum).length =
      (log.position.place log.fileSize item.length).offset := by
  have effect := aligned.putSlice_effect now item
  rw [BinlogOffset.place_offset, ← aligned.proOffset_checkRoll,
    effect.files_eq, effect.proNum_eq, Files.contents_append_self,
    List.length_append, aligned.checkRoll.size_eq, add_length_frame]

/-- A `Put` publishes the end of its item through an `int`. -/
theorem Aligned.proOffset_putSlice (aligned : log.Aligned) (now : Nat → Nat) (item : Bytes) :
    (log.putSlice now item).version.proOffset = castUInt64 (castInt32
        (log.position.place log.fileSize item.length).offset) := by
  rw [(aligned.putSlice_effect now item).proOffset_eq,
    BinlogOffset.place_offset, aligned.proOffset_checkRoll]

theorem Aligned.aligned_putSlice (aligned : log.Aligned) (now : Nat → Nat)
    (item : Bytes) (kept : (log.position.place log.fileSize item.length).Kept) :
    (log.putSlice now item).Aligned := by
  have effect := aligned.putSlice_effect now item
  have rolled := aligned.checkRoll
  have endEq : (log.putSlice now item).version.proOffset =
      (log.position.place log.fileSize item.length).offset :=
    (aligned.proOffset_putSlice now item).trans kept.offset_eq
  refine ⟨?_, ?_, ?_, ?_, ?_⟩
  · rw [effect.opened_eq, rolled.opened]
  · rw [effect.version_proNum_eq, effect.proNum_eq, rolled.proNum_eq]
  · simp [effect.files_eq, effect.proNum_eq]
  · rw [aligned.size_putSlice, endEq]
  · rw [endEq, BinlogOffset.place_offset, ← aligned.proOffset_checkRoll]
    exact effect.blockAt

theorem Aligned.putSlice (aligned : log.Aligned) (now : Nat → Nat) (item : Bytes)
    (numberFits : (log.position.writeFrom log.fileSize).filenum < 2 ^ 32)
    (kept : (log.position.place log.fileSize item.length).Kept) :
    (log.putSlice now item).Aligned ∧ (log.putSlice now item).position =
        log.position.place log.fileSize item.length := by
  refine ⟨aligned.aligned_putSlice now item kept, ?_⟩
  have number : (log.putSlice now item).version.proNum =
      (log.position.place log.fileSize item.length).filenum := by
    rw [(aligned.putSlice_effect now item).version_proNum_eq, ← position_filenum,
      aligned.position_checkRoll numberFits, BinlogOffset.place_filenum]
  exact position_eq number ((aligned.proOffset_putSlice now item).trans kept.offset_eq)

/-! ## Journals -/

/-- An aligned writer whose files hold the records from a start position to
the published one. -/
structure Journal (log : Binlog) (start : BinlogOffset) (records : List Record) : Prop where
  aligned : log.Aligned
  chain : Chain log.files start records log.position

theorem journal_fresh (fileSize term : Nat) :
    (fresh fileSize term).Journal { filenum := 0, offset := 0 } [] where
  aligned := aligned_fresh fileSize term
  chain := .done
    { fileExists := rfl, offset_le := Nat.zero_le _, seekable := seekable_of_blockStart rfl }

/-- The file written by a journal is seekable to its end. -/
theorem Journal.seekable_current (journal : log.Journal start records) :
    Seekable (log.files.contents log.proNum) := by
  have marked := journal.chain.marked_stop
  have numberEq := journal.aligned.proNum_eq
  have seekable := marked.seekable
  rwa [position_filenum, position_offset, numberEq, ← journal.aligned.size_eq,
    List.take_length] at seekable

theorem Aligned.proNum_roll (aligned : log.Aligned) (full : log.fileSize < log.version.proOffset)
    (numberFits : (log.position.writeFrom log.fileSize).filenum < 2 ^ 32) :
    log.checkRoll = log.roll ∧ log.roll.position = log.position.nextFile ∧
      log.roll.proNum = log.proNum + 1 := by
  have rolled : log.checkRoll = log.roll := if_pos (aligned.size_eq.symm ▸ full)
  have nextFile : log.roll.position = log.position.nextFile := by
    rw [← rolled, aligned.position_checkRoll numberFits]
    exact if_pos full
  refine ⟨rolled, nextFile, ?_⟩
  have := congrArg BinlogOffset.filenum nextFile
  rwa [position_filenum, (aligned_roll log).proNum_eq,
    BinlogOffset.nextFile_filenum, position_filenum, aligned.proNum_eq] at this

/-- A `Put` that rolls leaves the files in front alone. -/
theorem Aligned.agree_putSlice (aligned : log.Aligned) (now : Nat → Nat) (item : Bytes)
    (full : log.fileSize < log.version.proOffset)
    (numberFits : (log.position.writeFrom log.fileSize).filenum < 2 ^ 32)
    (bounded : number ≤ log.proNum) :
    (log.putSlice now item).files number = log.files number := by
  obtain ⟨rolled, -, rollNumber⟩ := aligned.proNum_roll full numberFits
  have rollFiles : log.roll.files = log.files.newWritableFile log.roll.proNum := rfl
  rw [(aligned.putSlice_effect now item).files_eq, rolled, rollFiles, rollNumber]
  simp [Files.append, Files.newWritableFile, show number ≠ log.proNum + 1 by omega]

theorem Aligned.grows_putSlice (aligned : log.Aligned) (now : Nat → Nat) (item : Bytes)
    (numberFits : (log.position.writeFrom log.fileSize).filenum < 2 ^ 32) :
    log.files.Grows (log.putSlice now item).files log.proNum := by
  by_cases full : log.fileSize < log.version.proOffset
  · exact .of_agree fun _ bounded => aligned.agree_putSlice now item full numberFits bounded
  · have stayed : log.checkRoll = log := if_neg (aligned.size_eq.symm ▸ full)
    rw [(aligned.putSlice_effect now item).files_eq, stayed]
    exact .append log.files log.proNum _

theorem Aligned.fileExists_putSlice (aligned : log.Aligned) (now : Nat → Nat) (item : Bytes)
    (number : Nat) :
    (log.putSlice now item).files.fileExists number =
      (decide (number = (log.putSlice now item).proNum) || log.files.fileExists number) := by
  have effect := aligned.putSlice_effect now item
  rw [effect.files_eq, effect.proNum_eq, Files.fileExists_append, Binlog.checkRoll]
  split_ifs
  · simp [roll, initLogFile, publishRoll, createNextFile]
  · rfl

/-- A `Put` that does not wrap the file number adds its record to the files,
whatever offset it publishes. -/
theorem Journal.chain_putSlice (journal : log.Journal start records)
    (now : Nat → Nat) (nonempty : item ≠ [])
    (numberFits : (log.position.writeFrom log.fileSize).filenum < 2 ^ 32) :
    Chain (log.putSlice now item).files start
      (records ++ [{ item := item, position := log.position.place log.fileSize item.length }])
      (log.position.place log.fileSize item.length) := by
  obtain ⟨aligned, chain⟩ := journal
  have effect := aligned.putSlice_effect now item
  have fromEq := aligned.position_checkRoll numberFits
  have numberEq := aligned.proNum_eq
  have grows := aligned.grows_putSlice now item numberFits
  have kept : Chain (log.putSlice now item).files start records log.position :=
    chain.mono (by rwa [position_filenum, numberEq])
  rw [BinlogOffset.place, ← fromEq]
  by_cases full : log.fileSize < log.version.proOffset
  · obtain ⟨rolled, nextFile, rollNumber⟩ := aligned.proNum_roll full numberFits
    have rollFiles : log.roll.files = log.files.newWritableFile log.roll.proNum := rfl
    refine kept.append (.roll kept.marked_stop ?_ ?_ ?_)
    · rw [position_filenum, numberEq, Files.contents,
        aligned.agree_putSlice now item full numberFits le_rfl,
        position_offset, ← aligned.size_eq, Files.contents]
    · rwa [← fromEq, rolled, nextFile] at numberFits
    · rw [rolled, nextFile]
      refine Chain.single [] now ?_ ?_ rfl (seekable_of_blockStart rfl) nonempty
      · simp [effect.files_eq, rolled, rollNumber, numberEq]
      · rw [effect.files_eq, rolled, rollFiles, rollNumber,
          BinlogOffset.nextFile_filenum, position_filenum, numberEq,
          Files.contents_append_self, Files.contents_newWritableFile_self,
          BinlogOffset.nextFile_offset, ← position_offset, nextFile, BinlogOffset.nextFile_offset]
  · have stayed : log.checkRoll = log := if_neg (aligned.size_eq.symm ▸ full)
    rw [stayed] at effect ⊢
    refine kept.append (Chain.single _ now ?_ ?_ aligned.size_eq
      (Journal.seekable_current ⟨aligned, chain⟩) nonempty)
    · simp [effect.files_eq, numberEq]
    · rw [effect.files_eq, position_filenum, numberEq, Files.contents_append_self, position_offset]

/-- A `Put` whose end is kept extends a journal by one record. -/
theorem Journal.putSlice (journal : log.Journal start records) (now : Nat → Nat)
    (nonempty : item ≠ []) (numberFits : (log.position.writeFrom log.fileSize).filenum < 2 ^ 32)
    (kept : (log.position.place log.fileSize item.length).Kept) :
    (log.putSlice now item).Journal start
      (records ++ [{ item := item, position := log.position.place log.fileSize item.length }]) := by
  obtain ⟨nextAligned, nextPosition⟩ := journal.aligned.putSlice now item numberFits kept
  refine ⟨nextAligned, ?_⟩
  rw [nextPosition]
  exact journal.chain_putSlice now nonempty numberFits

end Pika.Binlog
