import Pika.Binlog.Takeover
import Pika.Foundation.Transition

/-!
# The three copies of the producer position

The writer keeps its position in the published version, in its own file number
and in the block offset, and the size of the current file is a fourth copy.
Opening, `Put`, `SetProducerStatus`, `Truncate` and reopening keep them
together, but for an offset below one header and for the `int` of `Produce`.
-/

namespace Pika.Binlog

open Foundation
open List hiding length

/-! ## Opening and truncating -/

/-- Bytes cut or filled with zeros to a size. -/
def resize (size : Nat) (contents : Bytes) : Bytes :=
  contents.take size ++ List.replicate (size - contents.length) 0

/-- `AppendWritableFile`, and equally `ftruncate`: the file has the given size
and keeps its bytes up to there. -/
def Files.appendWritableFile (files : Files) (number size : Nat) : Files :=
  fun other =>
    if other = number then some (resize size (files.contents number))
    else files other

/-- The constructor over an existing manifest. -/
def openManifest (fileSize : Nat) (manifest : Version) (files : Files) : Binlog :=
  initLogFile
    { opened := false
      version := manifest
      files := files.appendWritableFile manifest.proNum manifest.proOffset
      proNum := manifest.proNum
      blockOffset := 0
      fileSize := fileSize }

/-- Destroy the object, which saves its version, and construct another. -/
def reopen (fileSize : Nat) (log : Binlog) : Binlog := openManifest fileSize log.version log.files

def truncate (proNum proOffset index : Nat) (log : Binlog) : Status × Binlog :=
  if log.files.fileExists proNum then
    let files := log.files.appendWritableFile proNum proOffset
    (.ok, initLogFile
      { log with
        proNum := proNum
        version :=
          { log.version with proNum := proNum, proOffset := proOffset, logicId := index }
        files := files.appendWritableFile proNum proOffset })
  else (.ioError "fd open failed", log)

@[simp] theorem length_resize (size : Nat) (contents : Bytes) :
    (resize size contents).length = size := by
  simp only [resize, length_append, length_take, length_replicate]
  omega

theorem resize_of_le (long : size ≤ contents.length) :
    resize size contents = contents.take size := by
  rw [resize, Nat.sub_eq_zero_of_le long, replicate_zero, append_nil]

@[simp] theorem Files.contents_appendWritableFile_self (files : Files) (number size : Nat) :
    (files.appendWritableFile number size).contents number =
      resize size (files.contents number) := by
  simp [Files.contents, Files.appendWritableFile]

@[simp] theorem Files.fileExists_appendWritableFile (files : Files) (number size other : Nat) :
    (files.appendWritableFile number size).fileExists other =
      (decide (other = number) || files.fileExists other) := by
  by_cases same : other = number <;> simp [Files.fileExists, Files.appendWritableFile, same]

theorem Files.appendWritableFile_twice (files : Files) (number size : Nat) :
    (files.appendWritableFile number size).appendWritableFile number size =
      files.appendWritableFile number size := by
  funext other
  by_cases same : other = number
  · have lengthEq := length_resize size (files.contents number)
    rw [same, appendWritableFile, if_pos rfl, contents_appendWritableFile_self,
      resize_of_le lengthEq.ge, take_of_length_le lengthEq.le, appendWritableFile, if_pos rfl]
  · simp [appendWritableFile, same]

/-- A chain stays when its last file is cut at its end. -/
theorem Chain.cut {files : Files} (chain : Chain files start records stop) :
    Chain (files.appendWritableFile stop.filenum stop.offset) start records stop := by
  refine chain.transfer ⟨fun _ _ _ present => by simp [present], fun number _ earlier => ?_, [], ?_⟩
  · simp [Files.contents, Files.appendWritableFile, earlier.ne]
  · rw [Files.contents_appendWritableFile_self, resize_of_le chain.marked_stop.offset_le,
      append_nil]

/-! ## Record ends -/

/-- File contents that end with a record: items behind each other, possibly
behind the bad records of one `AppendPadding`. -/
inductive Framed : Bytes → Prop
  | nothing : Framed []
  | padding (now length : Nat) : Framed (appendPadding now length).1
  | item {contents item : Bytes} (earlier : Framed contents) (nonempty : item ≠ [])
      (now : Nat → Nat) :
      Framed (contents ++ frame now contents.length item)

/-- A position at which a record of an existing file ends. -/
structure RecordEnd (files : Files) (position : BinlogOffset) : Prop where
  fileExists : files.fileExists position.filenum = true
  offset_le : position.offset ≤ (files.contents position.filenum).length
  framed : Framed ((files.contents position.filenum).take position.offset)

theorem Framed.seekable (framed : Framed contents) : Seekable contents := by
  induction framed with
  | nothing => exact seekable_of_blockStart rfl
  | padding now length => exact seekable_appendPadding now length
  | item _ _ now ih => exact ih.append_frame now _

theorem RecordEnd.marked {files : Files} {position : BinlogOffset}
    (recordEnd : RecordEnd files position) :
    Marked files position :=
  ⟨recordEnd.fileExists, recordEnd.offset_le, recordEnd.framed.seekable⟩

/-! ## Operations -/

/-- The operations on an open log that move its position. -/
inductive ProducerOperation
  | put (call : PutCall)
  | setProducerStatus (now proNum proOffset term index : Nat)
  | truncate (proNum proOffset index : Nat)
  | reopen (fileSize : Nat)

/-- The log after an operation that succeeds. -/
def producerStep (log : Binlog) : ProducerOperation → Option Binlog
  | .put call =>
    match log.put call.now call.item with
    | some (.ok, next) => some next
    | _ => none
  | .setProducerStatus now proNum proOffset term index =>
    match log.setProducerStatus now proNum proOffset term index with
    | (.ok, next) => some next
    | _ => none
  | .truncate proNum proOffset index =>
    match log.truncate proNum proOffset index with
    | (.ok, next) => some next
    | _ => none
  | .reopen fileSize => some (log.reopen fileSize)

/-- Items are not empty, and `Truncate` is called at record ends. -/
def OperationAllowed (log : Binlog) : ProducerOperation → Prop
  | .put call => call.item ≠ []
  | .truncate proNum proOffset _ => RecordEnd log.files { filenum := proNum, offset := proOffset }
  | .setProducerStatus .. | .reopen _ => True

/-- What an operation asks of its arguments: the end of an item is published
through an `int`, and an offset that is not set to zero has room for a
header. -/
def OperationSafe (log : Binlog) : ProducerOperation → Prop
  | .put call =>
    call.item.length < 2 ^ 31 → (log.position.place log.fileSize call.item.length).Kept
  | .setProducerStatus _ _ proOffset _ _ => ¬(4 ≤ proOffset ∧ proOffset < 8)
  | .truncate .. | .reopen _ => True

/-- Every item that is put next is returned to a reader that was positioned
before. -/
def NextPutRead (log : Binlog) : Prop :=
  ∃ reader, Reader.seek log log.version.proNum log.version.proOffset = some reader ∧
      ∀ (call : PutCall) (next : Binlog) (output : Output),
        call.item ≠ [] → log.put call.now call.item = some (.ok, next) → ∃ fuel returned after,
            reader.get next fuel output = some (.ok, returned, after) ∧
              returned.scratch = call.item

/-- The copies of the position agree, and the position can be read from. -/
structure ProducerStatusHolds (log : Binlog) : Prop where
  /-- The published file is the one written. -/
  proNum_eq : log.version.proNum = log.proNum
  size_eq : (log.files.contents log.proNum).length = log.version.proOffset
  block_eq : log.blockOffset % kBlockSize = (log.files.contents log.proNum).length % kBlockSize
  nextPut : log.NextPutRead

variable {log : Binlog}

/-! ## Reading the next item -/

/-- An item shorter than an `int` never publishes the offset it starts at. -/
theorem published_ne_start (offset : Nat) (bounded : length < 2 ^ 31) :
    castUInt64 (castInt32 (recordEnd offset length)) ≠ offset := by
  have upper := recordEnd_lt_add offset bounded
  have lower := add_length_lt_recordEnd offset length
  intro same
  have low := castInt32_castUInt64 (castInt32 (recordEnd offset length))
  rw [same, castInt32_castInt32, castInt32_eq_iff] at low
  omega

/-- Placed before an item at the end of a file, `Get` returns the item. -/
theorem getLoop_of_frame {next : Binlog} {reader : Reader}
    {position status : BinlogOffset} {output : Output}
    (standing : reader.At position.filenum position.offset)
    (published : next.getProducerStatus = some status)
    (different : status ≠ position) (nonempty : item ≠ [])
    (split : (next.files.contents position.filenum).drop position.offset =
      frame now position.offset item ++ rest) (cleared : output.scratch = []) :
    ∃ returned after, reader.getLoop next 1 output = some (.ok, returned, after) ∧
        returned.scratch = item := by
  obtain ⟨after, -, consumed⟩ := standing.consume_frame nonempty split cleared
  refine ⟨{ scratch := item
            filenum := position.filenum
            offset := recordEnd position.offset item.length }, after, ?_, rfl⟩
  rw [Reader.getLoop, Reader.readToTheEnd_of_ne published standing different, consumed]
  simp [Status.isEndFile]

/-- Whether or not the writer rolls, the next item is behind its position. -/
theorem Aligned.getLoop_putSlice {reader : Reader} {call : PutCall}
    {output : Output} (aligned : log.Aligned)
    (standing : reader.At log.position.filenum log.position.offset)
    (nonempty : call.item ≠ []) (bounded : call.item.length < 2 ^ 31)
    (cleared : output.scratch = []) :
    ∃ fuel returned after, reader.getLoop (log.putSlice call.now call.item) fuel output =
          some (.ok, returned, after) ∧
        returned.scratch = call.item := by
  have effect := aligned.putSlice_effect call.now call.item
  have numberEq := aligned.proNum_eq
  have published : (log.putSlice call.now call.item).getProducerStatus =
      some (log.putSlice call.now call.item).position := by
    rw [getProducerStatus, if_pos (putSlice_opened _ _ aligned.opened), position]
  by_cases full : log.fileSize < log.version.proOffset
  · have rolled : log.checkRoll = log.roll := if_pos (aligned.size_eq.symm ▸ full)
    rw [rolled] at effect
    have another : log.roll.proNum ≠ log.proNum := castUInt32_succ_ne log.proNum
    have rollFiles : log.roll.files = log.files.newWritableFile log.roll.proNum := rfl
    have rollOffset : log.roll.version.proOffset = 0 := rfl
    have nextNumber : (log.putSlice call.now call.item).version.proNum = log.roll.proNum := by
      rw [effect.version_proNum_eq, (aligned_roll log).proNum_eq]
    have leftBehind : (log.putSlice call.now call.item).position ≠ log.position := by
      intro same
      have sameNumber := congrArg BinlogOffset.filenum same
      rw [position_filenum, position_filenum, nextNumber, numberEq] at sameNumber
      exact another sameNumber
    have behindStart : (log.putSlice call.now call.item).position ≠
        { filenum := log.roll.proNum, offset := 0 } := by
      intro same
      have sameOffset := congrArg BinlogOffset.offset same
      rw [position_offset, effect.proOffset_eq, rollOffset] at sameOffset
      exact published_ne_start 0 bounded sameOffset
    have atEnd : ((log.putSlice call.now call.item).files.contents
        log.position.filenum).length ≤ log.position.offset := by
      rw [effect.files_eq, position_filenum, numberEq,
        Files.contents_append_of_ne _ _ another.symm, rollFiles,
        Files.contents_newWritableFile_of_ne _ another.symm, aligned.size_eq, position_offset]
    have present : (log.putSlice call.now call.item).files.fileExists log.roll.proNum = true := by
      simp [effect.files_eq]
    have split : ((log.putSlice call.now call.item).files.contents
        log.roll.proNum).drop 0 = frame call.now 0 call.item ++ [] := by
      rw [effect.files_eq, Files.contents_append_self, rollFiles,
        Files.contents_newWritableFile_self, rollOffset, drop_zero,
        nil_append, append_nil]
    obtain ⟨returned, after, got, same⟩ := getLoop_of_frame
      (Reader.at_positioned log.roll.proNum 0) published behindStart nonempty
      split cleared
    refine ⟨2, returned, after, ?_, same⟩
    rw [Reader.getLoop_of_roll
      (Reader.readToTheEnd_of_ne published standing leftBehind) standing atEnd
      (by rw [position_filenum, numberEq]; rfl) present]
    exact got
  · have stayed : log.checkRoll = log := if_neg (aligned.size_eq.symm ▸ full)
    rw [stayed] at effect
    have moved : (log.putSlice call.now call.item).position ≠ log.position := by
      intro same
      have sameOffset := congrArg BinlogOffset.offset same
      rw [position_offset, position_offset, effect.proOffset_eq] at sameOffset
      exact published_ne_start _ bounded sameOffset
    have split : ((log.putSlice call.now call.item).files.contents
        log.position.filenum).drop log.position.offset =
        frame call.now log.position.offset call.item ++ [] := by
      rw [effect.files_eq, position_filenum, numberEq,
        Files.contents_append_self, position_offset, ← aligned.size_eq,
        drop_left, append_nil]
    obtain ⟨returned, after, got, same⟩ :=
      getLoop_of_frame standing published moved nonempty split cleared
    exact ⟨1, returned, after, got, same⟩

/-! ## The invariant -/

/-- The writer is aligned and its file ends with a record. -/
structure AtRecordEnd (log : Binlog) : Prop where
  aligned : log.Aligned
  framed : Framed (log.files.contents log.proNum)

theorem AtRecordEnd.recordEnd (atEnd : log.AtRecordEnd) : RecordEnd log.files log.position := by
  obtain ⟨aligned, framed⟩ := atEnd
  refine ⟨?_, ?_, ?_⟩
  · rw [position_filenum, aligned.proNum_eq]
    exact aligned.fileExists
  · rw [position_filenum, aligned.proNum_eq, aligned.size_eq, position_offset]
  · rw [position_filenum, aligned.proNum_eq, position_offset, ← aligned.size_eq, take_length]
    exact framed

theorem AtRecordEnd.nextPutRead (atEnd : log.AtRecordEnd) : log.NextPutRead := by
  refine ⟨_, atEnd.recordEnd.marked.seek_eq, ?_⟩
  intro call next output nonempty succeeded
  rw [put, if_neg (by simp [atEnd.aligned.opened])] at succeeded
  split_ifs at succeeded with bounded
  cases succeeded
  have standing := Reader.at_positioned log.position.filenum log.position.offset
  obtain ⟨fuel, returned, after, got, same⟩ :=
    atEnd.aligned.getLoop_putSlice standing nonempty bounded
      (rfl : ({ output with scratch := [] } : Output).scratch = [])
  exact ⟨fuel, returned, after, (get_of_queue standing.queue_ne_none fuel output).trans got, same⟩

theorem AtRecordEnd.producerStatusHolds (atEnd : log.AtRecordEnd) : log.ProducerStatusHolds where
  proNum_eq := atEnd.aligned.proNum_eq
  size_eq := atEnd.aligned.size_eq
  block_eq := by
    rw [atEnd.aligned.size_eq]
    exact atEnd.aligned.blockAt.mod
  nextPut := atEnd.nextPutRead

/-! ## One lemma for each operation -/

theorem atRecordEnd_fresh (fileSize term : Nat) : (fresh fileSize term).AtRecordEnd where
  aligned := aligned_fresh fileSize term
  framed := .nothing

theorem AtRecordEnd.checkRoll (atEnd : log.AtRecordEnd) : log.checkRoll.AtRecordEnd := by
  refine ⟨atEnd.aligned.checkRoll, ?_⟩
  unfold Binlog.checkRoll
  split_ifs
  · have started : log.roll.files.contents log.roll.proNum = [] := by
      simp [roll, initLogFile, publishRoll, createNextFile]
    rw [started]
    exact .nothing
  · exact atEnd.framed

theorem AtRecordEnd.putSlice (atEnd : log.AtRecordEnd) (now : Nat → Nat) (nonempty : item ≠ [])
    (kept : (log.position.place log.fileSize item.length).Kept) :
    (log.putSlice now item).AtRecordEnd := by
  refine ⟨atEnd.aligned.aligned_putSlice now item kept, ?_⟩
  have effect := atEnd.aligned.putSlice_effect now item
  rw [effect.files_eq, effect.proNum_eq, Files.contents_append_self,
    ← atEnd.aligned.checkRoll.size_eq]
  exact atEnd.checkRoll.framed.item nonempty now

/-- Every position but those inside the first header is taken over. -/
theorem atRecordEnd_setProducerStatus (opened : log.opened = true)
    (now proNum term index : Nat) (safe : ¬(4 ≤ proOffset ∧ proOffset < 8)) :
    ∃ next, log.setProducerStatus now proNum proOffset term index = (.ok, next) ∧
        next.AtRecordEnd := by
  have covers : (if proOffset < 4 then 0 else proOffset) = 0 ∨
      kHeaderSize ≤ if proOffset < 4 then 0 else proOffset := by
    simp only [kHeaderSize]
    split_ifs <;> omega
  have lengthEq := length_appendPadding now covers
  have framed := Framed.padding now (if proOffset < 4 then 0 else proOffset)
  rw [setProducerStatus, if_neg (by simp [opened])]
  refine ⟨_, rfl, ⟨rfl, rfl, ?_, ?_, ?_⟩, ?_⟩
  · simp [initLogFile]
  · simpa [initLogFile] using lengthEq
  · simp only [initLogFile, Files.contents_append_self,
      Files.contents_newWritableFile_self, nil_append, lengthEq]
    exact BlockAt.of_mod _
  · simpa [initLogFile] using framed

/-- A log over files of which one was cut or filled to the published offset. -/
theorem aligned_initLogFile_appendWritableFile (log : Binlog) (files : Files)
    (proNum : Nat) (version : Version) (proNum_eq : version.proNum = proNum) :
    (initLogFile
      { log with
        proNum := proNum
        version := version
        files := files.appendWritableFile proNum version.proOffset }).Aligned
    where
  opened := rfl
  proNum_eq := proNum_eq
  fileExists := by simp [initLogFile]
  size_eq := by simp [initLogFile]
  blockAt := by
    simp only [initLogFile, Files.contents_appendWritableFile_self, length_resize]
    exact BlockAt.of_mod _

/-- `Truncate` to a record end leaves the log there. -/
theorem atRecordEnd_truncate {proNum proOffset : Nat}
    (target : RecordEnd log.files { filenum := proNum, offset := proOffset })
    (index : Nat) :
    ∃ next, log.truncate proNum proOffset index = (.ok, next) ∧ next.AtRecordEnd := by
  rw [truncate, if_pos target.fileExists]
  refine ⟨_, rfl, aligned_initLogFile_appendWritableFile log _ proNum
      { log.version with proNum := proNum, proOffset := proOffset, logicId := index } rfl, ?_⟩
  have cut : resize proOffset (log.files.contents proNum) =
      (log.files.contents proNum).take proOffset :=
    resize_of_le target.offset_le
  have cutLength := length_resize proOffset (log.files.contents proNum)
  simp only [initLogFile, Files.contents_appendWritableFile_self]
  rw [resize_of_le cutLength.ge, take_of_length_le cutLength.le, cut]
  exact target.framed

theorem AtRecordEnd.reopen (atEnd : log.AtRecordEnd) (fileSize : Nat) :
    (log.reopen fileSize).AtRecordEnd := by
  refine ⟨aligned_initLogFile_appendWritableFile
    { log with fileSize := fileSize, opened := false, blockOffset := 0 }
    log.files log.version.proNum log.version rfl, ?_⟩
  have cut : resize log.version.proOffset (log.files.contents log.version.proNum) =
      log.files.contents log.version.proNum := by
    rw [atEnd.aligned.proNum_eq, ← atEnd.aligned.size_eq, resize_of_le le_rfl, take_length]
  simp only [Binlog.reopen, openManifest, initLogFile, Files.contents_appendWritableFile_self, cut]
  rw [atEnd.aligned.proNum_eq]
  exact atEnd.framed

/-! ## Runs -/

/-- A safe operation keeps the log at a record end. -/
theorem AtRecordEnd.producerStep {next : Binlog} (atEnd : log.AtRecordEnd)
    (allowed : log.OperationAllowed operation) (safe : log.OperationSafe operation)
    (stepped : log.producerStep operation = some next) :
    next.AtRecordEnd := by
  have opened := atEnd.aligned.opened
  cases operation with
  | put call =>
    rw [Binlog.producerStep, put, if_neg (by simp [opened])] at stepped
    split_ifs at stepped with bounded
    cases stepped
    exact atEnd.putSlice call.now allowed (safe bounded)
  | setProducerStatus now proNum proOffset term index =>
    obtain ⟨result, taken, resultEnd⟩ := atRecordEnd_setProducerStatus opened
      now proNum term index safe
    rw [Binlog.producerStep, taken] at stepped
    cases stepped
    exact resultEnd
  | truncate proNum proOffset index =>
    obtain ⟨result, taken, resultEnd⟩ := atRecordEnd_truncate allowed index
    rw [Binlog.producerStep, taken] at stepped
    cases stepped
    exact resultEnd
  | reopen fileSize =>
    cases stepped
    exact atEnd.reopen fileSize

/-- An offset inside the first header is published over an empty file. -/
theorem size_ne_setProducerStatus (opened : log.opened = true)
    (now proNum term index : Nat) (inside : 4 ≤ proOffset ∧ proOffset < 8) :
    ∃ next, log.setProducerStatus now proNum proOffset term index = (.ok, next) ∧
        (next.files.contents next.proNum).length = 0 ∧
        next.version.proOffset = proOffset := by
  have kept : (if proOffset < 4 then 0 else proOffset) = proOffset := if_neg (by omega)
  have nothing : appendPadding now proOffset = ([], proOffset) := if_pos inside.2
  rw [setProducerStatus, if_neg (by simp [opened])]
  simp only [kept, nothing]
  refine ⟨_, rfl, ?_, rfl⟩
  simp [initLogFile]

/-- An unsafe operation leaves the published offset away from the size. -/
theorem AtRecordEnd.not_producerStatusHolds (atEnd : log.AtRecordEnd)
    (misused : ¬log.OperationSafe operation) :
    ∃ next, log.producerStep operation = some next ∧ ¬next.ProducerStatusHolds := by
  have opened := atEnd.aligned.opened
  cases operation with
  | put call =>
    obtain ⟨bounded, lost⟩ := Classical.not_imp.mp misused
    refine ⟨log.putSlice call.now call.item, ?_, ?_⟩
    · rw [Binlog.producerStep, put, if_neg (by simp [opened]), if_pos bounded]
    · intro holds
      apply lost
      have sizeEq := holds.size_eq
      rw [atEnd.aligned.size_putSlice, atEnd.aligned.proOffset_putSlice] at sizeEq
      exact sizeEq.symm
  | setProducerStatus now proNum proOffset term index =>
    have inside : 4 ≤ proOffset ∧ proOffset < 8 := not_not.mp misused
    obtain ⟨next, taken, empty, published⟩ :=
      size_ne_setProducerStatus opened now proNum term index inside
    refine ⟨next, by rw [Binlog.producerStep, taken], ?_⟩
    intro holds
    have sizeEq := holds.size_eq
    omega
  | truncate | reopen => exact absurd trivial misused

/-- Along a run of operations on a fresh log the copies of the position agree,
and the next item can be read, exactly when every item's end comes back from
an `int` and no offset inside the first header is taken over. -/
theorem producerStatusHolds_iff_operationsSafe (fileSize term : Nat)
    (operations : List ProducerOperation)
    (allowed : RunAdmissible producerStep OperationAllowed (fresh fileSize term) operations) :
    RunSatisfies producerStep ProducerStatusHolds (fresh fileSize term) operations ↔
      RunAdmissible producerStep OperationSafe (fresh fileSize term)
        operations :=
  runSatisfies_iff_runAdmissible (fun _ atEnd => atEnd.producerStatusHolds)
    (fun _ _ _ atEnd allowed safe stepped => atEnd.producerStep allowed safe stepped)
    (fun _ _ atEnd _ misused => atEnd.not_producerStatusHolds misused)
    (atRecordEnd_fresh fileSize term) allowed

/-- Taking over a position in the second block, putting an item and reopening
keeps the copies together. -/
theorem producerStatusHolds_takeover :
    RunSatisfies producerStep ProducerStatusHolds (fresh 104857600 0)
      [.setProducerStatus 0 3 65600 0 0, .put { item := [1], now := fun _ => 0 },
        .reopen 104857600] := by
  have paddable : Paddable ({ filenum := 3, offset := 65600 } : BinlogOffset).offset := by
    right
    decide
  obtain ⟨taken, takenEq, sizeEq, positionEq, -⟩ :=
    journal_setProducerStatus (aligned_fresh 104857600 0).opened 0 0 0 paddable
  refine (producerStatusHolds_iff_operationsSafe 104857600 0 _ ?_).mpr ?_
  · exact ⟨trivial, fun _ _ => ⟨cons_ne_nil _ _, fun _ _ => ⟨trivial, fun _ _ => trivial⟩⟩⟩
  · refine ⟨by simp [OperationSafe], ?_⟩
    intro next stepped
    rw [producerStep, takenEq] at stepped
    cases stepped
    refine ⟨?_, fun _ _ => ⟨trivial, fun _ _ => trivial⟩⟩
    intro _
    rw [positionEq, sizeEq]
    decide +kernel

/-- `dbslaveof db 3 5` publishes offset 5 of an empty file. -/
theorem not_producerStatusHolds_inside_header :
    ¬RunSatisfies producerStep ProducerStatusHolds (fresh 104857600 0)
      [.setProducerStatus 0 3 5 0 0] := by
  rintro ⟨-, later⟩
  have misused : ¬(fresh 104857600 0).OperationSafe (.setProducerStatus 0 3 5 0 0) := by
    simp [OperationSafe]
  obtain ⟨next, stepped, broken⟩ := (atRecordEnd_fresh 104857600 0).not_producerStatusHolds misused
  exact broken (later next stepped)

end Pika.Binlog
