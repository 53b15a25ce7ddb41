import Pika.Binlog.Garbage

/-!
# Failed Puts that do no harm

A failed `Put` does no harm to later items in two cases.  Its first operation
failed and left the block offset where it was, modulo the size of a block.  Or
it left the file larger than the threshold without the header of the item's
last fragment: the next `Put` rolls, and a reader meets nothing but fragments
of an item that goes on nowhere before the end of the file.
-/

namespace Pika.Binlog

open Foundation

/-- The end of the next item, in unbounded numbers. -/
def nextPlace (log : Binlog) (length : Nat) : BinlogOffset :=
  (if log.fileSize < (log.files.contents log.proNum).length then log.position.nextFile
  else log.position).afterItem length

/-- Every `Put` of a sequence ends at a position that fits. -/
def PutsFit : Binlog → List PutCall → Prop
  | _, [] => True
  | log, call :: calls =>
    (log.nextPlace call.item.length).Fits ∧ (log.putSlice call.now call.item).PutsFit calls

/-- A reader can be positioned and returns the records, then the end of the
log. -/
def ReadsFrom (log : Binlog) (position : BinlogOffset) (records : List Record) : Prop :=
  ∃ reader, Reader.seek log position.filenum position.offset = some reader ∧
      Drains log reader records

/-- A `Put` on a journal of which one file operation fails. -/
structure FailedPut where
  log : Binlog
  start : BinlogOffset
  records : List Record
  /-- The records lie in the files. -/
  journal : log.Journal start records
  item : Bytes
  nonempty : item ≠ []
  now : Nat → Nat
  /-- The number of operations that succeeded. -/
  made : Nat
  failed : Binlog
  /-- The operation after them failed. -/
  returned : log.putFailing now made item = some failed
  /-- The threshold is one that the configuration accepts. -/
  threshold : log.fileSize ≤ 2 ^ 30
  numbered : (log.position.writeFrom log.fileSize).filenum + 1 < 2 ^ 32

namespace FailedPut

/-- The offset at which the failed `Put` began to write. -/
def offset (put : FailedPut) : Nat := put.log.checkRoll.version.proOffset

/-- The file it wrote. -/
def filenum (put : FailedPut) : Nat := put.log.checkRoll.proNum

/-- The bytes it left behind. -/
def garbage (put : FailedPut) : Bytes := leftBehind put.now put.offset put.item put.made

/-- Items put afterwards are read back, each at the position recorded after it,
from every position published before. -/
def Harmless (put : FailedPut) : Prop :=
  ∀ calls next added, calls ≠ [] → (∀ call ∈ calls, call.item ≠ []) → put.failed.PutsFit calls →
    put.failed.putAll calls = some (next, added) →
      (∀ earlier later, put.records ++ added = earlier ++ later → later ≠ [] →
          next.ReadsFrom (Chain.positionAfter put.start earlier) later) ∧
      next.ReadsFrom put.failed.position added

/-- The first operation failed, and it was the padding of a block or the header
of a fragment that takes a whole block; or the file is left above the threshold
and the header of the last fragment was not written. -/
def LeavesIntact (put : FailedPut) : Prop :=
  put.made = 0 ∧ (0 < padAt put.offset ∨ put.offset % kBlockSize = 0 ∧
          kBlockSize - kHeaderSize ≤ put.item.length) ∨
    put.log.fileSize < put.offset + put.garbage.length ∧
      put.made + 3 ≤ (operations put.now put.offset true put.item).length

end FailedPut

variable {log next : Binlog}
variable {records added : List Record}

/-! ## Puts on a log that was left as it was -/

theorem Aligned.nextPlace_eq (aligned : log.Aligned) (length : Nat) :
    log.nextPlace length = log.position.place log.fileSize length := by
  rw [nextPlace, aligned.size_eq]
  rfl

theorem Aligned.allFit_of_putsFit (aligned : log.Aligned) (fits : log.PutsFit calls) :
    AllFit log.fileSize log.position calls := by
  induction calls generalizing log with
  | nil => simp [AllFit, places]
  | cons call calls ih =>
    obtain ⟨headFits, tailFit⟩ := fits
    rw [aligned.nextPlace_eq] at headFits
    obtain ⟨nextAligned, nextPosition⟩ :=
      aligned.putSlice call.now call.item headFits.number headFits.kept
    have rest := ih nextAligned tailFit
    rw [nextPosition, putSlice_fileSize aligned] at rest
    exact allFit_cons.mpr ⟨headFits, rest⟩

theorem Journal.of_putAll (journal : log.Journal start records)
    (nonempty : ∀ call ∈ calls, call.item ≠ []) (fits : log.PutsFit calls)
    (returned : log.putAll calls = some (next, added)) :
    next.Journal start (records ++ added) := by
  obtain ⟨after, putEq, -, extended⟩ :=
    journal.putAll nonempty (journal.aligned.allFit_of_putsFit fits)
  cases putEq.symm.trans returned
  exact extended

theorem Aligned.offset_le (aligned : log.Aligned) :
    log.checkRoll.version.proOffset ≤ log.fileSize := by
  rw [aligned.proOffset_checkRoll, BinlogOffset.writeFrom]
  split_ifs with full
  · exact Nat.zero_le _
  · exact Nat.le_of_not_lt full

theorem checkRoll_of_le (small : (log.files.contents log.proNum).length ≤ log.fileSize) :
    log.checkRoll = log :=
  if_neg (Nat.not_lt.mpr small)

theorem Aligned.checkRoll_checkRoll (aligned : log.Aligned) :
    log.checkRoll.checkRoll = log.checkRoll := by
  apply checkRoll_of_le
  rw [aligned.checkRoll.size_eq, checkRoll_fileSize]
  exact aligned.offset_le

theorem Aligned.nextPlace_checkRoll (aligned : log.Aligned)
    (bounded : (log.position.writeFrom log.fileSize).filenum < 2 ^ 32) (length : Nat) :
    log.checkRoll.nextPlace length = log.nextPlace length := by
  have small : ¬log.fileSize < log.checkRoll.position.offset := Nat.not_lt.mpr aligned.offset_le
  rw [aligned.nextPlace_eq, aligned.checkRoll.nextPlace_eq,
    BinlogOffset.place, BinlogOffset.place, checkRoll_fileSize,
    BinlogOffset.writeFrom_of_not_lt small, aligned.position_checkRoll bounded]

/-- A roll leaves a journal without records, whatever was there before. -/
theorem journal_roll (log : Binlog) : log.roll.Journal log.roll.position [] := by
  refine ⟨aligned_roll log, .done ⟨?_, Nat.zero_le _, ?_⟩⟩
  · rw [position_filenum, (aligned_roll log).proNum_eq]
    exact (aligned_roll log).fileExists
  · exact seekable_of_blockStart rfl

/-- A log that may roll before its next `Put` is a journal without records. -/
theorem Journal.checkRoll (journal : log.Journal start records) :
    log.checkRoll.Journal log.checkRoll.position [] := by
  unfold Binlog.checkRoll
  split_ifs
  · exact journal_roll log
  · exact ⟨journal.aligned, .done journal.chain.marked_stop⟩

/-- `Put`s depend on the log only through what the first of them does and
through where it would end. -/
theorem putAll_congr {other : Binlog} (opened : log.opened = true)
    (otherOpened : other.opened = true)
    (same : ∀ now item, log.putSlice now item = other.putSlice now item) (nonempty : calls ≠ []) :
    log.putAll calls = other.putAll calls := by
  cases calls with
  | nil => contradiction
  | cons call calls => simp [putAll, put, opened, otherOpened, same]

theorem putsFit_congr {other : Binlog}
    (same : ∀ now item, log.putSlice now item = other.putSlice now item)
    (place : ∀ length, log.nextPlace length = other.nextPlace length) :
    log.PutsFit calls ↔ other.PutsFit calls := by
  cases calls with
  | nil => rfl
  | cons call calls => simp only [PutsFit, same, place]

theorem produceLoop_congr (sameBlock : first.closeBlock = second.closeBlock) (now : Nat → Nat) :
    produceLoop now first = produceLoop now second := by
  have sameStep : first.produceStep (now 0) = second.produceStep (now 0) := by
    simp only [ProduceState.produceStep, sameBlock]
  rw [produceLoop, sameStep, ← produceLoop]

theorem foldl_appendQueue_blockOffset (log : Binlog) (other : Nat) (slices : List Bytes) :
    slices.foldl appendQueue { log with blockOffset := other } =
      { slices.foldl appendQueue log with blockOffset := other } := by
  induction slices generalizing log with
  | nil => rfl
  | cons slice slices ih => exact ih (log.appendQueue slice)

/-- At the start of a block it does not matter whether the block offset is zero
or the size of a block. -/
theorem putSlice_of_blockStart (small : (log.files.contents log.proNum).length ≤ log.fileSize)
    (here : log.blockOffset = 0 ∨ log.blockOffset = kBlockSize)
    (there : other = 0 ∨ other = kBlockSize) (now : Nat → Nat) (item : Bytes) :
    Binlog.putSlice now item { log with blockOffset := other } = log.putSlice now item := by
  have produced : Binlog.produce now item { log with blockOffset := other } =
      log.produce now item := by
    apply produceLoop_congr
    rcases here with here | here <;> rcases there with rfl | rfl <;>
      simp [ProduceState.closeBlock, here, kBlockSize, kHeaderSize]
  have stayed := checkRoll_of_le small
  have otherStayed : Binlog.checkRoll { log with blockOffset := other } =
      { log with blockOffset := other } :=
    checkRoll_of_le small
  simp only [putSlice, stayed, otherStayed, produced, foldl_appendQueue_blockOffset, publishPut]

namespace FailedPut

variable {put : FailedPut}

/-- A first operation that fails harmlessly leaves a log on which every `Put`
does what it would have done before. -/
theorem putSlice_of_first (first : put.made = 0) (unmoved : 0 < padAt put.offset ∨
      put.offset % kBlockSize = 0 ∧ kBlockSize - kHeaderSize ≤ put.item.length)
    (now : Nat → Nat) (item : Bytes) :
    put.failed.putSlice now item = put.log.checkRoll.putSlice now item := by
  have aligned := put.journal.aligned
  have failedEq := aligned.putFailing_zero (first ▸ put.returned)
  rw [failedEq]
  split_ifs with padded
  · rfl
  · obtain ⟨blockStart, long⟩ := unmoved.resolve_left padded
    apply putSlice_of_blockStart
    · rw [aligned.checkRoll.size_eq, checkRoll_fileSize]
      exact aligned.offset_le
    · obtain ⟨inBlock, sameMod⟩ := aligned.checkRoll.blockAt
      change _ = put.offset % _ at sameMod
      simp only [kBlockSize] at inBlock sameMod blockStart ⊢
      omega
    · right
      change put.offset % kBlockSize +
        (kHeaderSize + (put.item.take (roomAt put.offset)).length) = kBlockSize
      rw [blockStart, roomAt_of_blockStart blockStart, List.length_take_of_le long]
      rfl

theorem failed_eq (put : FailedPut) : put.failed =
    { put.log.checkRoll.appendQueue put.garbage with blockOffset := put.failed.blockOffset } :=
  (put.journal.aligned.putFailing_spec put.returned).2.2

theorem position_failed (put : FailedPut) : put.failed.position = put.log.checkRoll.position := by
  rw [failed_eq]
  rfl

theorem opened_failed (put : FailedPut) : put.failed.opened = true := by
  rw [failed_eq]
  exact put.journal.aligned.checkRoll.opened

/-- A first operation that fails harmlessly does no harm. -/
theorem harmless_of_first (first : put.made = 0) (unmoved : 0 < padAt put.offset ∨
      put.offset % kBlockSize = 0 ∧ kBlockSize - kHeaderSize ≤ put.item.length) :
    put.Harmless := by
  intro calls next added hasCalls nonempty fits returned
  have aligned := put.journal.aligned
  have same := putSlice_of_first first unmoved
  have failedEq := aligned.putFailing_zero (first ▸ put.returned)
  have base : ∀ now item, put.log.checkRoll.putSlice now item = put.log.putSlice now item := by
    intro now item
    rw [putSlice, aligned.checkRoll_checkRoll, ← putSlice]
  have fitsBase : put.log.checkRoll.PutsFit calls := by
    apply (putsFit_congr same _).mp fits
    intro length
    rw [failedEq]
    rfl
  rw [putAll_congr put.opened_failed aligned.checkRoll.opened same hasCalls] at returned
  constructor
  · intro earlier later split _
    have journal := put.journal.of_putAll nonempty
      ((putsFit_congr base (aligned.nextPlace_checkRoll
        (Nat.lt_of_succ_lt put.numbered))).mp fitsBase)
      ((putAll_congr aligned.checkRoll.opened aligned.opened base hasCalls).symm ▸ returned)
    rw [split] at journal
    exact journal.seek_drains
  · rw [position_failed]
    have journal := put.journal.checkRoll.of_putAll nonempty fitsBase returned
    exact Journal.seek_drains journal

end FailedPut

/-! ## Reading over what was left behind -/

/-- In front of the first record of a file, `Get` does not depend on what was
assembled before. -/
theorem Reader.getLoop_clear {reader : Reader} {position stop : BinlogOffset}
    (chain : Chain log.files position (record :: records) stop)
    (published : log.getProducerStatus = some stop)
    (standing : reader.At position.filenum position.offset)
    (fileStart : position.offset = 0) (fuel : Nat) (output : Output) :
    reader.getLoop log fuel output = reader.getLoop log fuel { output with scratch := [] } := by
  have ahead := chain.start_lt_stop (List.cons_ne_nil _ _)
  generalize whole : record :: records = list at chain
  induction chain generalizing reader fuel with
  | done => contradiction
  | @item position stop item rest others marked nonempty now split _ _ =>
    have different : stop ≠ position := by
      rintro rfl
      exact BinlogOffset.lt_irrefl _ ahead
    have room : 0 < roomAt position.offset := by
      rw [fileStart]
      decide
    cases fuel with
    | zero => rfl
    | succ fuel =>
      rw [getLoop, getLoop, readToTheEnd_of_ne published standing different,
        standing.consume_clear nonempty room split output]
      simp only [Bool.false_eq_true, if_false]
  | @roll position stop other others marked atEnd bounded tail ih =>
    have different : stop ≠ position := by
      rintro rfl
      exact BinlogOffset.lt_irrefl _ ahead
    have notEnd := readToTheEnd_of_ne published standing different
    have number := castUInt32_succ bounded
    cases fuel with
    | zero => rfl
    | succ fuel =>
      rw [getLoop_of_roll notEnd standing atEnd.le number tail.marked_start.fileExists,
        getLoop_of_roll notEnd standing atEnd.le number tail.marked_start.fileExists]
      exact ih published (at_positioned _ _) rfl fuel
        (tail.start_lt_stop (List.cons_ne_nil _ _)) whole

theorem Drains.of_getLoop (drains : Drains log other added)
    (nonempty : added ≠ []) (opened : reader.queue ≠ none) (otherOpened : other.queue ≠ none)
    (leads : ∀ output : Output, ∃ outcome : Output, ∀ fuel,
      reader.getLoop log (fuel + 1) { output with scratch := [] } =
        other.getLoop log fuel { outcome with scratch := [] }) :
    Drains log reader added := by
  cases added with
  | nil => contradiction
  | cons record added =>
    intro output
    obtain ⟨outcome, same⟩ := leads output
    obtain ⟨fuel, next, returned, rest⟩ := drains outcome
    refine ⟨fuel + 1, next, ?_, rest⟩
    rw [get_of_queue opened, same, ← get_of_queue otherOpened]
    exact returned

/-! ## A roll behind what was left -/

theorem Files.Grows.of_agree_right {files grown other : Files} (grows : files.Grows grown last)
    (agree : ∀ number ≤ last, other number = grown number) :
    files.Grows other last where
  below number earlier := by
    rw [Files.contents, agree number earlier.le]
    exact grows.below number earlier
  atLast := by
    rw [Files.contents, agree last le_rfl]
    exact grows.atLast
  fileExists number bounded present := by
    rw [Files.fileExists, agree number bounded]
    exact grows.fileExists number bounded present

theorem Aligned.proNum_checkRoll (aligned : log.Aligned)
    (bounded : (log.position.writeFrom log.fileSize).filenum < 2 ^ 32) :
    log.checkRoll.proNum = (log.position.writeFrom log.fileSize).filenum := by
  rw [← aligned.position_checkRoll bounded, position_filenum, aligned.checkRoll.proNum_eq]

theorem length_lt_of_afterItem_fits {position : BinlogOffset}
    (fits : (position.afterItem length).Fits) :
    length < 2 ^ 31 := by
  have endFits := fits.2
  rw [BinlogOffset.afterItem_offset] at endFits
  have grows := add_length_lt_recordEnd position.offset length
  omega

theorem putAll_cons {call : PutCall} (opened : log.opened = true)
    (fits : (log.nextPlace call.item.length).Fits) :
    log.putAll (call :: calls) = ((log.putSlice call.now call.item).putAll calls).map fun result =>
        (result.1,
          { item := call.item
            position := (log.putSlice call.now call.item).position } :: result.2) := by
  rw [putAll, put_of_opened opened call.now (length_lt_of_afterItem_fits fits)]

theorem length_putAll (returned : log.putAll calls = some (next, added)) :
    added.length = calls.length := by
  induction calls generalizing log added with
  | nil =>
    cases returned
    rfl
  | cons call calls ih =>
    rw [putAll] at returned
    split at returned
    · obtain ⟨⟨last, rest⟩, tailReturned, ⟨⟩⟩ := Option.map_eq_some_iff.mp returned
      rw [List.length_cons, List.length_cons, ih tailReturned]
    · cases returned

theorem files_checkRoll_of_lt (earlier : number < log.checkRoll.proNum) :
    log.checkRoll.files number = log.files number := by
  by_cases full : log.fileSize < (log.files.contents log.proNum).length
  · have rolled : log.checkRoll = log.roll := if_pos full
    rw [rolled] at earlier ⊢
    simp [roll, initLogFile, publishRoll, createNextFile, Files.newWritableFile] at earlier ⊢
    intro same
    omega
  · have stayed : log.checkRoll = log := if_neg full
    rw [stayed]

theorem Aligned.proNum_le_checkRoll (aligned : log.Aligned)
    (bounded : (log.position.writeFrom log.fileSize).filenum < 2 ^ 32) :
    log.proNum ≤ log.checkRoll.proNum := by
  rw [aligned.proNum_checkRoll bounded, ← aligned.proNum_eq, BinlogOffset.writeFrom]
  split_ifs
  · exact Nat.le_succ _
  · exact le_rfl

theorem Aligned.files_putAll (aligned : log.Aligned) (fits : log.PutsFit calls)
    (returned : log.putAll calls = some (next, added)) (earlier : number < log.proNum) :
    next.files number = log.files number := by
  induction calls generalizing log added with
  | nil =>
    cases returned
    rfl
  | cons call calls ih =>
    obtain ⟨headFits, tailFit⟩ := fits
    rw [putAll_cons aligned.opened headFits] at returned
    rw [aligned.nextPlace_eq] at headFits
    obtain ⟨⟨last, rest⟩, tailReturned, ⟨⟩⟩ := Option.map_eq_some_iff.mp returned
    have effect := aligned.putSlice_effect call.now call.item
    have nextAligned := aligned.aligned_putSlice call.now call.item headFits.kept
    have here := earlier.trans_le (aligned.proNum_le_checkRoll headFits.number)
    rw [ih nextAligned tailFit tailReturned (by rwa [effect.proNum_eq]), effect.files_eq]
    rw [← files_checkRoll_of_lt here]
    simp [Files.append, here.ne]

/-- A log whose next `Put` rolls to a number that fits. -/
structure Overfull (log : Binlog) : Prop where
  opened : log.opened = true
  proNum_eq : log.version.proNum = log.proNum
  numbered : log.proNum + 1 < 2 ^ 32
  beyond : log.fileSize < (log.files.contents log.proNum).length

namespace Overfull

variable (full : log.Overfull)

include full

theorem checkRoll_eq : log.checkRoll = log.roll := if_pos full.beyond

theorem proNum_roll : log.roll.proNum = log.proNum + 1 := by
  have bounded := full.numbered
  simp only [roll, initLogFile, publishRoll, createNextFile, castUInt32]
  omega

theorem position_roll : log.roll.position = { filenum := log.proNum + 1, offset := 0 } := by
  ext
  · rw [position_filenum, (aligned_roll log).proNum_eq, full.proNum_roll]
  · rfl

theorem nextPlace_eq (length : Nat) :
    log.nextPlace length = { filenum := log.proNum + 1, offset := recordEnd 0 length } := by
  rw [nextPlace, if_pos full.beyond, ← full.proNum_eq]
  rfl

theorem nextPlace_roll (length : Nat) : log.nextPlace length = log.roll.nextPlace length := by
  rw [(aligned_roll log).nextPlace_eq, full.position_roll,
    BinlogOffset.place, BinlogOffset.writeFrom_of_not_lt (Nat.not_lt_zero _), full.nextPlace_eq]
  rfl

/-- `Put`s do what they do on a log that has rolled: they are a journal of
their own and leave the files before it alone. -/
theorem putAll (hasCalls : calls ≠ [])
    (nonempty : ∀ call ∈ calls, call.item ≠ []) (fits : log.PutsFit calls)
    (returned : log.putAll calls = some (next, added)) :
    next.Journal { filenum := log.proNum + 1, offset := 0 } added ∧
      ∀ number ≤ log.proNum, next.files number = log.files number := by
  have stayed : log.roll.checkRoll = log.roll := by
    apply checkRoll_of_le
    rw [(aligned_roll log).size_eq]
    exact Nat.zero_le _
  have same : ∀ now item, log.putSlice now item = log.roll.putSlice now item := by
    intro now item
    rw [putSlice, putSlice, full.checkRoll_eq, stayed]
  rw [putsFit_congr same full.nextPlace_roll] at fits
  rw [putAll_congr full.opened rfl same hasCalls] at returned
  constructor
  · rw [← full.position_roll]
    exact (journal_roll log).of_putAll nonempty fits returned
  · intro number bounded
    have earlier : number < log.roll.proNum := by
      rw [full.proNum_roll]
      omega
    rw [(aligned_roll log).files_putAll fits returned earlier, ← full.checkRoll_eq]
    exact files_checkRoll_of_lt (full.checkRoll_eq ▸ earlier)

end Overfull

namespace FailedPut

variable {put : FailedPut}

section

variable (put)

theorem files_failed :
    put.failed.files = put.log.checkRoll.files.append put.filenum put.garbage := by
  rw [failed_eq]
  rfl

theorem proNum_failed : put.failed.proNum = put.filenum := by
  rw [failed_eq]
  rfl

theorem fileSize_failed : put.failed.fileSize = put.log.fileSize := by
  rw [failed_eq]
  exact checkRoll_fileSize put.log

/-- The failed `Put` began where the log is now published to end. -/
theorem position_eq :
    put.failed.position = { filenum := put.filenum, offset := put.offset } := by
  rw [position_failed]
  ext
  · exact put.journal.aligned.checkRoll.proNum_eq
  · rfl

theorem filenum_eq :
    put.filenum = (put.log.position.writeFrom put.log.fileSize).filenum :=
  put.journal.aligned.proNum_checkRoll (Nat.lt_of_succ_lt put.numbered)

theorem position_filenum_le : put.log.position.filenum ≤ put.filenum := by
  have aligned := put.journal.aligned
  rw [position_filenum, aligned.proNum_eq]
  exact aligned.proNum_le_checkRoll (Nat.lt_of_succ_lt put.numbered)

theorem filenum_lt : put.filenum + 1 < 2 ^ 32 := put.filenum_eq ▸ put.numbered

theorem length_contents :
    (put.log.checkRoll.files.contents put.filenum).length = put.offset :=
  put.journal.aligned.checkRoll.size_eq

theorem contents_failed :
    put.failed.files.contents put.filenum =
      put.log.checkRoll.files.contents put.filenum ++ put.garbage := by
  rw [put.files_failed, Files.contents_append_self]

theorem length_contents_failed :
    (put.failed.files.contents put.failed.proNum).length = put.offset + put.garbage.length := by
  rw [put.proNum_failed, put.contents_failed, List.length_append, put.length_contents]

theorem marked_position :
    Marked put.failed.files
      { filenum := put.filenum, offset := put.offset } := by
  have marked := put.journal.checkRoll.chain.marked_stop
  rw [← position_failed, position_eq] at marked
  have grows := Files.Grows.append put.log.checkRoll.files put.filenum put.garbage
  rw [files_failed]
  exact grows.marked le_rfl marked

theorem proNum_eq_failed : put.failed.version.proNum = put.failed.proNum := by
  rw [failed_eq]
  exact put.journal.aligned.checkRoll.proNum_eq

end

/-- Above the threshold, the next `Put` rolls. -/
theorem full_of_over (beyond : put.log.fileSize < put.offset + put.garbage.length) :
    put.failed.Overfull where
  opened := put.opened_failed
  proNum_eq := put.proNum_eq_failed
  numbered := put.proNum_failed.symm ▸ put.filenum_lt
  beyond := by rwa [put.fileSize_failed, put.length_contents_failed]

/-- A log that goes on in the file behind the one of the failed `Put`. -/
structure Continued (put : FailedPut) (next : Binlog) (added : List Record) : Prop where
  journal : next.Journal { filenum := put.filenum + 1, offset := 0 } added
  nonempty : added ≠ []
  files_eq : ∀ number ≤ put.filenum, next.files number = put.failed.files number

theorem continued_of_over (beyond : put.log.fileSize < put.offset + put.garbage.length)
    (hasCalls : calls ≠ []) (nonempty : ∀ call ∈ calls, call.item ≠ [])
    (fits : put.failed.PutsFit calls) (returned : put.failed.putAll calls = some (next, added)) :
    Continued put next added := by
  have full := full_of_over beyond
  obtain ⟨journal, filesEq⟩ := full.putAll hasCalls nonempty fits returned
  rw [put.proNum_failed] at journal filesEq
  refine ⟨journal, ?_, filesEq⟩
  rintro rfl
  exact hasCalls (List.length_eq_zero_iff.mp (length_putAll returned).symm)

namespace Continued

variable (continued : Continued put next added)

include continued

theorem published : next.getProducerStatus = some next.position :=
  continued.journal.aligned.getProducerStatus_eq

theorem filenum_lt_position : put.filenum < next.position.filenum :=
  continued.journal.chain.filenum_le

theorem contents_eq :
    next.files.contents put.filenum =
      put.log.checkRoll.files.contents put.filenum ++ put.garbage := by
  rw [← put.contents_failed, Files.contents, continued.files_eq _ le_rfl]
  rfl

theorem readToTheEnd_eq {reader : Reader} (standing : reader.At put.filenum put.offset) :
    reader.readToTheEnd next = false := by
  have ahead := continued.filenum_lt_position
  apply Reader.readToTheEnd_of_ne continued.published
    (show reader.At (BinlogOffset.filenum ⟨put.filenum, put.offset⟩)
      (BinlogOffset.offset ⟨put.filenum, put.offset⟩) from standing)
  intro same
  rw [same] at ahead
  exact Nat.lt_irrefl _ ahead

/-- A reader at the position of the failed `Put` finds nothing up to the end of
the file exactly if the header of the last fragment is missing. -/
theorem exhausted_iff {reader : Reader} (standing : reader.At put.filenum put.offset) :
    Exhausted (reader.entries next.files) ↔ put.made + 3 ≤
        (operations put.now put.offset true put.item).length := by
  have entriesEq : reader.entries next.files = stream reader.lastRecordOffset put.garbage := by
    simp only [Reader.entries, standing.queue_eq, SequentialFile.rest, continued.contents_eq]
    rw [← put.length_contents, List.drop_left]
  rw [entriesEq]
  exact exhausted_operations_iff put.now put.offset true put.item
    put.nonempty put.made _ standing.blockAt
    (put.journal.aligned.putFailing_spec put.returned).1

/-- From the position of the failed `Put`, a reader passes over what it left
behind if that ends nowhere. -/
theorem drains_behind (unheaded : put.made + 3 ≤
      (operations put.now put.offset true put.item).length)
    {reader : Reader} (standing : reader.At put.filenum put.offset) :
    Drains next reader added := by
  have start := continued.journal.chain.marked_start
  have number : castUInt32 ((reader.curFilenum : Int) + 1) = put.filenum + 1 := by
    rw [standing.curFilenum_eq, castUInt32_succ put.filenum_lt]
  have nextEq : reader.openNext = Reader.positioned (put.filenum + 1) 0 := by
    simp [Reader.openNext, Reader.positioned, number]
  have nextAt := Reader.at_positioned (put.filenum + 1) 0
  have rest := drains_of_chain continued.journal.chain continued.published nextAt
  apply rest.of_getLoop continued.nonempty standing.queue_ne_none nextAt.queue_ne_none
  intro output
  -- The entries end nowhere, so `Get` goes on in the next file.
  have ended := (Reader.isEndFile_consume_iff standing.queue_ne_none next.files
    { output with scratch := [] }).mpr ((continued.exhausted_iff standing).mpr unheaded)
  refine ⟨(reader.consume next.files { output with scratch := [] }).2.1, fun fuel => ?_⟩
  obtain ⟨record, others, recordsEq⟩ := List.exists_cons_of_ne_nil continued.nonempty
  rw [Reader.getLoop_succ standing.queue_ne_none (continued.readToTheEnd_eq standing),
    if_pos ended, if_pos (number ▸ start.fileExists), nextEq]
  exact Reader.getLoop_clear (recordsEq ▸ continued.journal.chain)
    continued.published nextAt rfl fuel _

/-- The records put before the failed `Put` are still there. -/
theorem chain_eq : Chain next.files put.start put.records put.log.position := by
  have aligned := put.journal.aligned
  apply put.journal.chain.mono
  rw [position_filenum, aligned.proNum_eq]
  by_cases full : put.log.fileSize < (put.log.files.contents put.log.proNum).length
  · have written : put.log.proNum < put.filenum := by
      rw [aligned.size_eq] at full
      rw [put.filenum_eq, BinlogOffset.writeFrom_of_lt full,
        BinlogOffset.nextFile_filenum, position_filenum, aligned.proNum_eq]
      exact Nat.lt_succ_self _
    apply Files.Grows.of_agree
    intro number bounded
    have earlier := Nat.lt_of_le_of_lt bounded written
    rw [continued.files_eq _ earlier.le, put.files_failed, ← files_checkRoll_of_lt earlier]
    simp [Files.append, earlier.ne]
  · have stayed : put.log.checkRoll = put.log := if_neg full
    have here : put.filenum = put.log.proNum := by
      rw [filenum, stayed]
    have agree := continued.files_eq
    rw [put.files_failed, stayed, here] at agree
    exact (Files.Grows.append _ _ _).of_agree_right agree

/-- From the position published before the failed `Put`, a reader comes to the
records put since. -/
theorem drains_before (unheaded : put.made + 3 ≤
      (operations put.now put.offset true put.item).length)
    (standing : reader.At put.log.position.filenum put.log.position.offset) :
    Drains next reader added := by
  have aligned := put.journal.aligned
  by_cases full : put.log.fileSize < put.log.version.proOffset
  · -- The failed `Put` had rolled: the reader stands at the end of a file.
    have written : put.filenum = put.log.position.filenum + 1 := by
      rw [put.filenum_eq, BinlogOffset.writeFrom_of_lt full, BinlogOffset.nextFile_filenum]
    have fileStart : put.offset = 0 := by
      rw [offset, aligned.proOffset_checkRoll,
        BinlogOffset.writeFrom_of_lt full, BinlogOffset.nextFile_offset]
    have earlier : put.log.position.filenum < put.filenum := by omega
    have ahead := continued.filenum_lt_position
    have notEnd := Reader.readToTheEnd_of_ne continued.published standing (by
        intro same
        rw [same] at ahead
        omega)
    have atEnd : (next.files.contents put.log.position.filenum).length ≤
        put.log.position.offset := by
      rw [Files.contents, continued.files_eq _ earlier.le, put.files_failed,
        Files.append, if_neg earlier.ne, files_checkRoll_of_lt earlier,
        position_filenum, aligned.proNum_eq, position_offset]
      exact aligned.size_eq.le
    have number : castUInt32 ((put.log.position.filenum : Int) + 1) = put.filenum := by
      rw [written, castUInt32_succ (written ▸ Nat.lt_of_succ_lt put.filenum_lt)]
    have present : next.files.fileExists put.filenum = true := by
      rw [Files.fileExists, continued.files_eq _ le_rfl]
      exact put.marked_position.fileExists
    have nextAt : (Reader.positioned put.filenum 0).At put.filenum put.offset :=
      fileStart ▸ Reader.at_positioned _ _
    apply (continued.drains_behind unheaded nextAt).of_getLoop
      continued.nonempty standing.queue_ne_none nextAt.queue_ne_none
    intro output
    refine ⟨output, fun fuel => ?_⟩
    exact Reader.getLoop_of_roll notEnd standing atEnd number present fuel
  · have stayed : put.log.checkRoll = put.log := if_neg (aligned.size_eq.symm ▸ full)
    apply continued.drains_behind unheaded
    have here := put.position_eq
    rw [position_failed, stayed] at here
    rwa [here] at standing

end Continued

/-- A failed `Put` that leaves the file above the threshold without the header
of the last fragment does no harm. -/
theorem harmless_of_over (beyond : put.log.fileSize < put.offset + put.garbage.length)
    (unheaded : put.made + 3 ≤ (operations put.now put.offset true put.item).length) :
    put.Harmless := by
  intro calls next added hasCalls nonempty fits returned
  have continued := continued_of_over beyond hasCalls nonempty fits returned
  constructor
  · intro earlier later split _
    have before : ∀ more, put.records = earlier ++ more → later = more ++ added →
          next.ReadsFrom (Chain.positionAfter put.start earlier) later := by
      intro more recordsEq laterEq
      have chain := continued.chain_eq
      rw [recordsEq] at chain
      have tail := chain.drop
      rw [laterEq]
      refine ⟨_, tail.marked_start.seek_eq, ?_⟩
      apply drains_of_chain_append tail continued.published _
        (fun reader => continued.drains_before unheaded)
        (Reader.at_positioned _ _)
      have ahead := continued.filenum_lt_position
      have behind := put.position_filenum_le
      rw [BinlogOffset.lt_iff]
      omega
    rcases List.append_eq_append_iff.mp split with
      ⟨more, earlierEq, addedEq⟩ | ⟨more, recordsEq, laterEq⟩
    · cases more with
      | nil => exact before [] (by simpa using earlierEq.symm) addedEq.symm
      | cons record more =>
        have journal := continued.journal
        rw [addedEq] at journal
        rw [earlierEq, Chain.positionAfter_append_cons]
        exact journal.seek_drains
    · exact before more recordsEq laterEq
  · have marked := (Files.Grows.of_agree continued.files_eq).marked le_rfl put.marked_position
    rw [put.position_eq]
    exact ⟨_, marked.seek_eq, continued.drains_behind unheaded (Reader.at_positioned _ _)⟩

end FailedPut

end Pika.Binlog
