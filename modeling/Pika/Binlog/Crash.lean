import Pika.Binlog.ProducerStatus
import Pika.Binlog.Stream

/-!
# Crashes inside a Put

A `Put` reaches the disk as a list of elementary stores: the next file of a
roll, the slices of the item, and the four fields of the manifest one after
the other.  A crash keeps a part of the list from its start; reopening takes
the manifest as it is and cuts or fills the file it names.
-/

namespace Pika.Binlog

open Foundation
open List hiding count

/-! ## Stores -/

/-- What a crash leaves: the files and the manifest. -/
structure Disk where
  files : Files
  manifest : Version

inductive Store
  | newFile (number : Nat)
  | append (number : Nat) (bytes : Bytes)
  | proNum (value : Nat)
  | proOffset (value : Nat)
  | logicId (value : Nat)
  | term (value : Nat)

def Store.apply (disk : Disk) : Store → Disk
  | .newFile number => { disk with files := disk.files.newWritableFile number }
  | .append number bytes => { disk with files := disk.files.append number bytes }
  | .proNum value => { disk with manifest := { disk.manifest with proNum := value } }
  | .proOffset value => { disk with manifest := { disk.manifest with proOffset := value } }
  | .logicId value => { disk with manifest := { disk.manifest with logicId := value } }
  | .term value => { disk with manifest := { disk.manifest with term := value } }

def stableSave (version : Version) : List Store :=
  [.proNum version.proNum, .proOffset version.proOffset,
    .logicId version.logicId, .term version.term]

/-- The disk of a log between two operations. -/
def disk (log : Binlog) : Disk := { files := log.files, manifest := log.version }

/-- The stores of the roll in front of a `Put`. -/
def rollStores (log : Binlog) : List Store :=
  if log.fileSize < (log.files.contents log.proNum).length then
    .newFile log.createNextFile.proNum :: stableSave log.createNextFile.publishRoll.version
  else []

/-- The stores of the item's slices. -/
def sliceStores (now : Nat → Nat) (item : Bytes) (log : Binlog) : List Store :=
  (log.checkRoll.produce now item).appends.map (Store.append log.checkRoll.proNum)

/-- The stores of a `Put`, in their order. -/
def putStores (now : Nat → Nat) (item : Bytes) (log : Binlog) : List Store :=
  log.rollStores ++ (log.sliceStores now item ++ stableSave (log.putSlice now item).version)

/-- The disk after the first stores of a `Put`. -/
def crash (call : PutCall) (count : Nat) (log : Binlog) : Disk :=
  ((log.putStores call.now call.item).take count).foldl Store.apply log.disk

/-- The log that is constructed over a disk. -/
def Disk.reopen (fileSize : Nat) (disk : Disk) : Binlog :=
  openManifest fileSize disk.manifest disk.files

/-! ## Readable items -/

/-- Repeated `Get`s return the items in order and then another status than
success. -/
def Returns (log : Binlog) : Reader → List Bytes → Prop
  | reader, [] =>
    ∀ output, ∃ fuel status result,
      reader.get log fuel output = some (status, result) ∧ status ≠ .ok
  | reader, item :: items =>
    ∀ output, ∃ fuel returned next, reader.get log fuel output = some (.ok, returned, next) ∧
        returned.scratch = item ∧ Returns log next items

/-- The items a reader gets from the start of the log on. -/
def Readable (log : Binlog) (items : List Bytes) : Prop :=
  ∃ reader, Reader.seek log 0 0 = some reader ∧ Returns log reader items

/-- After a crash the items before the `Put`, or those with its item, are
readable, and the stored count is theirs. -/
def CrashConsistent (log : Binlog) (items : List Bytes) (call : PutCall)
    (count fileSize : Nat) : Prop :=
  ∃ readable, (readable = items ∨ readable = items ++ [call.item]) ∧
      Readable ((log.crash call count).reopen fileSize) readable ∧
      (log.crash call count).manifest.logicId = readable.length

variable {log next : Binlog}

/-! ## The disk after a crash -/

/-- Bytes behind the published size are cut when the file is opened. -/
theorem Files.appendWritableFile_append {files : Files} (present : files.fileExists number = true)
    (sizeEq : (files.contents number).length = size) (bytes : Bytes) :
    (files.append number bytes).appendWritableFile number size = files := by
  obtain ⟨contents, found⟩ := Option.isSome_iff_exists.mp present
  funext other
  by_cases here : other = number
  · subst here
    have contentsEq : files.contents other = contents := by simp [Files.contents, found]
    rw [contentsEq] at sizeEq
    have cut : resize size (contents ++ bytes) = contents := by
      rw [resize_of_le (by rw [length_append]; omega), ← sizeEq, take_left]
    simp [appendWritableFile, contentsEq, cut, found]
  · simp [appendWritableFile, append, here]

theorem Files.appendWritableFile_self {files : Files} (present : files.fileExists number = true)
    (sizeEq : (files.contents number).length = size) :
    files.appendWritableFile number size = files := by
  have cut := appendWritableFile_append present sizeEq []
  rwa [append_nil present] at cut

/-- Opening the files of an aligned log changes nothing. -/
theorem Aligned.appendWritableFile_eq (aligned : log.Aligned) :
    log.files.appendWritableFile log.version.proNum log.version.proOffset = log.files := by
  rw [aligned.proNum_eq]
  exact Files.appendWritableFile_self aligned.fileExists aligned.size_eq

/-- What can be found when the log is reopened after some stores of a `Put`:
the manifest, and the files once the active one is opened. -/
inductive CrashOutcome (log : Binlog) (call : PutCall) (count : Nat) : Version → Files → Prop
  | before (counted : count + 2 ≠ (log.putStores call.now call.item).length) :
      CrashOutcome log call count log.version log.files
  /-- The next file exists and is not published. -/
  | created (full : log.fileSize < log.version.proOffset)
      (counted : count + 2 ≠ (log.putStores call.now call.item).length) :
      CrashOutcome log call count log.version log.roll.files
  /-- The number of the next file stands beside the old offset. -/
  | torn (full : log.fileSize < log.version.proOffset)
      (counted : count + 2 ≠ (log.putStores call.now call.item).length) :
      CrashOutcome log call count
        { log.version with proNum := log.roll.proNum }
        (log.roll.files.appendWritableFile log.roll.proNum log.version.proOffset)
  /-- The roll is complete, and the item is not published. -/
  | rolled (counted : count + 2 ≠ (log.putStores call.now call.item).length) :
      CrashOutcome log call count log.checkRoll.version log.checkRoll.files
  /-- The item is published and not counted. -/
  | uncounted (counted : count + 2 = (log.putStores call.now call.item).length) :
      CrashOutcome log call count { (log.putSlice call.now call.item).version with
          logicId := log.version.logicId }
        (log.putSlice call.now call.item).files
  /-- The item is published and counted. -/
  | after (counted : count + 2 ≠ (log.putStores call.now call.item).length) :
      CrashOutcome log call count (log.putSlice call.now call.item).version
        (log.putSlice call.now call.item).files

/-- The files as they are once the active one is opened. -/
def Disk.openedFiles (disk : Disk) : Files :=
  disk.files.appendWritableFile disk.manifest.proNum disk.manifest.proOffset

@[simp] theorem Disk.reopen_files (fileSize : Nat) (disk : Disk) :
    (disk.reopen fileSize).files = disk.openedFiles := rfl

@[simp] theorem Disk.reopen_getProducerStatus (fileSize : Nat) (disk : Disk) :
    (disk.reopen fileSize).getProducerStatus =
      some { filenum := disk.manifest.proNum, offset := disk.manifest.proOffset } := rfl

@[simp] theorem checkRoll_logicId (log : Binlog) :
    log.checkRoll.version.logicId = log.version.logicId := by
  unfold checkRoll
  split_ifs <;> rfl

@[simp] theorem checkRoll_term (log : Binlog) :
    log.checkRoll.version.term = log.version.term := by
  unfold checkRoll
  split_ifs <;> rfl

theorem foldl_appendQueue_version (slices : List Bytes) (log : Binlog) :
    (slices.foldl appendQueue log).version = log.version := by
  induction slices generalizing log with
  | nil => rfl
  | cons slice slices ih => exact ih (log.appendQueue slice)

theorem putSlice_logicId (now : Nat → Nat) (item : Bytes) (log : Binlog) :
    (log.putSlice now item).version.logicId = (log.version.logicId + 1) % 2 ^ 64 := by
  simp [putSlice, publishPut, foldl_appendQueue_version]

theorem putSlice_term (now : Nat → Nat) (item : Bytes) (log : Binlog) :
    (log.putSlice now item).version.term = log.checkRoll.version.term := by
  simp [putSlice, publishPut, foldl_appendQueue_version]

/-- The stores of a roll make the disk of the rolled log. -/
theorem foldl_rollStores (log : Binlog) :
    log.rollStores.foldl Store.apply log.disk = log.checkRoll.disk := by
  unfold rollStores checkRoll
  split_ifs <;> rfl

theorem foldl_appendQueue_disk (slices : List Bytes) (log : Binlog) :
    (slices.map (Store.append log.proNum)).foldl Store.apply log.disk =
      (slices.foldl appendQueue log).disk := by
  induction slices generalizing log with
  | nil => rfl
  | cons slice slices ih => exact ih (log.appendQueue slice)

theorem foldl_sliceStores (now : Nat → Nat) (item : Bytes) (log : Binlog) :
    (log.sliceStores now item).foldl Store.apply log.checkRoll.disk =
      { files := (log.putSlice now item).files, manifest := log.checkRoll.version } := by
  rw [sliceStores, foldl_appendQueue_disk, disk, foldl_appendQueue_version]
  rfl

theorem length_putStores (now : Nat → Nat) (item : Bytes) (log : Binlog) :
    (log.putStores now item).length =
      log.rollStores.length + ((log.sliceStores now item).length + 4) := by
  simp [putStores, stableSave]

theorem crash_outcome_of_lt (aligned : log.Aligned) (call : PutCall)
    {count : Nat} (inRoll : count < log.rollStores.length) :
    CrashOutcome log call count (log.crash call count).manifest
      (log.crash call count).openedFiles := by
  have full : log.fileSize < (log.files.contents log.proNum).length := by
    by_contra roomy
    rw [rollStores, if_neg roomy] at inRoll
    exact Nat.not_lt_zero _ inRoll
  have stores : log.rollStores = .newFile log.createNextFile.proNum ::
        stableSave log.createNextFile.publishRoll.version := if_pos full
  have counted : count + 2 ≠ (log.putStores call.now call.item).length := by
    rw [length_putStores]
    omega
  have crashEq : log.crash call count = (log.rollStores.take count).foldl Store.apply log.disk := by
    rw [crash, putStores, take_append_of_le_length inRoll.le]
  have opened := aligned.appendWritableFile_eq
  have rollOpened := (aligned_roll log).appendWritableFile_eq
  have rolledEq : log.checkRoll = log.roll := if_pos full
  rw [aligned.size_eq] at full
  rw [stores] at inRoll
  rw [crashEq, stores]
  match count, inRoll, counted with
  | 0, _, counted =>
    have outcome := CrashOutcome.before counted
    rw [← opened] at outcome
    exact outcome
  | 1, _, counted =>
    have another : log.version.proNum ≠ log.roll.proNum := by
      rw [aligned.proNum_eq]
      exact (castUInt32_succ_ne log.proNum).symm
    have present : log.roll.files.fileExists log.version.proNum = true := by
      change (log.files.newWritableFile log.roll.proNum).fileExists _ = true
      rw [Files.fileExists_newWritableFile, aligned.proNum_eq, aligned.fileExists, Bool.or_true]
    have sizeEq : (log.roll.files.contents log.version.proNum).length = log.version.proOffset := by
      change ((log.files.newWritableFile log.roll.proNum).contents _).length = _
      rw [Files.contents_newWritableFile_of_ne _ another, aligned.proNum_eq, aligned.size_eq]
    have outcome := CrashOutcome.created full counted
    rw [← Files.appendWritableFile_self present sizeEq] at outcome
    exact outcome
  | 2, _, counted => exact CrashOutcome.torn full counted
  | 3, _, counted | 4, _, counted =>
    have outcome := CrashOutcome.rolled counted
    rw [rolledEq, ← rollOpened] at outcome
    exact outcome
  | _ + 5, inRoll, _ => exact absurd inRoll (by simp [stableSave])

/-- Behind the roll, the stores continue from the rolled log. -/
theorem crash_add_length (call : PutCall) (more : Nat) (log : Binlog) :
    log.crash call (log.rollStores.length + more) = ((log.sliceStores call.now call.item ++
        stableSave (log.putSlice call.now call.item).version).take
          more).foldl Store.apply log.checkRoll.disk := by
  rw [crash, putStores, take_length_add_append, foldl_append, foldl_rollStores]

/-- A crash before the end of the item's slices is complete leaves a part of
them, which opening cuts off. -/
theorem crash_outcome_of_slices (aligned : log.Aligned) (call : PutCall)
    (within : more ≤ (log.sliceStores call.now call.item).length)
    (countEq : count = log.rollStores.length + more) :
    CrashOutcome log call count (log.crash call count).manifest
      (log.crash call count).openedFiles := by
  have rolled := aligned.checkRoll
  have length := length_putStores call.now call.item log
  have crashEq : log.crash call count =
      { log.checkRoll.disk with
        files := log.checkRoll.files.append log.checkRoll.proNum
          ((log.checkRoll.produce call.now call.item).appends.take more).flatten } := by
    rw [countEq, crash_add_length, take_append_of_le_length within, sliceStores,
      ← map_take, foldl_appendQueue_disk, foldl_appendQueue_of_present rolled.fileExists]
    rfl
  have outcome : CrashOutcome log call count _ _ := CrashOutcome.rolled (by omega)
  rw [crashEq, Disk.openedFiles]
  change CrashOutcome log call _ log.checkRoll.version
    ((log.checkRoll.files.append _ _).appendWritableFile
      log.checkRoll.version.proNum log.checkRoll.version.proOffset)
  rwa [rolled.proNum_eq, Files.appendWritableFile_append rolled.fileExists rolled.size_eq]

theorem Version.three_saved {base next : Version} (term : next.term = base.term) :
    ({ base with
        proNum := next.proNum
        proOffset := next.proOffset
        logicId := next.logicId } : Version) = next := by
  cases base
  cases next
  simpa using term.symm

theorem Version.two_saved {base next : Version} (term : next.term = base.term) :
    ({ base with proNum := next.proNum, proOffset := next.proOffset } : Version) =
      { next with logicId := base.logicId } := by
  conv_rhs => rw [← three_saved term]

/-- A crash in the last `StableSave`: the first store repeats the file number,
the second publishes the item, the third counts it. -/
theorem crash_outcome_of_save (aligned : log.Aligned) (call : PutCall)
    (kept : (log.position.place log.fileSize call.item.length).Kept)
    (countEq : count = log.rollStores.length +
      ((log.sliceStores call.now call.item).length + (saved + 1))) :
    CrashOutcome log call count (log.crash call count).manifest
      (log.crash call count).openedFiles := by
  have rolled := aligned.checkRoll
  have effect := aligned.putSlice_effect call.now call.item
  have opened := (aligned.aligned_putSlice call.now call.item kept).appendWritableFile_eq
  have length := length_putStores call.now call.item log
  have number := effect.version_proNum_eq
  have term := putSlice_term call.now call.item log
  have crashEq : log.crash call count =
      ((stableSave (log.putSlice call.now call.item).version).take (saved + 1)).foldl Store.apply
        { files := (log.putSlice call.now call.item).files
          manifest := log.checkRoll.version } := by
    rw [countEq, crash_add_length, take_length_add_append, foldl_append,
      foldl_sliceStores]
  rw [crashEq]
  match saved with
  | 0 =>
    have manifest : ({ log.checkRoll.version with
        proNum := (log.putSlice call.now call.item).version.proNum } :
          Version) = log.checkRoll.version := by
      rw [number]
    have cut : (log.putSlice call.now call.item).files.appendWritableFile
        log.checkRoll.version.proNum log.checkRoll.version.proOffset =
        log.checkRoll.files := by
      rw [effect.files_eq, rolled.proNum_eq,
        Files.appendWritableFile_append rolled.fileExists rolled.size_eq]
    change CrashOutcome log call _
      { log.checkRoll.version with proNum := (log.putSlice call.now call.item).version.proNum }
      ((log.putSlice call.now call.item).files.appendWritableFile
        (log.putSlice call.now call.item).version.proNum
        log.checkRoll.version.proOffset)
    rw [manifest, number, cut]
    exact .rolled (by omega)
  | 1 =>
    have outcome : CrashOutcome log call count _ _ := CrashOutcome.uncounted (by omega)
    rw [← opened, ← checkRoll_logicId, ← Version.two_saved term] at outcome
    exact outcome
  | 2 =>
    have outcome : CrashOutcome log call count (log.putSlice call.now call.item).version _ :=
      CrashOutcome.after (by omega)
    rw [← opened] at outcome
    nth_rewrite 1 [← Version.three_saved term] at outcome
    exact outcome
  | more + 3 =>
    have outcome : CrashOutcome log call count _ _ := CrashOutcome.after (by omega)
    rw [← opened] at outcome
    simpa [stableSave, Store.apply, Disk.openedFiles] using outcome

theorem crash_outcome (aligned : log.Aligned) (call : PutCall)
    (kept : (log.position.place log.fileSize call.item.length).Kept) (count : Nat) :
    CrashOutcome log call count (log.crash call count).manifest
      (log.crash call count).openedFiles := by
  rcases Nat.lt_or_ge count log.rollStores.length with inRoll | behind
  · exact crash_outcome_of_lt aligned call inRoll
  · obtain ⟨more, countEq⟩ := Nat.exists_eq_add_of_le behind
    rcases Nat.lt_or_ge (log.sliceStores call.now call.item).length more with past | within
    · obtain ⟨saved, rfl⟩ := Nat.exists_eq_add_of_lt past
      exact crash_outcome_of_save aligned call kept countEq
    · exact crash_outcome_of_slices aligned call within countEq

/-! ## What a reader returns -/

variable {records : List Record}

theorem Returns.unique (firstReturns : Returns log reader first)
    (secondReturns : Returns log reader second) :
    first = second := by
  let output : Output := { scratch := [], filenum := 0, offset := 0 }
  induction first generalizing reader second with
  | nil =>
    obtain ⟨fuel, status, result, got, failed⟩ := firstReturns output
    cases second with
    | nil => rfl
    | cons item items =>
      obtain ⟨_, _, _, gotItem, -⟩ := secondReturns output
      have same := Reader.get_unique got gotItem
      exact absurd (congrArg Prod.fst same) failed
  | cons item items ih =>
    obtain ⟨fuel, returned, next, got, itemEq, later⟩ := firstReturns output
    cases second with
    | nil =>
      obtain ⟨_, _, _, gotEnd, failed⟩ := secondReturns output
      have same := Reader.get_unique gotEnd got
      exact absurd (congrArg Prod.fst same) failed
    | cons other others =>
      obtain ⟨_, _, _, gotOther, otherEq, otherLater⟩ := secondReturns output
      cases Reader.get_unique got gotOther
      rw [← itemEq, ← otherEq, ih later otherLater]

/-- A reader in a chain returns its items and then what follows the chain. -/
theorem returns_of_chain (chain : Chain log.files start records stop)
    (published : log.getProducerStatus = some status) (beyond : ¬status < stop)
    (ended : ∀ reader : Reader, reader.At stop.filenum stop.offset → Returns log reader [])
    (standing : reader.At start.filenum start.offset) :
    Returns log reader (records.map Record.item) := by
  induction records generalizing start reader with
  | nil =>
    have same := chain.eq_of_nil
    subst same
    exact ended reader standing
  | cons record records ih =>
    intro output
    obtain ⟨fuel, next, nextAt, returned⟩ := get_of_chain chain published beyond standing output
    exact ⟨fuel, _, next, returned, rfl, ih chain.uncons.2 nextAt⟩

theorem returns_nil_of_end (published : log.getProducerStatus = some stop)
    (standing : reader.At stop.filenum stop.offset) :
    Returns log reader [] := by
  intro output
  refine ⟨1, .endFile "End of cur log file", ({ output with scratch := [] }, reader), ?_, by simp⟩
  rw [get_of_queue standing.queue_ne_none]
  exact Reader.getLoop_of_end published standing 0

/-- At the end of a file, everything depends on the next one. -/
theorem returns_nil_of_roll (published : log.getProducerStatus = some status)
    (different : status ≠ stop) (standing : reader.At stop.filenum stop.offset)
    (atEnd : (log.files.contents stop.filenum).length ≤ stop.offset)
    (nextNumber : castUInt32 ((stop.filenum : Int) + 1) = number)
    (present : log.files.fileExists number = true)
    (ended : Returns log (Reader.positioned number 0) []) :
    Returns log reader [] := by
  intro output
  obtain ⟨fuel, ending, result, got, failed⟩ := ended output
  refine ⟨fuel + 1, ending, result, ?_, failed⟩
  rw [get_of_queue standing.queue_ne_none, Reader.getLoop_of_roll
    (Reader.readToTheEnd_of_ne published standing different) standing atEnd
    nextNumber present, ← got]
  exact (get_of_queue (Reader.at_positioned number 0).queue_ne_none fuel output).symm

/-- A file of zeros holds no record. -/
theorem Reader.consume_zeros {files : Files} (zeros : files.contents number = List.replicate size 0)
    (output : Output) :
    ((positioned number 0).consume files output).1.isEndFile = true ∧
      ((positioned number 0).consume files output).2.2.curFilenum = number := by
  have facing : Facing files (positioned number 0) 0 (List.replicate size 0) :=
    ⟨rfl, _, rfl, by rw [SequentialFile.rest, zeros]; rfl⟩
  obtain ⟨assembled, sameFile⟩ := facing.consume output
  refine ⟨?_, sameFile⟩
  rw [congrArg Prod.fst assembled]
  have start : pastTail 0 (List.replicate size 0) = (0, List.replicate size 0) := by
    rw [pastTail]
    exact if_neg (by decide)
  by_cases short : size < kHeaderSize
  · rw [stream_of_none (by simp [start, Entry.ofBytes, short])]
    rfl
  · have blank : headerLength (List.replicate kHeaderSize 0) = 0 := by decide
    have found : Entry.ofBytes (pastTail 0 (List.replicate size 0)).2 = some .blank := by
      simp [start, Entry.ofBytes, Nat.le_of_not_lt short, blank, List.take_replicate]
    rw [stream_of_mark found (by simp)]
    rfl

theorem returns_nil_of_zeros {number size : Nat} (published : log.getProducerStatus =
      some { filenum := number, offset := size })
    (positive : 0 < size)
    (zeros : log.files.contents number = List.replicate size 0)
    (absent : log.files.fileExists (castUInt32 ((number : Int) + 1)) = false) :
    Returns log (Reader.positioned number 0) [] := by
  intro output
  have standing := Reader.at_positioned number 0
  have different : ({ filenum := number, offset := size } : BinlogOffset) ≠
      { filenum := number, offset := 0 } := by
    simp [positive.ne']
  obtain ⟨ended, sameFile⟩ := Reader.consume_zeros zeros { output with scratch := [] }
  refine ⟨1, .ioError "File Does Not Exists",
    ((Reader.positioned number 0).consume log.files { output with scratch := [] }).2, ?_, by simp⟩
  rw [get_of_queue standing.queue_ne_none, Reader.getLoop,
    Reader.readToTheEnd_of_ne published standing different]
  simp [ended, sameFile, absent]

/-- Items are readable from the start of a chain. -/
theorem readable_of_chain (chain : Chain log.files { filenum := 0, offset := 0 } records stop)
    (published : log.getProducerStatus = some status) (beyond : ¬status < stop)
    (ended : ∀ reader : Reader, reader.At stop.filenum stop.offset → Returns log reader []) :
    Readable log (records.map Record.item) :=
  ⟨_, chain.marked_start.seek_eq,
    returns_of_chain chain published beyond ended (Reader.at_positioned 0 0)⟩

/-! ## Counted journals -/

/-- A journal from the start of a fresh log: its records are counted, and there
is no file behind the current one. -/
structure Counted (log : Binlog) (records : List Record) : Prop where
  journal : log.Journal { filenum := 0, offset := 0 } records
  logicId_eq : log.version.logicId = records.length % 2 ^ 64
  absent : ∀ number, log.proNum < number → log.files number = none

theorem counted_fresh (fileSize term : Nat) : (fresh fileSize term).Counted [] where
  journal := journal_fresh fileSize term
  logicId_eq := rfl
  absent number behind := by
    have other : number ≠ 0 := Nat.ne_of_gt behind
    simp [fresh, initLogFile, Files.newWritableFile, Files.empty, other]

theorem absent_checkRoll (aligned : log.Aligned)
    (absent : ∀ number, log.proNum < number → log.files number = none)
    (numberFits : (log.position.writeFrom log.fileSize).filenum < 2 ^ 32)
    (behind : log.checkRoll.proNum < number) :
    log.checkRoll.files number = none := by
  by_cases full : log.fileSize < log.version.proOffset
  · obtain ⟨rolled, -, rollNumber⟩ := aligned.proNum_roll full numberFits
    rw [rolled] at behind ⊢
    change (if number = log.roll.proNum then some [] else log.files number) = none
    rw [if_neg behind.ne', absent number (by omega)]
  · have stayed : log.checkRoll = log := if_neg (aligned.size_eq.symm ▸ full)
    rw [stayed] at behind ⊢
    exact absent number behind

theorem Counted.putSlice (counted : log.Counted records) (now : Nat → Nat) (nonempty : item ≠ [])
    (fits : (log.position.place log.fileSize item.length).Fits) :
    (log.putSlice now item).Counted
      (records ++ [{ item := item, position := log.position.place log.fileSize item.length }]) := by
  have aligned := counted.journal.aligned
  have effect := aligned.putSlice_effect now item
  refine ⟨counted.journal.putSlice now nonempty fits.number fits.kept, ?_, ?_⟩
  · rw [putSlice_logicId, counted.logicId_eq, length_append, length_singleton]
    omega
  · intro number behind
    rw [effect.proNum_eq] at behind
    rw [effect.files_eq]
    have gone := absent_checkRoll aligned counted.absent fits.number behind
    simp [Files.append, behind.ne', gone]

theorem Counted.putAll (counted : log.Counted records) (nonempty : ∀ call ∈ calls, call.item ≠ [])
    (fits : AllFit log.fileSize log.position calls) (putEq : log.putAll calls = some (next, outs)) :
    next.Counted (records ++ outs) ∧ outs.map Record.item = calls.map PutCall.item := by
  induction calls generalizing log records outs with
  | nil =>
    cases putEq
    exact ⟨by rwa [List.append_nil], rfl⟩
  | cons call calls ih =>
    obtain ⟨headFits, tailFit⟩ := allFit_cons.mp fits
    have aligned := counted.journal.aligned
    have nextPosition := (aligned.putSlice call.now call.item headFits.number headFits.kept).2
    have nextSize := putSlice_fileSize aligned call.now call.item
    rw [Binlog.putAll, put_of_opened aligned.opened call.now
      (length_lt_of_fits headFits)] at putEq
    obtain ⟨⟨last, tail⟩, tailEq, ⟨⟩⟩ := Option.map_eq_some_iff.mp putEq
    obtain ⟨tailCounted, items⟩ := ih
      (counted.putSlice call.now (nonempty call mem_cons_self) headFits)
      (fun other member => nonempty other (mem_cons_of_mem _ member))
      (by rwa [nextPosition, nextSize]) tailEq
    refine ⟨?_, by simp [items]⟩
    rw [nextPosition]
    simpa using tailCounted

/-- A position as one number, in which offsets take 31 bits. -/
def BinlogOffset.linear (position : BinlogOffset) : Nat :=
  position.filenum * 2 ^ 31 + position.offset

theorem BinlogOffset.Fits.linear_lt {position : BinlogOffset} (fits : position.Fits) :
    position.linear < 2 ^ 63 := by
  obtain ⟨number, offset⟩ := fits
  unfold linear
  omega

theorem BinlogOffset.Fits.linear_lt_linear {first second : BinlogOffset}
    (fits : first.Fits) (earlier : first < second) :
    first.linear < second.linear := by
  have offset := fits.2
  unfold linear
  rcases BinlogOffset.lt_iff.mp earlier with number | ⟨same, less⟩
  · calc first.filenum * 2 ^ 31 + first.offset
        < first.filenum * 2 ^ 31 + 2 ^ 31 := Nat.add_lt_add_left offset _
      _ = (first.filenum + 1) * 2 ^ 31 := (Nat.succ_mul _ _).symm
      _ ≤ second.filenum * 2 ^ 31 := Nat.mul_le_mul_right _ number
      _ ≤ second.filenum * 2 ^ 31 + second.offset := Nat.le_add_right _ _
  · rw [same]
    exact Nat.add_lt_add_left less _

/-- Positions that fit leave room for fewer than `2 ^ 63` records. -/
theorem AllFit.length_lt {fileSize : Nat} {position : BinlogOffset}
    {calls : List PutCall} (here : position.Fits) (fits : AllFit fileSize position calls) :
    position.linear + calls.length < 2 ^ 63 := by
  induction calls generalizing position with
  | nil => simpa only [length_nil, Nat.add_zero] using here.linear_lt
  | cons call calls ih =>
    obtain ⟨headFits, tailFit⟩ := allFit_cons.mp fits
    have later := ih headFits tailFit
    have grows := here.linear_lt_linear (position.lt_place fileSize call.item.length)
    simp only [length_cons]
    omega

/-- The position behind the last of some calls that fit, fits. -/
theorem AllFit.last_fits {fileSize : Nat} {position : BinlogOffset}
    {calls : List PutCall} {call : PutCall} (fits : AllFit fileSize position (calls ++ [call])) :
    ((Chain.positionAfter position (idealRecords fileSize position calls)).place fileSize
        call.item.length).Fits := by
  induction calls generalizing position with
  | nil => exact (allFit_cons.mp fits).1
  | cons other calls ih => exact ih (allFit_cons.mp fits).2

/-! ## Crashes of a counted journal -/

/-- The records stay where the files up to the current one do. -/
theorem Counted.chain_of_agree {files : Files} (counted : log.Counted records)
    (agree : ∀ number ≤ log.proNum, files number = log.files number) :
    Chain files { filenum := 0, offset := 0 } records log.position := by
  refine counted.journal.chain.mono ?_
  rw [position_filenum, counted.journal.aligned.proNum_eq]
  exact Files.Grows.of_agree agree

/-- What is readable of the records where their end is published. -/
theorem Counted.readable_of_agree {reopened : Binlog} (counted : log.Counted records)
    (agree : ∀ number ≤ log.proNum, reopened.files number = log.files number)
    (published : reopened.getProducerStatus = some log.position) :
    Readable reopened (records.map Record.item) :=
  readable_of_chain (counted.chain_of_agree agree) published
    (BinlogOffset.lt_irrefl _) fun _ standing => returns_nil_of_end published standing

/-- What is readable of the records where a next file without an item is
published. -/
theorem Counted.readable_of_next {reopened : Binlog}
    (counted : log.Counted records) (room : log.proNum + 2 < 2 ^ 32)
    (agree : ∀ number ≤ log.proNum, reopened.files number = log.files number)
    (zeros : reopened.files (log.proNum + 1) = some (List.replicate size 0))
    (absent : reopened.files (log.proNum + 2) = none) (published : reopened.getProducerStatus =
      some { filenum := log.proNum + 1, offset := size }) :
    Readable reopened (records.map Record.item) := by
  have aligned := counted.journal.aligned
  have nextNumber : castUInt32 ((log.position.filenum : Int) + 1) = log.proNum + 1 := by
    rw [position_filenum, aligned.proNum_eq, castUInt32_succ (Nat.lt_of_succ_lt room)]
  have contentsEq : reopened.files.contents (log.proNum + 1) = List.replicate size 0 := by
    rw [Files.contents, zeros, Option.getD_some]
  have ended : Returns reopened (Reader.positioned (log.proNum + 1) 0) [] := by
    rcases Nat.eq_zero_or_pos size with rfl | positive
    · exact returns_nil_of_end published (Reader.at_positioned _ _)
    · refine returns_nil_of_zeros published positive contentsEq ?_
      rw [castUInt32_succ room, Files.fileExists, absent, Option.isSome_none]
  refine readable_of_chain (counted.chain_of_agree agree) published ?_ ?_
  · rw [BinlogOffset.lt_iff, position_filenum, aligned.proNum_eq]
    simp
  · intro reader standing
    refine returns_nil_of_roll published ?_ standing ?_ nextNumber ?_ ended
    · intro same
      have sameNumber := congrArg BinlogOffset.filenum same
      rw [position_filenum, aligned.proNum_eq] at sameNumber
      exact Nat.succ_ne_self _ sameNumber
    · rw [position_filenum, aligned.proNum_eq, Files.contents,
        agree _ le_rfl, ← Files.contents, aligned.size_eq, position_offset]
    · rw [Files.fileExists, zeros, Option.isSome_some]

/-- A crash of a counted journal is consistent except between the stores of
the offset and of the count. -/
theorem Counted.crashConsistent_iff (counted : log.Counted records) (nonempty : call.item ≠ [])
    (fits : (log.position.place log.fileSize call.item.length).Fits)
    (room : log.proNum + 2 < 2 ^ 32) (few : records.length + 1 < 2 ^ 64) (count fileSize : Nat) :
    log.CrashConsistent (records.map Record.item) call count fileSize ↔
      count + 2 ≠ (log.putStores call.now call.item).length := by
  have aligned := counted.journal.aligned
  have after := counted.putSlice call.now nonempty fits
  have countEq : log.version.logicId = records.length := by
    rw [counted.logicId_eq, Nat.mod_eq_of_lt (by omega)]
  have rollNumber : log.roll.proNum = log.proNum + 1 := castUInt32_succ (Nat.lt_of_succ_lt room)
  have rollFiles : log.roll.files = log.files.newWritableFile (log.proNum + 1) := by
    rw [← rollNumber]
    rfl
  have agreeRoll : ∀ number ≤ log.proNum, log.roll.files number = log.files number := by
    intro number bounded
    rw [rollFiles]
    exact if_neg (by omega)
  have behindRoll : log.roll.files (log.proNum + 2) = none := by
    rw [rollFiles]
    exact (if_neg (by omega)).trans (counted.absent _ (by omega))
  have outcome := crash_outcome aligned call fits.kept count
  unfold CrashConsistent
  have filesEq := Disk.reopen_files fileSize (log.crash call count)
  have published := Disk.reopen_getProducerStatus fileSize (log.crash call count)
  generalize (log.crash call count).reopen fileSize = reopened at filesEq published ⊢
  generalize (log.crash call count).openedFiles = files at filesEq outcome
  generalize (log.crash call count).manifest = manifest at published outcome ⊢
  have unharmed (readable : Readable reopened (records.map Record.item))
      (same : manifest.logicId = log.version.logicId) :
      ∃ readable, (readable = records.map Record.item ∨
          readable = records.map Record.item ++ [call.item]) ∧
        Readable reopened readable ∧ manifest.logicId = readable.length :=
    ⟨_, .inl rfl, readable, by rw [same, countEq, length_map]⟩
  cases outcome with
  | before unequal =>
    refine iff_of_true (unharmed ?_ rfl) unequal
    exact counted.readable_of_agree (fun number _ => by rw [filesEq]) published
  | created full unequal =>
    refine iff_of_true (unharmed ?_ rfl) unequal
    exact counted.readable_of_agree (by rwa [filesEq]) published
  | torn full unequal =>
    refine iff_of_true (unharmed ?_ rfl) unequal
    rw [rollNumber] at filesEq published
    refine counted.readable_of_next room ?_ ?_ ?_ published
    · intro number bounded
      rw [filesEq, ← agreeRoll number bounded]
      exact if_neg (by omega)
    · rw [filesEq, Files.appendWritableFile, if_pos rfl, rollFiles,
        Files.contents_newWritableFile_self]
      simp [resize]
    · rw [filesEq, ← behindRoll]
      exact if_neg (by omega)
  | rolled unequal =>
    refine iff_of_true (unharmed ?_ (checkRoll_logicId log)) unequal
    by_cases full : log.fileSize < (log.files.contents log.proNum).length
    · have rolledEq : log.checkRoll = log.roll := if_pos full
      have rollStart : log.roll.version.proNum = log.proNum + 1 := by
        rw [(aligned_roll log).proNum_eq, rollNumber]
      rw [rolledEq, rollStart] at published
      rw [rolledEq] at filesEq
      refine counted.readable_of_next room ?_ ?_ ?_ published
      · rwa [filesEq]
      · rw [filesEq, rollFiles]
        exact if_pos rfl
      · rwa [filesEq]
    · have stayed : log.checkRoll = log := if_neg full
      rw [stayed] at published filesEq
      exact counted.readable_of_agree (fun number _ => by rw [filesEq]) published
  | uncounted equal =>
    refine iff_of_false ?_ (not_not.mpr equal)
    rintro ⟨readable, -, ⟨reader, sought, returns⟩, countedEq⟩
    obtain ⟨other, otherSought, otherReturns⟩ := after.readable_of_agree
      (fun number _ => by rw [filesEq]) published
    rw [sought] at otherSought
    cases otherSought
    have same := returns.unique otherReturns
    rw [same, countEq] at countedEq
    simp at countedEq
  | after unequal =>
    refine iff_of_true ⟨_, .inr rfl, ?_, ?_⟩ unequal
    · have whole := after.readable_of_agree (fun number _ => by rw [filesEq]) published
      simpa using whole
    · rw [putSlice_logicId, countEq, Nat.mod_eq_of_lt few]
      simp

/-- After `Put`s on a fresh log whose positions fit, a crash inside the next
one leaves the items before it or those with it, counted, unless it falls
between the store of the offset and the store of the count. -/
theorem crashConsistent_iff_counted (fileSize term reopenedSize : Nat)
    {calls : List PutCall} {call : PutCall} {log : Binlog} {records : List Record}
    (nonempty : ∀ other ∈ calls ++ [call], other.item ≠ [])
    (fits : AllFit fileSize { filenum := 0, offset := 0 } (calls ++ [call]))
    (putEq : (fresh fileSize term).putAll calls = some (log, records))
    (room : log.proNum + 2 < 2 ^ 32) (count : Nat) :
    log.CrashConsistent (calls.map PutCall.item) call count reopenedSize ↔
      count + 2 ≠ (log.putStores call.now call.item).length := by
  have startFits : ({ filenum := 0, offset := 0 } : BinlogOffset).Fits := by decide
  have earlierNonempty : ∀ other ∈ calls, other.item ≠ [] :=
    fun other member => nonempty other (mem_append_left _ member)
  have earlierFit := allFit_of_append fits
  have few := fits.length_lt startFits
  rw [length_append, length_singleton] at few
  obtain ⟨next, nextEq, sizeEq, journal⟩ :=
    (journal_fresh fileSize term).putAll earlierNonempty earlierFit
  rw [putEq] at nextEq
  cases nextEq
  obtain ⟨counted, items⟩ := (counted_fresh fileSize term).putAll earlierNonempty earlierFit putEq
  rw [nil_append] at counted
  have lengthEq := congrArg List.length items
  rw [length_map, length_map] at lengthEq
  rw [← items]
  refine counted.crashConsistent_iff (nonempty call (by simp)) ?_ room ?_ count reopenedSize
  · rw [sizeEq, ← journal.chain.positionAfter_eq_stop]
    exact fits.last_fits
  · omega

/-- A call that puts one byte. -/
def oneByte : PutCall := { item := [1], now := fun _ => 0 }

/-- A crash inside the roll of a second `Put`, where the number of the next file
stands beside the old offset, leaves the first item. -/
theorem crashConsistent_inRoll :
    ∃ log records, (fresh 0 0).putAll [oneByte] = some (log, records) ∧
      2 < log.rollStores.length ∧ log.CrashConsistent [[1]] oneByte 2 0 := by
  have nonempty : ∀ other ∈ [oneByte] ++ [oneByte], other.item ≠ [] := by simp [oneByte]
  have fits : AllFit 0 { filenum := 0, offset := 0 } ([oneByte] ++ [oneByte]) := by decide +kernel
  obtain ⟨log, putEq, sizeEq, journal⟩ :=
    (journal_fresh 0 0).putAll (by simp [oneByte]) (allFit_of_append fits)
  have position : log.position = { filenum := 0, offset := 9 } := by
    rw [← journal.chain.positionAfter_eq_stop]
    decide +kernel
  have number : log.proNum = 0 :=
    journal.aligned.proNum_eq.symm.trans (congrArg BinlogOffset.filenum position)
  have size : (log.files.contents log.proNum).length = 9 :=
    journal.aligned.size_eq.trans (congrArg BinlogOffset.offset position)
  have rolls : log.rollStores.length = 5 := by
    rw [rollStores, sizeEq, size, if_pos (by decide)]
    rfl
  refine ⟨log, _, putEq, by omega, ?_⟩
  refine (crashConsistent_iff_counted 0 0 0 nonempty fits putEq (by omega) 2).mpr ?_
  rw [length_putStores]
  omega

/-- A crash between the stores of the offset and of the count leaves one item
and a count of zero. -/
theorem not_crashConsistent_uncounted :
    ¬(fresh 104857600 0).CrashConsistent [] oneByte
      (((fresh 104857600 0).putStores oneByte.now oneByte.item).length - 2)
      104857600 := by
  have nonempty : oneByte.item ≠ [] := cons_ne_nil _ _
  have fits : ((fresh 104857600 0).position.place (fresh 104857600 0).fileSize
      oneByte.item.length).Fits := by
    decide +kernel
  have stores := length_putStores oneByte.now oneByte.item (fresh 104857600 0)
  intro holds
  have unequal := ((counted_fresh 104857600 0).crashConsistent_iff nonempty
    fits (by decide) (by decide) _ 104857600).mp holds
  omega

end Pika.Binlog
