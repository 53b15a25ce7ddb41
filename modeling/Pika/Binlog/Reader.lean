import Pika.Binlog.Writer

/-!
# The binlog reader

`Seek` walks the records of one block up to a position; `Get` assembles the
fragments of the next item and moves to the following file at the end of the
current one.
-/

namespace Pika.Binlog

open Foundation

/-- The state of a `PikaBinlogReader`. -/
structure Reader where
  curFilenum : Nat
  curOffset : Nat
  lastRecordOffset : Nat
  /-- `queue_`, null before a `Seek`. -/
  queue : Option SequentialFile
  deriving DecidableEq, Repr

/-- The variables a caller of `Get` passes by pointer. -/
structure Output where
  scratch : Bytes
  filenum : Nat
  offset : Nat
  deriving DecidableEq, Repr

/-- What `ReadPhysicalRecord` returns, with the variables it changes. -/
structure PhysicalRecord where
  recordType : Nat
  fragment : Bytes
  output : Output
  reader : Reader

namespace Reader

/-- A reader that has not been positioned. -/
def unseeked : Reader := { curFilenum := 0, curOffset := 0, lastRecordOffset := 0, queue := none }

/-- Unread bytes of the open file. -/
def remaining (files : Files) (reader : Reader) : Nat :=
  match reader.queue with
  | none => 0
  | some file => (file.rest files).length

/-- `queue_->Read`. -/
def read (files : Files) (count : Nat) (reader : Reader) : Status × Bytes × Reader :=
  match reader.queue with
  | none => (.ioError "Not seek", [], reader)
  | some file =>
    let result := file.read files count
    (result.1, result.2.1, { reader with queue := some result.2.2 })

/-- `queue_->Skip`. -/
def skip (files : Files) (count : Nat) (reader : Reader) : Reader :=
  { reader with queue := reader.queue.map (SequentialFile.skip files count) }

/-- Whether the reader stands at the published producer position. -/
def readToTheEnd (log : Pika.Binlog) (reader : Reader) : Bool :=
  log.getProducerStatus = some { filenum := reader.curFilenum, offset := reader.curOffset }

variable {files : Files} {reader : Reader}

@[simp] theorem remaining_read (files : Files) (count : Nat) (reader : Reader) :
    (reader.read files count).2.2.remaining files = reader.remaining files - count := by
  cases opened : reader.queue with
  | none => simp [read, remaining, opened]
  | some file =>
    simp only [read, remaining, opened, SequentialFile.read,
      SequentialFile.rest, List.length_take, List.length_drop]
    omega

theorem le_remaining_of_read_ok (readOk : (reader.read files count).1 = .ok) :
    count ≤ reader.remaining files := by
  cases opened : reader.queue with
  | none => simp [read, opened] at readOk
  | some file =>
    simp only [read, opened, SequentialFile.read, List.length_take] at readOk
    simp only [remaining, opened]
    split_ifs at readOk with short
    omega

/-- A header that could be read leaves fewer bytes, whatever its payload. -/
theorem remaining_record_lt (headerOk : (reader.read files kHeaderSize).1 = .ok) (length : Nat) :
    ((reader.read files kHeaderSize).2.2.read files length).2.2.remaining
      files < reader.remaining files := by
  have enough := le_remaining_of_read_ok headerOk
  simp only [remaining_read, kHeaderSize] at enough ⊢
  omega

/-! ## Positioning -/

/-- `GetNext`: the size of the next item's records in this file, or nothing on
an error. -/
def getNext (files : Files) (offset : Nat) (reader : Reader) : Option (Nat × Reader) :=
  let headerRead := reader.read files kHeaderSize
  let length := headerLength headerRead.2.1
  let type := headerType headerRead.2.1
  let afterPayload := (headerRead.2.2.read files length).2.2
  if headerRead.1 = .ok then
    if kBlockSize - kHeaderSize < length then none
    else if type = RecordType.full.code then some (offset + (kHeaderSize + length), afterPayload)
    else if type = RecordType.first.code ∨ type = RecordType.middle.code then
      getNext files (offset + (kHeaderSize + length)) afterPayload
    else if type = RecordType.last.code ∨ type = RecordType.badRecord.code then
      some (offset + (kHeaderSize + length), afterPayload)
    else none
  else none
termination_by reader.remaining files
decreasing_by exact remaining_record_lt ‹_› _

theorem remaining_lt_of_getNext (found : reader.getNext files offset = some (size, next)) :
    next.remaining files < reader.remaining files := by
  fun_induction getNext files offset reader with
  | case1 | case5 | case6 => contradiction
  | case2 _ _ _ _ _ _ headerOk | case4 _ _ _ _ _ _ headerOk =>
    rw [← (Prod.mk.inj (Option.some.inj found)).2]
    exact remaining_record_lt headerOk _
  | case3 _ _ _ _ _ _ headerOk _ _ _ ih => exact (ih found).trans (remaining_record_lt headerOk _)

/-- The loop of `Seek` that walks from the start of a block to an offset in
it. -/
def seekLoop (files : Files) (startBlock blockOffset res : Nat) (reader : Reader) : Option Reader :=
  if blockOffset ≤ res then
    some { reader with
      curOffset := startBlock + res
      lastRecordOffset := (startBlock + res) % kBlockSize }
  else
    match _found : reader.getNext files 0 with
    | none => none
    | some next => seekLoop files startBlock blockOffset (res + next.1) next.2
termination_by reader.remaining files
decreasing_by exact remaining_lt_of_getNext _found

/-- `Seek`, with nothing for its error return. -/
def seek (log : Pika.Binlog) (filenum offset : Nat) : Option Reader :=
  if log.files.fileExists filenum then
    let opened : Reader :=
      { curFilenum := filenum
        curOffset := offset
        lastRecordOffset := filenum % kBlockSize
        queue := some { number := filenum, position := 0 } }
    let startBlock := offset / kBlockSize * kBlockSize
    seekLoop log.files startBlock (offset % kBlockSize) 0 (opened.skip log.files startBlock)
  else none

/-! ## Reading items -/

/-- Skip a block tail that cannot hold a non-empty record. -/
def skipBlockTail (files : Files) (reader : Reader) : Reader :=
  let tail := castUInt64 (kBlockSize - reader.lastRecordOffset)
  if tail ≤ kHeaderSize then
    { reader.skip files tail with curOffset := reader.curOffset + tail, lastRecordOffset := 0 }
  else reader

/-- What a header tells `ReadPhysicalRecord` to do. -/
inductive HeaderOutcome where
  /-- Return a type without reading a payload. -/
  | stop (type : RecordType)
  | payload (type length : Nat)
  deriving DecidableEq, Repr

/-- The first read of `ReadPhysicalRecord`. -/
def readHeader (files : Files) (reader : Reader) : HeaderOutcome × Reader :=
  let headerRead := reader.read files kHeaderSize
  let length := headerLength headerRead.2.1
  let type := headerType headerRead.2.1
  (if headerRead.1.isEndFile then .stop .eof
    else if headerRead.1 ≠ .ok then .stop .badRecord
    else if kBlockSize - kHeaderSize < length then .stop .badRecord
    else if type = RecordType.zero.code ∨ length = 0 then .stop .oldRecord
    else .payload type length, headerRead.2.2)

/-- The second read of `ReadPhysicalRecord`.  A payload cut short is still
returned, with the position left behind. -/
def readPayload (files : Files) (output : Output) (type length : Nat)
    (reader : Reader) : PhysicalRecord :=
  let payloadRead := reader.read files length
  let next :=
    { payloadRead.2.2 with lastRecordOffset := reader.lastRecordOffset + (kHeaderSize + length) }
  let offset := reader.curOffset + (kHeaderSize + length)
  { recordType := type
    fragment := payloadRead.2.1
    output :=
      if payloadRead.1 = .ok then { output with filenum := reader.curFilenum, offset := offset }
      else output
    reader :=
      if payloadRead.1 = .ok then { next with curOffset := offset }
      else next }

/-- `ReadPhysicalRecord` behind the block tail. -/
def readRecord (files : Files) (output : Output) (reader : Reader) : PhysicalRecord :=
  match reader.readHeader files with
  | (.stop type, next) =>
    { recordType := type.code, fragment := [], output := output, reader := next }
  | (.payload type length, next) => next.readPayload files output type length

def readPhysicalRecord (files : Files) (output : Output) (reader : Reader) : PhysicalRecord :=
  readRecord files output (reader.skipBlockTail files)

@[simp] theorem remaining_skip (files : Files) (count : Nat) (reader : Reader) :
    (reader.skip files count).remaining files = reader.remaining files - count := by
  cases opened : reader.queue with
  | none => simp [skip, remaining, opened]
  | some file =>
    simp only [skip, remaining, opened, Option.map_some,
      SequentialFile.skip, SequentialFile.rest, List.length_drop]
    omega

theorem remaining_skipBlockTail_le (files : Files) (reader : Reader) :
    (reader.skipBlockTail files).remaining files ≤ reader.remaining files := by
  simp only [skipBlockTail]
  split_ifs
  · exact (remaining_skip files _ reader).trans_le (Nat.sub_le _ _)
  · exact le_rfl

/-- The `switch` of `Consume`: the status that ends the loop, if the record
ends it, and the caller's variables. -/
def switchRecord (record : PhysicalRecord) : Option Status × Output :=
  let type := record.recordType
  let assigned := { record.output with scratch := record.fragment }
  let appended :=
    { record.output with scratch := record.output.scratch ++ record.fragment }
  if type = RecordType.full.code then (some .ok, assigned)
  else if type = RecordType.first.code then (none, assigned)
  else if type = RecordType.middle.code then (none, appended)
  else if type = RecordType.last.code then (some .ok, appended)
  else if type = RecordType.eof.code then (some (.endFile "Eof"), record.output)
  else if type = RecordType.badRecord.code then (some (.ioError "Data Corruption"), record.output)
  else if type = RecordType.oldRecord.code then (some (.endFile "Eof"), record.output)
  else (some (.ioError "Unknow reason"), record.output)

/-- A header that stops the read never continues an item. -/
theorem switchRecord_of_readHeader_stop (stopped : (reader.readHeader files).1 = .stop type) :
    (switchRecord
      { recordType := type.code, fragment := [], output := output, reader := next }).1 ≠ none := by
  simp only [readHeader] at stopped
  split_ifs at stopped <;> cases stopped <;> simp [switchRecord, RecordType.code]

/-- A payload is read only behind a header that could be read. -/
theorem read_ok_of_readHeader_payload
    (outcome : (reader.readHeader files).1 = .payload type length) :
    (reader.read files kHeaderSize).1 = .ok := by
  simp only [readHeader] at outcome
  split_ifs at outcome with _ failed
  exact not_not.mp failed

/-- A record that continues an item consumes bytes. -/
theorem remaining_readPhysicalRecord_lt (continues :
      (switchRecord (reader.readPhysicalRecord files output)).1 = none) :
    (reader.readPhysicalRecord files output).reader.remaining files < reader.remaining files := by
  refine lt_of_lt_of_le ?_ (remaining_skipBlockTail_le files reader)
  unfold readPhysicalRecord at continues ⊢
  generalize reader.skipBlockTail files = start at continues ⊢
  unfold readRecord at continues ⊢
  split at continues
  · rename_i type next stopped
    exact (switchRecord_of_readHeader_stop (congrArg Prod.fst stopped) continues).elim
  · rename_i type length next outcome
    have headerOk := read_ok_of_readHeader_payload (congrArg Prod.fst outcome)
    have nextEq : (start.read files kHeaderSize).2.2 = next := congrArg Prod.snd outcome
    have consumed := remaining_record_lt headerOk length
    rw [nextEq] at consumed
    simp only [readPayload]
    split_ifs <;> exact consumed

/-- `Consume`: assemble the fragments of one item. -/
def consume (files : Files) (output : Output) (reader : Reader) : Status × Output × Reader :=
  let record := reader.readPhysicalRecord files output
  match _continues : (switchRecord record).1 with
  | some status => (status, (switchRecord record).2, record.reader)
  | none => consume files (switchRecord record).2 record.reader
termination_by reader.remaining files
decreasing_by exact remaining_readPhysicalRecord_lt _continues

/-- Open the file after the current one. -/
def openNext (reader : Reader) : Reader :=
  let filenum := castUInt32 (reader.curFilenum + 1)
  { curFilenum := filenum
    curOffset := 0
    lastRecordOffset := 0
    queue := some { number := filenum, position := 0 } }

/-- The loop of `Get`, of at most `fuel` iterations.  Every status of
`Consume` other than the end of a file is returned as a success. -/
def getLoop (log : Pika.Binlog) : Nat → Output → Reader → Option (Status × Output × Reader)
  | 0, _, _ => none
  | fuel + 1, output, reader =>
    if reader.readToTheEnd log then some (.endFile "End of cur log file", output, reader)
    else
      let consumed := reader.consume log.files output
      if consumed.1.isEndFile then
        if log.files.fileExists (castUInt32 (consumed.2.2.curFilenum + 1)) then
          getLoop log fuel consumed.2.1 consumed.2.2.openNext
        else some (.ioError "File Does Not Exists", consumed.2)
      else some (.ok, consumed.2)

/-- `Get`, of at most `fuel` changes of file. -/
def get (log : Pika.Binlog) (fuel : Nat) (output : Output) (reader : Reader) :
    Option (Status × Output × Reader) :=
  if reader.queue = none then some (.corruption "Not seek", output, reader)
  else getLoop log fuel { output with scratch := [] } reader

end Reader
end Pika.Binlog
