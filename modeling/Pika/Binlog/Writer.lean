import Pika.Binlog.Files
import Pika.Foundation.MachineInt

/-!
# The binlog writer

`Put` rolls to a new file once the current one is larger than the threshold,
cuts the item into fragments at block boundaries and publishes the producer
position.  Appends succeed throughout; the clock is an argument.
-/

namespace Pika

open Foundation

namespace Binlog

/-- The producer status published to readers. -/
structure Version where
  /-- `pro_num_`, a 32-bit file number. -/
  proNum : Nat
  proOffset : Nat
  /-- `logic_id_`, a 64-bit count of records. -/
  logicId : Nat
  /-- `term_`, set by the consensus layer only. -/
  term : Nat
  deriving DecidableEq, Repr

end Binlog

/-- The writer's state together with the directory it writes.  `queue_` is the
file numbered `proNum`. -/
structure Binlog where
  opened : Bool
  version : Binlog.Version
  files : Binlog.Files
  proNum : Nat
  blockOffset : Nat
  fileSize : Nat

namespace Binlog

/-- The variables of the loop in `Produce`. -/
structure ProduceState where
  /-- The slices passed to `queue_->Append`, in order. -/
  appends : List Bytes
  blockOffset : Nat
  tempProOffset : Int
  /-- The bytes from `ptr` to the end of the item. -/
  left : Bytes
  isBegin : Bool

namespace ProduceState

def emitPhysicalRecord (type : RecordType) (fragment : Bytes) (now : Nat)
    (state : ProduceState) : ProduceState :=
  { state with
    appends := state.appends ++ [header type fragment.length now, fragment]
    blockOffset := state.blockOffset + (kHeaderSize + fragment.length)
    tempProOffset := castInt32 (state.tempProOffset + (kHeaderSize + fragment.length : Nat)) }

/-- Fill a block tail too short for a header with zeros and enter the next
block. -/
def closeBlock (state : ProduceState) : ProduceState :=
  let leftover := kBlockSize - state.blockOffset
  if leftover < kHeaderSize then
    if 0 < leftover then
      { state with
        appends := state.appends ++ [List.replicate leftover 0]
        tempProOffset := castInt32 (state.tempProOffset + leftover)
        blockOffset := 0 }
    else { state with blockOffset := 0 }
  else state

/-- The fragment that follows in an open block. -/
def emitFragment (now : Nat) (state : ProduceState) : ProduceState :=
  let avail := kBlockSize - state.blockOffset - kHeaderSize
  let fragmentLength := if state.left.length < avail then state.left.length else avail
  let isEnd := decide (state.left.length = fragmentLength)
  { state.emitPhysicalRecord (RecordType.ofPlace state.isBegin isEnd)
      (state.left.take fragmentLength) now with
    left := state.left.drop fragmentLength
    isBegin := false }

/-- One iteration of the loop in `Produce`. -/
@[irreducible] def produceStep (now : Nat) (state : ProduceState) : ProduceState :=
  state.closeBlock.emitFragment now

/-- Twice the bytes left, and one more while the open block has room for
nothing but a header. -/
def loopMeasure (state : ProduceState) : Nat :=
  2 * state.left.length + if state.blockOffset = kBlockSize - kHeaderSize then 1 else 0

@[simp] theorem closeBlock_left (state : ProduceState) : state.closeBlock.left = state.left := by
  unfold closeBlock
  grind

theorem closeBlock_blockOffset (state : ProduceState) :
    state.closeBlock.blockOffset = if kBlockSize - state.blockOffset < kHeaderSize then 0
      else state.blockOffset := by
  unfold closeBlock
  grind

/-- Every iteration that leaves bytes behind makes progress: it either takes a
byte or spends the last header of a block. -/
theorem loopMeasure_produceStep_lt (now : Nat) (state : ProduceState)
    (unfinished : (state.produceStep now).left ≠ []) :
    (state.produceStep now).loopMeasure < state.loopMeasure := by
  have leftPositive := List.length_pos_of_ne_nil unfinished
  simp only [loopMeasure, produceStep, emitFragment, emitPhysicalRecord,
    closeBlock_left, closeBlock_blockOffset, kBlockSize, kHeaderSize,
    List.length_drop, List.length_take] at leftPositive ⊢
  grind

end ProduceState

/-- The loop of `Produce`.  `now` gives the clock of each iteration. -/
def produceLoop (now : Nat → Nat) (state : ProduceState) : ProduceState :=
  if (state.produceStep (now 0)).left = [] then state.produceStep (now 0)
  else produceLoop (fun iteration => now (iteration + 1)) (state.produceStep (now 0))
termination_by state.loopMeasure
decreasing_by exact ProduceState.loopMeasure_produceStep_lt _ _ ‹_›

/-- Take the block offset from the size of the current file and open the
log. -/
def initLogFile (log : Binlog) : Binlog :=
  { log with blockOffset := (log.files.contents log.proNum).length % kBlockSize, opened := true }

/-- A binlog constructed over an empty directory.  The constructor leaves
`term_` as it finds it. -/
def fresh (fileSize term : Nat) : Binlog :=
  initLogFile
    { opened := false
      version := { proNum := 0, proOffset := 0, logicId := 0, term := term }
      files := Files.empty.newWritableFile 0
      proNum := 0
      blockOffset := 0
      fileSize := fileSize }

/-- The published producer position, of an open log. -/
def getProducerStatus (log : Binlog) : Option BinlogOffset :=
  if log.opened then some { filenum := log.version.proNum, offset := log.version.proOffset }
  else none

/-- First step of a roll: create the next file. -/
def createNextFile (log : Binlog) : Binlog :=
  let proNum := castUInt32 (log.proNum + 1)
  { log with proNum := proNum, files := log.files.newWritableFile proNum }

/-- Second step of a roll: publish the start of the new file. -/
def publishRoll (log : Binlog) : Binlog :=
  { log with version := { log.version with proOffset := 0, proNum := log.proNum } }

def roll (log : Binlog) : Binlog := log.createNextFile.publishRoll.initLogFile

/-- Roll when the current file is larger than the threshold. -/
def checkRoll (log : Binlog) : Binlog :=
  if log.fileSize < (log.files.contents log.proNum).length then log.roll
  else log

/-- The loop of `Produce`, started on an item. -/
def produce (now : Nat → Nat) (item : Bytes) (log : Binlog) : ProduceState :=
  produceLoop now
    { appends := []
      blockOffset := log.blockOffset
      tempProOffset := castInt32 log.version.proOffset
      left := item
      isBegin := true }

/-- Append to the current file. -/
def appendQueue (log : Binlog) (bytes : Bytes) : Binlog :=
  { log with files := log.files.append log.proNum bytes }

/-- Last step of a `Put`: publish the position after the item.  The `int` of
`Produce` is widened to 64 unsigned bits. -/
def publishPut (produced : ProduceState) (log : Binlog) : Binlog :=
  { log with
    version :=
      { log.version with
        proOffset := castUInt64 produced.tempProOffset
        logicId := (log.version.logicId + 1) % 2 ^ 64 }
    blockOffset := produced.blockOffset }

/-- `Put` of a slice whose length is an `int`. -/
def putSlice (now : Nat → Nat) (item : Bytes) (log : Binlog) : Binlog :=
  let log := log.checkRoll
  let produced := log.produce now item
  (produced.appends.foldl appendQueue log).publishPut produced

/-- `Put`.  The size of the item is passed on as an `int`; a larger item has no
meaning there and no outcome here. -/
def put (now : Nat → Nat) (item : Bytes) (log : Binlog) : Option (Status × Binlog) :=
  if log.opened = false then some (.busy "Binlog is not open yet", log)
  else if item.length < 2 ^ 31 then some (.ok, log.putSlice now item)
  else none

/-- The loop of `AppendPadding`: bad records of at most one block each.
Returns the bytes appended and the bytes left over. -/
def appendPaddingLoop (now left : Nat) : Bytes × Nat :=
  let size := if kBlockSize ≤ left then kBlockSize else left
  if left = 0 ∨ size < kHeaderSize then ([], left)
  else
    let remaining := appendPaddingLoop now (left - size)
    (header .badRecord (size - kHeaderSize) now ++
      List.replicate (size - kHeaderSize) 42 ++ remaining.1, remaining.2)
termination_by left
decreasing_by
  rename_i unfinished
  simp only [kBlockSize, kHeaderSize] at unfinished ⊢
  grind

/-- `AppendPadding`: the bytes appended, and the length brought down to the
bytes covered.  A length below one header is returned unchanged. -/
def appendPadding (now length : Nat) : Bytes × Nat :=
  if length < kHeaderSize then ([], length)
  else
    let padded := appendPaddingLoop now length
    (padded.1, length - padded.2)

/-- `SetProducerStatus`: restart the log at a position received from a
master. -/
def setProducerStatus (now proNum proOffset term index : Nat) (log : Binlog) : Status × Binlog :=
  if log.opened = false then (.busy "Binlog is not open yet", log)
  else
    let proOffset := if proOffset < 4 then 0 else proOffset
    let files := (log.files.deleteFile 0).deleteFile proNum
    let padded := appendPadding now proOffset
    (.ok, initLogFile
      { log with
        files := (files.newWritableFile proNum).append proNum padded.1
        proNum := proNum
        version :=
          { proNum := proNum, proOffset := padded.2, logicId := index, term := term } })

end Binlog
end Pika
