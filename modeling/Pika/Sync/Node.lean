import Pika.Binlog.RoundTrip
import Pika.Foundation.Transition
import Pika.Replication.Terms
import Pika.Sync.Window

/-!
# A slave node and the binlog it reads

A node is added, its binlog sync is activated at the end of a record, items are
read from there into the window and handed to the write queue, and ranges are
acknowledged.  The window is what has been sent and not acknowledged as long as
no activation finds items in it and no call fails after it has read an item.
-/

namespace Pika.Sync

open Foundation
open Binlog (BinlogOffset Bytes Record)
open Replication (binlogItemWithoutContentDecode)

/-- The records of a binlog behind its first position. -/
structure BinlogRecords where
  start : BinlogOffset
  /-- The records, with the positions behind them. -/
  records : List Record
  ascending : (start :: records.map Record.position).Pairwise (· < ·)

namespace BinlogRecords

/-- The number of records in front of the end of a record, or of the first
position. -/
def cursor (log : BinlogRecords) (position : BinlogOffset) : Option Nat :=
  (log.start :: log.records.map Record.position).idxOf? position

/-- A further record. -/
def put (log : BinlogRecords) (record : Record) : Option BinlogRecords :=
  if above : ∀ position ∈ log.start :: log.records.map Record.position,
      position < record.position then
    some
      { start := log.start
        records := log.records ++ [record]
        ascending := by
          rw [List.map_append, ← List.cons_append, List.pairwise_append]
          refine ⟨log.ascending, List.pairwise_singleton _ _, ?_⟩
          intro position member other isLast
          rw [List.map_singleton, List.mem_singleton] at isLast
          exact isLast ▸ above position member }
  else none

/-- From a cursor on, positions increase from the position it was found
for. -/
theorem ascending_of_cursor {log : BinlogRecords} (found : log.cursor position = some count) :
    (position :: (log.records.drop count).map Record.position).Pairwise (· < ·) := by
  have ascending := log.ascending
  rw [cursor, List.idxOf?_eq_some_iff] at found
  obtain ⟨bound, here, -⟩ := found
  have suffix : position :: (log.records.drop count).map Record.position =
      (log.start :: log.records.map Record.position).drop count := by
    rw [List.drop_eq_getElem_cons bound, here, List.drop_succ_cons, List.map_drop]
  rw [suffix]
  exact ascending.drop

theorem mem_of_cursor {log : BinlogRecords} (found : log.cursor position = some count) :
    position ∈ log.start :: log.records.map Record.position := by
  rw [cursor, List.idxOf?_eq_some_iff] at found
  obtain ⟨bound, here, -⟩ := found
  exact here ▸ List.getElem_mem bound

theorem getElem?_eq_positionAfter {start position : BinlogOffset} {records : List Record}
    (here : (start :: records.map Record.position)[count]? = some position) :
    position = Binlog.Chain.positionAfter start (records.take count) := by
  induction count generalizing start records with
  | zero => exact (Option.some.inj here).symm
  | succ count ih =>
    cases records with
    | nil => simp at here
    | cons record records =>
      rw [List.map_cons, List.getElem?_cons_succ] at here
      exact ih here

/-- The records of a binlog as it lies in its files. -/
def ofJournal {log : Pika.Binlog} {start : BinlogOffset} {records : List Record}
    (journal : log.Journal start records) : BinlogRecords where
  start := start
  records := records
  ascending := journal.chain.ascending

/-- A reader positioned where a cursor was found returns the records behind the
cursor. -/
theorem drains_of_cursor {log : Pika.Binlog} {start position : BinlogOffset}
    {records : List Record} (journal : log.Journal start records)
    (found : (ofJournal journal).cursor position = some count) :
    ∃ reader, Binlog.Reader.seek log position.filenum position.offset = some reader ∧
        Pika.Binlog.Drains log reader (records.drop count) := by
  rw [cursor, List.idxOf?_eq_some_iff] at found
  obtain ⟨bound, here, -⟩ := found
  have place := getElem?_eq_positionAfter (List.getElem?_eq_some_iff.mpr ⟨bound, here⟩)
  rw [← List.take_append_drop count records] at journal
  rw [place]
  exact journal.seek_drains

/-- A reader at the end of the first of two records, which are in two files. -/
theorem drains_secondRecord :
    ∃ log reader, Binlog.Reader.seek log 0 9 = some reader ∧ Pika.Binlog.Drains log reader
      [{ item := List.replicate 70000 1, position := { filenum := 1, offset := 70016 } }] := by
  obtain ⟨log, journal⟩ := Binlog.exists_journal_twoFiles List.length_replicate
  exact ⟨log, drains_of_cursor journal (show cursor _ ⟨0, 9⟩ = some 1 from rfl)⟩

end BinlogRecords

/-- The number in some little-endian bytes. -/
def getFixed (bytes : Bytes) : Nat := bytes.foldr (fun byte rest => byte.toNat + 256 * rest) 0

/-- The term and the index that an item carries. -/
def logicOffset (msg : Bytes) : LogicOffset where
  term := getFixed ((msg.drop 6).take 4)
  index := getFixed ((msg.drop 10).take 8)

/-- The offset of a record that has been read. -/
def recordOffset (record : Record) : LogOffset where
  bOffset := record.position
  lOffset := logicOffset record.item

/-- An item for the write queue. -/
structure WriteTask where
  /-- The session, from `rm_node_`. -/
  sessionId : Int
  /-- `binlog_chip_.offset_`. -/
  offset : LogOffset
  binlog : Bytes
  prevOffset : LogOffset
  deriving DecidableEq, Repr

namespace SlaveNode

/-- The first part of `ActivateSlaveBinlogSync`, under the node's lock. -/
def activate (offset : LogOffset) (count : Nat) (node : SlaveNode) : SlaveNode :=
  { node with
    slaveState := .binlogSync
    sentOffset := offset
    ackedOffset := offset
    binlogReader := some count }

/-- The task for a record that has been read. -/
def writeTask (record : Record) (node : SlaveNode) : WriteTask where
  sessionId := node.sessionId
  offset := recordOffset record
  binlog := record.item
  prevOffset := node.sentOffset

/-- The node after a record has been read and its item pushed. -/
def advance (count : Nat) (record : Record) (node : SlaveNode) : SlaveNode :=
  { node with
    syncWin := node.syncWin.push (.create (recordOffset record) record.item.length)
    sentOffset := recordOffset record
    binlogReader := some (count + 1) }

/-- The loop of `ReadBinlogFileToWq` over the records in front of the reader:
the tasks, the node and whether no error came up.  `Get` fails in iteration
`failure`; an item that does not decode has left the reader. -/
def readLoop (failure : Option Nat) :
    Nat → Nat → Nat → List Record → SlaveNode → List WriteTask × SlaveNode × Bool
  | 0, _, _, _, node => ([], node, true)
  | left + 1, iteration, count, records, node =>
    if 2 * Replication.maxConnRbufHB < node.syncWin.totalSize then ([], node, true)
    else if failure = some iteration then ([], node, false)
    else
      match records with
      | [] => ([], node, true)
      | record :: records =>
        if binlogItemWithoutContentDecode record.item then
          let rest := readLoop failure left (iteration + 1) (count + 1)
            records (node.advance count record)
          (node.writeTask record :: rest.1, rest.2)
        else ([], { node with binlogReader := some (count + 1) }, false)

/-- `ReadBinlogFileToWq` up to `ProduceWriteQueue`. -/
def readBinlogFileToWq (syncWindowSize : Int) (log : BinlogRecords)
    (failure : Option Nat) (node : SlaveNode) :
    List WriteTask × SlaveNode × Bool :=
  match node.binlogReader with
  | none => ([], node, true)
  | some count =>
    readLoop failure (node.syncWin.remaining syncWindowSize).toNat 0 count
      (log.records.drop count) node

end SlaveNode

/-- The master's side of one slave of a table. -/
structure Master where
  log : BinlogRecords
  node : Option SlaveNode
  /-- The offsets handed to the write queue since the last activation. -/
  handed : List LogOffset

/-- What happens to a node. -/
inductive NodeOperation where
  /-- A record is added to the binlog. -/
  | put (record : Record)
  | addSlaveNode (sessionId : Int)
  | activateSlaveBinlogSync (offset : LogOffset)
  | readBinlogFileToWq (failure : Option Nat)
  | update (start stop : LogOffset)

namespace Master

/-- One operation.  The binlog sync is activated only at the end of a
record. -/
def step (syncWindowSize : Int) (master : Master) : NodeOperation → Option Master
  | .put record => (master.log.put record).map fun log => { master with log := log }
  | .addSlaveNode sessionId =>
    some
      { master with
        node := some (match master.node with
          | some node => { node with sessionId := sessionId }
          | none => SlaveNode.create sessionId) }
  | .activateSlaveBinlogSync offset =>
    match master.node with
    | none => some master
    | some node =>
      (master.log.cursor offset.bOffset).map fun count =>
        { master with node := some (node.activate offset count), handed := [] }
  | .readBinlogFileToWq failure =>
    match master.node with
    | none => some master
    | some node =>
      let (tasks, next, ok) := node.readBinlogFileToWq syncWindowSize master.log failure
      some
        { master with
          node := some next
          handed :=
            if ok then master.handed ++ tasks.map WriteTask.offset
            else master.handed }
  | .update start stop =>
    some
      { master with node := master.node.map fun node => (node.update start stop .zero).2.2 }

/-- A master without a node. -/
def initial (log : BinlogRecords) : Master where
  log := log
  node := none
  handed := []

end Master

/-- The window of a syncing node: the items behind the acknowledged offset up
to the sent one, all of them handed to the write queue. -/
structure InSync (handed : List LogOffset) (node : SlaveNode) : Prop where
  ascending : (node.syncWin.win.map SyncWinItem.offset).Pairwise (· < ·)
  above : ∀ offset ∈ node.syncWin.win.map SyncWinItem.offset, node.ackedOffset < offset
  last_eq : ∀ offset ∈ (node.syncWin.win.map SyncWinItem.offset).getLast?, offset = node.sentOffset
  empty_iff : node.syncWin.win = [] ↔ node.sentOffset.same node.ackedOffset = true
  handedOver : ∀ offset ∈ node.syncWin.win.map SyncWinItem.offset, offset ∈ handed

/-- A call that reads some items and then meets an error: a failing `Get` or an
item that does not decode. -/
def FailsAfter (failure : Option Nat) : Nat → Nat → Nat → Nat → List Record → Prop
  | 0, left, iteration, totalSize, records =>
    0 < left ∧ totalSize ≤ 2 * Replication.maxConnRbufHB ∧ (failure = some iteration ∨
        ∃ record ∈ records.head?, binlogItemWithoutContentDecode record.item = false)
  | read + 1, left, iteration, totalSize, records =>
    0 < left ∧ totalSize ≤ 2 * Replication.maxConnRbufHB ∧ failure ≠ some iteration ∧
        ∃ record ∈ records.head?, binlogItemWithoutContentDecode record.item = true ∧
            FailsAfter failure read (left - 1) (iteration + 1)
              (castUInt64 (totalSize + record.item.length)) records.tail

namespace Master

/-- In binlog sync, the window is as it should be. -/
def WindowHolds (master : Master) : Prop :=
  ∀ node ∈ master.node, node.slaveState = .binlogSync → InSync master.handed node

/-- An operation does not break the window: the sync is activated with an empty
window, and no call fails after it has read an item. -/
def OperationSafe (syncWindowSize : Int) (master : Master) : NodeOperation → Prop
  | .activateSlaveBinlogSync offset =>
    (master.log.cursor offset.bOffset).isSome → ∀ node ∈ master.node, node.syncWin.win = []
  | .readBinlogFileToWq failure =>
    ∀ node ∈ master.node, ∀ count ∈ node.binlogReader, ∀ read,
      ¬FailsAfter failure (read + 1) (node.syncWin.remaining syncWindowSize).toNat 0
        node.syncWin.totalSize (master.log.records.drop count)
  | .put _ | .addSlaveNode _ | .update _ _ => True

end Master

end Pika.Sync
