import Mathlib.Logic.Function.Basic
import Pika.Foundation.Batches
import Pika.Partition.Lookup
import Pika.Sync.Node

/-!
# Shipping the binlog to a slave

The master's side of one slave with all its tables, and the slave's side of
each table.  The tables share the write queues of the slave: one queue for each
partition number, all of them erased together.

A step is what a thread does between two uses of a lock.  The slave's handlers
of answers make their calls one by one, and its worker looks at the state and
at the session of an item and writes it in steps of their own.
-/

namespace Pika.Replication

open Foundation
open Binlog (Bytes Record)
open Function (update)
open Partition (PartitionInfo)
open Sync (BinlogRecords LogOffset)

/-! ## Batches -/

/-- An item on its way to the slave; a keepalive has an empty binlog. -/
structure WriteTask extends Sync.WriteTask where
  /-- The table, from `rm_node_`. -/
  info : PartitionInfo
  /-- The number of the `first_send` for which the item was read. -/
  ticket : Nat
  /-- The number of records in front of the item. -/
  place : Nat
  deriving DecidableEq

/-- The bytes that a task counts in a batch. -/
def WriteTask.size (task : WriteTask) : Nat := task.binlog.length

/-- The loop that fills a batch; `batch_size` is an `int`. -/
def fillBatch : Nat → Int → List WriteTask → List WriteTask × List WriteTask
  | 0, _, queue => ([], queue)
  | _ + 1, _, [] => ([], [])
  | count + 1, batchSize, task :: queue =>
    let batchSize := castInt32 (batchSize + task.binlog.length)
    if batchSize > maxConnRbufHB then ([], task :: queue)
    else
      let filled := fillBatch count batchSize queue
      (task :: filled.1, filled.2)

/-- The loop over the batches of a queue. -/
def fillPackets : Nat → List WriteTask → List (List WriteTask) × List WriteTask
  | 0, queue => ([], queue)
  | _ + 1, [] => ([], [])
  | count + 1, task :: queue =>
    let queue := task :: queue
    let batchIndex :=
      if queue.length > kBinlogSendBatchNum then kBinlogSendBatchNum
      else queue.length
    let toSend := fillBatch batchIndex 0 queue
    let later := fillPackets count toSend.2
    (if toSend.1.isEmpty then later.1 else toSend.1 :: later.1, later.2)

/-- A size, as the `int` sees it, is at most `PIKA_MAX_CONN_RBUF_HB`. -/
def fitsAsInt (size : Nat) : Bool := castInt32 size ≤ maxConnRbufHB

/-- A batch is cut from the queue as the `int` sees its size. -/
theorem fillBatch_eq_cutBatch (count size : Nat) (queue : List WriteTask) :
    fillBatch count (castInt32 size) queue =
      cutBatch WriteTask.size fitsAsInt count size queue := by
  induction count generalizing size queue with
  | zero => rfl
  | succ count ih =>
    cases queue with
    | nil => rfl
    | cons task queue =>
      have grown : castInt32 (castInt32 size + task.binlog.length) =
          castInt32 ((size + task.size : Nat) : Int) := by
        rw [castInt32_castInt32_add, Nat.cast_add]
        rfl
      rw [fillBatch]
      simp only [grown]
      split_ifs with beyond
      · rw [cutBatch_cons_of_not_fits]
        exact decide_eq_false (not_le.mpr beyond)
      · rw [cutBatch_cons_of_fits, ih]
        exact decide_eq_true (not_lt.mp beyond)

/-- The batches of a call are those of one round. -/
theorem fillPackets_eq_cutBatches (count : Nat) (queue : List WriteTask) :
    fillPackets count queue =
      cutBatches WriteTask.size fitsAsInt kBinlogSendBatchNum count queue := by
  induction count generalizing queue with
  | zero => rfl
  | succ count ih =>
    cases queue with
    | nil => rw [fillPackets, cutBatches_nil]
    | cons task queue =>
      have filled : fillBatch (if (task :: queue).length > kBinlogSendBatchNum then
            kBinlogSendBatchNum else (task :: queue).length)
          0 (task :: queue) =
          cutBatch WriteTask.size fitsAsInt kBinlogSendBatchNum 0 (task :: queue) := by
        rw [show (0 : Int) = castInt32 (0 : Nat) from rfl, fillBatch_eq_cutBatch]
        split_ifs with long
        · rfl
        · exact cutBatch_length 0 (Nat.not_lt.mp long)
      rw [fillPackets, cutBatches]
      simp only [filled, ih]

/-- Batches and the queue behind them are the queue, in order. -/
theorem fillPackets_append (count : Nat) (queue : List WriteTask) :
    (fillPackets count queue).1.flatten ++ (fillPackets count queue).2 = queue := by
  rw [fillPackets_eq_cutBatches]
  exact cutBatches_append _ _ _ count queue

/-! ## The master's node -/

/-- The master's node for the slave of a table. -/
structure ShippingNode extends Sync.SlaveNode where
  /-- The number of the `first_send` that set the reader. -/
  ticket : Nat
  deriving DecidableEq

namespace ShippingNode

/-- A new node. -/
def create (sessionId : Int) : ShippingNode where
  toSlaveNode := Sync.SlaveNode.create sessionId
  ticket := 0

/-- `SlaveNode::Update`. -/
def update (start stop : LogOffset) (node : ShippingNode) : ShippingNode :=
  { node with toSlaveNode := (node.toSlaveNode.update start stop .zero).2.2 }

end ShippingNode

/-- A `first_send` request under way. -/
structure FirstSend where
  session : Int
  offset : LogOffset
  ticket : Nat
  /-- `CheckSessionId` has returned true. -/
  checked : Bool
  deriving DecidableEq

/-- An item that was read for a `first_send` and will not be sent. -/
structure Loss where
  ticket : Nat
  place : Nat
  deriving DecidableEq

/-- A task that is dropped. -/
def WriteTask.loss (task : WriteTask) : Loss where
  ticket := task.ticket
  place := task.place

/-! ## The slave's side -/

/-- What the slave has accepted since its last `first_send`. -/
structure Acceptance where
  /-- The number of the request. -/
  ticket : Nat
  /-- The number of the master's records in front of its offset. -/
  base : Nat
  accepted : List Bytes
  deriving DecidableEq

/-- `SyncSlavePartition`. -/
structure SlavePartition extends Acceptance where
  replState : SlavePartitionState
  /-- `MasterSessionId()`. -/
  session : Int
  deriving DecidableEq

/-- A call of a handler of answers. -/
inductive SlaveCall where
  | setMasterSessionId (session : Int)
  /-- `SendPartitionBinlogSyncAckRequest` with `is_first_send`. -/
  | sendFirstSend
  | setReplState (state : SlavePartitionState)
  deriving DecidableEq

/-- `HandleTrySyncResponse`, for an answer with a session. -/
def handleTrySyncResponse (session : Int) : List SlaveCall :=
  [.setMasterSessionId session, .sendFirstSend, .setReplState .kConnected]

/-- `HandleDBSyncResponse`, for an answer with a session. -/
def handleDBSyncResponse (session : Int) : List SlaveCall :=
  [.setMasterSessionId session, .setReplState .kWaitDBSync]

/-- Where `HandleBGWorkerWriteBinlog` stands at an item. -/
inductive WorkerPhase where
  /-- Before the test of the role and the first `State()`. -/
  | state
  /-- Before the second `State()`. -/
  | stateAgain
  /-- Before `MasterSessionId()`. -/
  | session
  /-- Before the item is decoded and written. -/
  | write
  deriving DecidableEq

/-- The worker of a table, with the items that are left of its message. -/
structure Worker where
  phase : WorkerPhase
  tasks : List WriteTask
  deriving DecidableEq

/-- Between two messages. -/
def Worker.idle : Worker where
  phase := .state
  tasks := []

/-- What the machine is given. -/
structure ShippingConfig where
  windowSize : Int
  /-- Whether the slave's `HandleWriteBinlog` takes an item. -/
  parses : Bytes → Bool

/-- What a step of the worker leaves. -/
structure Worked where
  slave : SlavePartition
  worker : Worker
  /-- The tasks that are dropped. -/
  dropped : List WriteTask

namespace Worker

/-- The next look at an item, or the next item. -/
def goOn (phase : WorkerPhase) (tasks : List WriteTask) (slave : SlavePartition) : Worked where
  slave := slave
  worker := { phase := phase, tasks := tasks }
  dropped := []

/-- The rest of the message is dropped. -/
def drop (tasks : List WriteTask) (slave : SlavePartition) : Worked where
  slave := slave
  worker := idle
  dropped := tasks

/-- One step of the loop of `HandleBGWorkerWriteBinlog`.  `isSlave` is what the
test of the mode and the role finds. -/
def work (config : ShippingConfig) (isSlave : Bool) (slave : SlavePartition)
    (phase : WorkerPhase) (task : WriteTask) (tasks : List WriteTask) : Worked :=
  match phase with
  | .state =>
    if isSlave = false then drop (task :: tasks) slave
    else if slave.replState = .kConnected then goOn .session (task :: tasks) slave
    else goOn .stateAgain (task :: tasks) slave
  | .stateAgain =>
    if slave.replState = .kWaitDBSync then goOn .session (task :: tasks) slave
    else drop (task :: tasks) slave
  | .session =>
    if slave.session ≠ task.sessionId then
      drop (task :: tasks) { slave with replState := .kTryConnect }
    else goOn .write (task :: tasks) slave
  | .write =>
    if task.binlog = [] then goOn .state tasks slave
    else if binlogItemWithoutContentDecode task.binlog && config.parses task.binlog then
      goOn .state tasks { slave with accepted := slave.accepted ++ [task.binlog] }
    else drop (task :: tasks) { slave with replState := .kTryConnect }

end Worker

/-! ## One table -/

/-- A table, at the master and at the slave. -/
structure ShippingTable where
  log : BinlogRecords
  /-- `session_id_`. -/
  nextSession : Int
  node : Option ShippingNode
  /-- The messages that wait for the slave's worker. -/
  inbox : List (List WriteTask)
  worker : Worker
  /-- The calls still to be made for each answer of the master. -/
  handlers : List (List SlaveCall)
  requests : List FirstSend
  slave : SlavePartition
  /-- The items that have been read and dropped. -/
  lost : List Loss

namespace ShippingTable

/-- Before the slave connects. -/
def initial (log : BinlogRecords) : ShippingTable where
  log := log
  nextSession := 0
  node := none
  inbox := []
  worker := .idle
  handlers := []
  requests := []
  slave := { ticket := 0, base := 0, accepted := [], replState := .kNoConnect, session := 0 }
  lost := []

/-- The node and the session of a slave that asks for a sync, with the handler
of the answer; a new session is generated where there is no node. -/
def answer (handler : Int → List SlaveCall) (table : ShippingTable) : ShippingTable :=
  match table.node with
  | some node => { table with handlers := handler node.sessionId :: table.handlers }
  | none =>
    let session := table.nextSession
    let table := { table with nextSession := castInt32 (session + 1) }
    if session = -1 then table
    else
      { table with
        node := some (.create session)
        handlers := handler session :: table.handlers }

/-- A call of a handler.  The `first_send` takes the session that is set when it
is built. -/
def makeCall (offset : LogOffset) (table : ShippingTable) : SlaveCall → Option ShippingTable
  | .setMasterSessionId session =>
    some { table with slave := { table.slave with session := session } }
  | .setReplState state => some { table with slave := { table.slave with replState := state } }
  | .sendFirstSend =>
    (table.log.cursor offset.bOffset).map fun base =>
      { table with
        requests :=
          { session := table.slave.session
            offset := offset
            ticket := table.slave.ticket + 1
            checked := false } :: table.requests
        slave :=
          { table.slave with ticket := table.slave.ticket + 1, base := base, accepted := [] } }

/-- A handler makes its next call. -/
def call (offset : LogOffset) (table : ShippingTable) : List SlaveCall → Option ShippingTable
  | [] => none
  | call :: calls =>
    if call :: calls ∈ table.handlers then
      makeCall offset
        { table with handlers := calls :: table.handlers.erase (call :: calls) } call
    else none

/-- `CheckSessionId` for a `first_send`, which is dropped unless the node has
its session. -/
def checkSessionId (request : FirstSend) (table : ShippingTable) : Option ShippingTable :=
  let others := table.requests.erase request
  if request ∈ table.requests then
    some
      { table with
        requests :=
          if table.node.any fun node => node.sessionId = request.session then
            { request with checked := true } :: others
          else others }
  else none

/-- The first part of `ActivateSlaveBinlogSync`. -/
def activate (request : FirstSend) (table : ShippingTable) : Option ShippingTable :=
  if request ∈ table.requests ∧ request.checked = true then
    let handled := { table with requests := table.requests.erase request }
    match table.node with
    | none => some handled
    | some node =>
      (table.log.cursor request.offset.bOffset).map fun count =>
        { handled with
          node := some
            { toSlaveNode := node.toSlaveNode.activate request.offset count
              ticket := request.ticket } }
  else none

/-- The tasks of a table that were read from a place on. -/
def place (info : PartitionInfo) (ticket first : Nat) (tasks : List Sync.WriteTask) :
    List WriteTask :=
  tasks.mapIdx fun index task =>
    { toWriteTask := task, info := info, ticket := ticket, place := first + index }

/-- `ReadBinlogFileToWq` at the node up to `ProduceWriteQueue`, and whether it
succeeds.  After an error the tasks are not queued, nor is an item that does not
decode. -/
def readBinlogFileToWq (config : ShippingConfig) (info : PartitionInfo) (failure : Option Nat)
    (node : ShippingNode) (table : ShippingTable) : List WriteTask × ShippingTable × Bool :=
  let (tasks, last, ok) :=
    node.toSlaveNode.readBinlogFileToWq config.windowSize table.log failure
  let table := { table with node := some { node with toSlaveNode := last } }
  let first := node.binlogReader.getD 0
  if ok then (place info node.ticket first tasks, table, true)
  else
    let losses := (List.range' first (last.binlogReader.getD 0 - first)).map (Loss.mk node.ticket)
    ([], { table with lost := table.lost ++ losses }, false)

/-- The slave's worker comes to the next message. -/
def takeMessage (table : ShippingTable) : Option ShippingTable :=
  match table.worker.tasks, table.inbox with
  | [], message :: messages =>
    some { table with inbox := messages, worker := { phase := .state, tasks := message } }
  | _, _ => none

/-- What the worker does next. -/
def work (config : ShippingConfig) (isSlave : Bool) (table : ShippingTable) :
    Option ShippingTable :=
  match table.worker.tasks with
  | [] => none
  | task :: tasks =>
    let worked := Worker.work config isSlave table.slave table.worker.phase task tasks
    some
      { table with
        worker := worked.worker
        slave := worked.slave
        lost := table.lost ++ worked.dropped.map WriteTask.loss }

end ShippingTable

/-! ## The machine -/

/-- The master and one slave. -/
structure Shipping where
  table : PartitionInfo → ShippingTable
  /-- The slave's write queues, by partition number. -/
  queue : Nat → List WriteTask
  /-- `ConsumeWriteQueue` is running. -/
  consuming : Bool
  /-- The batches it has taken and not sent yet. -/
  outbox : List (List WriteTask)
  failed : Bool
  /-- The number of node removals whose `DropItemInWriteQueue` is to come. -/
  drops : Nat

/-- A step of one of the threads. -/
inductive ShippingLabel where
  | put (info : PartitionInfo) (record : Record)
  /-- The master accepts a TrySync. -/
  | trySync (info : PartitionInfo)
  /-- The master accepts a DBSync. -/
  | dbSync (info : PartitionInfo)
  /-- A handler of an answer makes its next call; a `first_send` is sent for
  an offset. -/
  | call (info : PartitionInfo) (calls : List SlaveCall) (offset : LogOffset)
  /-- Another thread of the slave sets the state. -/
  | setReplState (info : PartitionInfo) (state : SlavePartitionState)
  /-- The master compares the session of a `first_send`. -/
  | checkSessionId (info : PartitionInfo) (request : FirstSend)
  /-- `ActivateSlaveBinlogSync` up to `SyncBinlogToWq`. -/
  | activate (info : PartitionInfo) (request : FirstSend)
  /-- `SyncBinlogToWq`, behind an activation or an acknowledgement. -/
  | syncBinlogToWq (info : PartitionInfo) (failure : Option Nat)
  /-- `UpdateSlave` for an acknowledgement that has passed
  `CheckSessionId`. -/
  | updateSlave (info : PartitionInfo) (start stop : LogOffset)
  /-- `WakeUpSlaveBinlogSync` comes to the node of a table. -/
  | wakeUp (info : PartitionInfo) (failure : Option Nat)
  /-- A node is removed, by a timeout or a lost connection. -/
  | removeSlaveNode (info : PartitionInfo)
  | dropItemInWriteQueue
  /-- The master sends a keepalive. -/
  | ping (info : PartitionInfo) (delivered : Bool)
  /-- `ConsumeWriteQueue` takes batches, in the order of its map. -/
  | collect (order : List Nat)
  /-- `SendSlaveBinlogChips` for the next batch. -/
  | send (delivered : Bool)
  /-- `ConsumeWriteQueue` returns. -/
  | finishConsume
  | takeMessage (info : PartitionInfo)
  | work (info : PartitionInfo) (isSlave : Bool)

namespace Shipping

def initial (log : PartitionInfo → BinlogRecords) : Shipping where
  table info := .initial (log info)
  queue _ := []
  consuming := false
  outbox := []
  failed := false
  drops := 0

/-- One table changes. -/
def set (info : PartitionInfo) (shipping : Shipping) (table : ShippingTable) : Shipping :=
  { shipping with table := update shipping.table info table }

/-- The tasks of a table. -/
def ofTable (info : PartitionInfo) (tasks : List WriteTask) : List WriteTask :=
  tasks.filter fun task => task.info = info

/-- The tasks of a table that are dropped. -/
def lose (info : PartitionInfo) (tasks : List WriteTask) (table : ShippingTable) : ShippingTable :=
  { table with lost := table.lost ++ (ofTable info tasks).map WriteTask.loss }

/-- `ReadBinlogFileToWq` at the node of a table, and whether it succeeds. -/
def readBinlogFileToWq (config : ShippingConfig) (info : PartitionInfo)
    (failure : Option Nat) (node : ShippingNode) (shipping : Shipping) : Shipping × Bool :=
  let (tasks, table, ok) := (shipping.table info).readBinlogFileToWq config info failure node
  -- `ProduceWriteQueue`
  ({ shipping.set info table with
      queue := update shipping.queue info.partitionId
        (shipping.queue info.partitionId ++ tasks) }, ok)

/-- Erase the write queues of the slave. -/
def eraseWriteQueues (shipping : Shipping) : Shipping :=
  { shipping with
    queue := fun _ => []
    table := fun info => lose info (shipping.queue info.partitionId) (shipping.table info) }

/-- Take the batches of one partition number. -/
def collectPartition (shipping : Shipping) (partitionId : Nat) : Shipping :=
  let (packets, rest) := fillPackets kBinlogSendPacketNum (shipping.queue partitionId)
  { shipping with
    queue := update shipping.queue partitionId rest
    outbox := shipping.outbox ++ packets }

/-- A message for each table with tasks in a batch. -/
def deliver (batch : List WriteTask) (shipping : Shipping) : Shipping :=
  { shipping with
    table := fun info =>
      let table := shipping.table info
      let group := ofTable info batch
      { table with inbox := if group.isEmpty then table.inbox else table.inbox ++ [group] } }

/-- A batch is not delivered. -/
def fail (batch : List WriteTask) (shipping : Shipping) : Shipping :=
  { shipping with
    failed := true
    table := fun info => lose info batch (shipping.table info) }

/-- `SyncBinlogToWq`. -/
def syncBinlogToWq (config : ShippingConfig) (info : PartitionInfo)
    (failure : Option Nat) (shipping : Shipping) : Shipping :=
  match (shipping.table info).node with
  | none => shipping
  | some node => (shipping.readBinlogFileToWq config info failure node).1

/-- The node of a table goes. -/
def removeNode (info : PartitionInfo) (shipping : Shipping) : Shipping :=
  shipping.set info { shipping.table info with node := none }

/-- `WakeUpSlaveBinlogSync` at one node, which is removed after an error. -/
def wakeUp (config : ShippingConfig) (info : PartitionInfo)
    (failure : Option Nat) (shipping : Shipping) : Shipping :=
  match (shipping.table info).node with
  | none => shipping
  | some node =>
    if node.sentOffset.same node.ackedOffset then
      let (shipping, ok) := shipping.readBinlogFileToWq config info failure node
      if ok then shipping else shipping.removeNode info
    else shipping

/-- A task without an item. -/
def keepalive (info : PartitionInfo) (sessionId : Int) : WriteTask where
  sessionId := sessionId
  offset := .zero
  binlog := []
  prevOffset := .zero
  info := info
  ticket := 0
  place := 0

/-- The keepalive of `CheckSyncTimeout`, past the write queue. -/
def ping (info : PartitionInfo) (delivered : Bool) (shipping : Shipping) : Shipping :=
  match (shipping.table info).node with
  | none => shipping
  | some node =>
    if node.sentOffset.same node.ackedOffset ∧ delivered then
      shipping.deliver [keepalive info node.sessionId]
    else shipping

/-- One step.  The auxiliary thread, which wakes up nodes, sends keepalives and
consumes the write queues, does one of these at a time. -/
def step (config : ShippingConfig) (shipping : Shipping) : ShippingLabel → Option Shipping
  | .put info record =>
    let table := shipping.table info
    (table.log.put record).map fun log => shipping.set info { table with log := log }
  | .trySync info =>
    some (shipping.set info ((shipping.table info).answer handleTrySyncResponse))
  | .dbSync info => some (shipping.set info ((shipping.table info).answer handleDBSyncResponse))
  | .call info calls offset =>
    ((shipping.table info).call offset calls).map (shipping.set info)
  | .setReplState info state =>
    let table := shipping.table info
    some (shipping.set info { table with slave := { table.slave with replState := state } })
  | .checkSessionId info request =>
    ((shipping.table info).checkSessionId request).map (shipping.set info)
  | .activate info request => ((shipping.table info).activate request).map (shipping.set info)
  | .syncBinlogToWq info failure => some (shipping.syncBinlogToWq config info failure)
  | .updateSlave info start stop =>
    let table := shipping.table info
    some (shipping.set info { table with node := table.node.map (.update start stop) })
  | .wakeUp info failure =>
    if shipping.consuming then none
    else some (shipping.wakeUp config info failure)
  | .removeSlaveNode info => some { shipping.removeNode info with drops := shipping.drops + 1 }
  | .dropItemInWriteQueue =>
    if 0 < shipping.drops then some { shipping.eraseWriteQueues with drops := shipping.drops - 1 }
    else none
  | .ping info delivered =>
    if shipping.consuming then none else some (shipping.ping info delivered)
  | .collect order =>
    if shipping.consuming then none
    else
      some { order.foldl collectPartition shipping with consuming := true, failed := false }
  | .send delivered =>
    match shipping.outbox with
    | [] => none
    | batch :: outbox =>
      let shipping := { shipping with outbox := outbox }
      some (if delivered then shipping.deliver batch
        else shipping.fail batch)
  | .finishConsume =>
    if shipping.consuming ∧ shipping.outbox.isEmpty then
      let shipping := { shipping with consuming := false }
      some (if shipping.failed then shipping.eraseWriteQueues else shipping)
    else none
  | .takeMessage info => (shipping.table info).takeMessage.map (shipping.set info)
  | .work info isSlave => ((shipping.table info).work config isSlave).map (shipping.set info)

end Shipping
end Pika.Replication
