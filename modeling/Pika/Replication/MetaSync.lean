import Mathlib.Tactic.SplitIfs
import Pika.Replication.Ingest

/-!
# The meta-sync of a slave

A server that is given a master asks it for its tables and, on a fitting answer,
lets its partitions connect.  The commands, the auxiliary thread, the handlers
of answers and the callbacks of connections run on threads of their own; a step
here is what one of them does between two uses of `state_protector_`, where the
tests of a command or a callback are one step.

An answer does not say which request it belongs to.  The changes of the master
and of the state are counted, and a request remembers the counts.
-/

namespace Pika.Replication

open Foundation Option

/-- `repl_state_` of the server. -/
inductive MetaState where
  | noConnect
  | shouldMetaSync
  | metaSyncDone
  | error
  deriving DecidableEq, Repr

/-- Where a server listens. -/
structure Address where
  ip : List UInt8
  port : Int
  deriving DecidableEq, Repr

/-- `SyncSlavePartition`. -/
structure MetaPartition where
  replState : SlavePartitionState
  /-- The address in `m_info_`. -/
  master : Address
  lastRecvTime : Nat
  deriving DecidableEq, Repr

/-- A table as a master describes it. -/
structure TableStruct where
  tableName : List UInt8
  partitionNum : BitVec 32
  partitionIds : List Nat
  deriving DecidableEq, Repr

/-- The code of an answer. -/
inductive StatusCode where
  | ok | error | other
  deriving DecidableEq, Repr

/-- The answer to a MetaSync. -/
structure MetaSyncResponse where
  code : StatusCode
  classicMode : Bool
  tablesInfo : List (List UInt8 × BitVec 32)
  deriving DecidableEq, Repr

/-- A MetaSync that was sent. -/
structure MetaSyncRequest where
  master : Address
  /-- The changes of the master up to then. -/
  epoch : Nat
  /-- The turns up to the test before it. -/
  asked : Nat
  deriving DecidableEq, Repr

/-- A call that changes the state of the server. -/
inductive MetaEvent where
  | removeMaster | syncError | finishMetaSync | resetMetaSyncStatus
  deriving DecidableEq, Repr

/-- A thread that handles a fitting answer. -/
structure MetaSyncHandler (Partition : Type*) where
  request : MetaSyncRequest
  replState : SlavePartitionState
  partitions : List Partition
  /-- `PreparePartitionTrySync` has returned. -/
  prepared : Bool
  deriving DecidableEq

/-- A function with an assertion was entered. -/
inductive MetaExecution where
  | finishMetaSync (before : MetaState) (current : Bool)
  | setLoopPartitionStateMachine (before : MetaState)
  deriving DecidableEq, Repr

/-- What stays the same. -/
structure MetaConfig (Partition : Type*) where
  host : List UInt8
  port : Int
  slaveof : Option Address
  classicMode : Bool
  tableStructs : List TableStruct
  partitions : List Partition
  /-- The time the partitions were created at. -/
  started : Nat

/-- The server as a slave, and the threads under way. -/
structure MetaNode (Partition : Type*) where
  replState : MetaState
  /-- `role_ & PIKA_ROLE_SLAVE`. -/
  isSlave : Bool
  /-- `role_ & PIKA_ROLE_MASTER`. -/
  isMaster : Bool
  master : Address
  forceFullSync : Bool
  /-- `loop_partition_state_machine_`. -/
  loop : Bool
  partitions : Partition → MetaPartition
  /-- The commands before `RemoveMaster`; `none` is `SLAVEOF NO ONE`. -/
  checked : List (Option Address)
  /-- The commands before `SetMaster`. -/
  removed : List Address
  /-- The auxiliary thread before its request, with the turns up to its test. -/
  sending : Option Nat
  requests : List MetaSyncRequest
  handlers : List (MetaSyncHandler Partition)
  /-- The callbacks before `ResetMetaSyncStatus`. -/
  resets : Nat
  /-- The changes of the master so far. -/
  epoch : Nat
  /-- What happened, the last event first. -/
  history : List MetaEvent
  executions : List MetaExecution

/-- A step of one of the threads. -/
inductive MetaLabel (Partition : Type*) where
  /-- A client sends `SLAVEOF NO ONE`. -/
  | slaveofNoOne
  /-- A client sends `SLAVEOF`. -/
  | slaveof (target : Address) (force : Bool)
  | removeMaster (target : Option Address)
  | setMaster (target : Address)
  | shouldMetaSync
  | sendMetaSync (connected : Bool)
  /-- An answer to a request is handled; the request may have been answered
  before. -/
  | metaSyncResponse (request : MetaSyncRequest) (response : MetaSyncResponse)
  | prepare (handler : MetaSyncHandler Partition) (reachable : Bool) (now : Nat)
  | finishMetaSync (handler : MetaSyncHandler Partition)
  | parseError
  | fdClosed (connection : Address)
  | fdTimeout (connection : Address)
  | resetMetaSyncStatus
  | checkSyncTimeout (partition : Partition) (now : Nat)
  | exchange (partition : Partition) (after : MetaPartition)
  /-- A slave of this server comes. -/
  | becomeMaster
  /-- The last slave of this server goes. -/
  | deleteSlave

def kPortShiftReplServer : Int := 2000

def kRecvKeepAliveTimeout : Nat := 20 * 1000000

/-- `127.0.0.1`. -/
def loopback : List UInt8 := ascii "127.0.0.1"

def isTableStructConsistent (current expect : List TableStruct) : Bool :=
  current.length = expect.length ∧ ∀ table ∈ current, table ∈ expect

namespace MetaPartition

/-- After `Deactivate`. -/
def deactivated : MetaPartition where
  replState := .kNoConnect
  master := { ip := [], port := 0 }
  lastRecvTime := 0

/-- `Activate`. -/
def activate (master : Address) (state : SlavePartitionState) (now : Nat) : MetaPartition where
  replState := state
  master := master
  lastRecvTime := now

/-- The master is expected to send something. -/
def awaits (partition : MetaPartition) : Bool :=
  partition.replState = .kWaitDBSync ∨ partition.replState = .kConnected

/-- The test of `CheckSyncTimeout`. -/
def timedOut (partition : MetaPartition) (now : Nat) : Bool :=
  partition.awaits ∧ partition.lastRecvTime + kRecvKeepAliveTimeout < now

end MetaPartition

/-- The state asserted, and a request to the present master. -/
def MetaExecution.Asserted : MetaExecution → Prop
  | finishMetaSync before current => before = .shouldMetaSync ∧ current = true
  | setLoopPartitionStateMachine before => before = .metaSyncDone

namespace MetaNode

variable {Partition : Type*} [DecidableEq Partition]

/-- Before the threads start.  A configured master is set first. -/
def initial (config : MetaConfig Partition) : MetaNode Partition where
  replState := .noConnect
  isSlave := false
  isMaster := false
  master := { ip := [], port := 0 }
  forceFullSync := false
  loop := false
  partitions _ := { MetaPartition.deactivated with lastRecvTime := config.started }
  checked := []
  removed := config.slaveof.toList
  sending := none
  requests := []
  handlers := []
  resets := 0
  epoch := 0
  history := []
  executions := []

/-- The number of calls so far that end what a test of the state has found; a
reset of the meta-sync does not. -/
def turns (node : MetaNode Partition) : Nat :=
  node.history.countP fun event => event ≠ .resetMetaSyncStatus

/-- `LostConnection`, for the slave partitions. -/
def lostConnection (address : Address) (node : MetaNode Partition) : MetaNode Partition :=
  { node with
    partitions := fun partition =>
      if (node.partitions partition).master = address then .deactivated
      else node.partitions partition }

/-- `DoSameThingEveryPartition` with `kResetReplState`. -/
def resetReplState (config : MetaConfig Partition) (node : MetaNode Partition) :
    MetaNode Partition :=
  { node with
    partitions := fun partition =>
      if partition ∈ config.partitions then .deactivated
      else node.partitions partition }

/-- `SyncError`. -/
def syncError (node : MetaNode Partition) : MetaNode Partition :=
  { node with replState := .error, history := .syncError :: node.history }

/-- `RemoveMaster`. -/
def removeMaster (config : MetaConfig Partition) (node : MetaNode Partition) :
    MetaNode Partition :=
  let left := { node with replState := .noConnect, isSlave := false }
  let closed :=
    if node.master.ip ≠ [] ∧ node.master.port ≠ -1 then
      { left.lostConnection node.master with loop := false }
    else left
  resetReplState config
    { closed with
      master := { ip := [], port := -1 }
      epoch := node.epoch + 1
      history := .removeMaster :: node.history }

/-- `SetMaster`.  The port is narrowed to an `int`. -/
def setMaster (config : MetaConfig Partition) (target : Address)
    (node : MetaNode Partition) : MetaNode Partition :=
  if ¬(node.isSlave = true ∧ node.isMaster = false) ∧ node.replState = .noConnect then
    { node with
      master :=
        { ip := if target.ip = loopback then config.host else target.ip
          port := target.port.bmod (2 ^ 32) }
      isSlave := true
      replState := .shouldMetaSync
      epoch := node.epoch + 1 }
  else node

/-- `ShouldMetaSync`. -/
def shouldMetaSync (node : MetaNode Partition) : Bool := node.replState = .shouldMetaSync

/-- `FinishMetaSync`.  The assertion is not part of a release build. -/
def finishMetaSync (request : MetaSyncRequest) (node : MetaNode Partition) : MetaNode Partition :=
  { node with
    replState := .metaSyncDone
    history := .finishMetaSync :: node.history
    executions := node.executions ++ [.finishMetaSync node.replState (request.epoch = node.epoch)] }

/-- `SetLoopPartitionStateMachine`.  The assertion is not part of a release
build. -/
def setLoopPartitionStateMachine (needLoop : Bool) (node : MetaNode Partition) :
    MetaNode Partition :=
  { node with
    loop := needLoop
    executions := node.executions ++ [.setLoopPartitionStateMachine node.replState] }

/-- `ResetMetaSyncStatus`. -/
def resetMetaSyncStatus (config : MetaConfig Partition)
    (node : MetaNode Partition) : MetaNode Partition :=
  let called := { node with history := .resetMetaSyncStatus :: node.history }
  if node.isSlave then
    resetReplState config
      { called with replState := .shouldMetaSync, loop := false }
  else called

/-- `SlaveofCmd`, up to `RemoveMaster`. -/
def slaveof (config : MetaConfig Partition) (target : Address) (force : Bool)
    (node : MetaNode Partition) : MetaNode Partition :=
  -- `DoInitial`: masters of others, impossible ports and the server itself.
  if node.isMaster ∨ target.port ≤ 0 ∨ ((target.ip = loopback ∨ target.ip = config.host) ∧
        target.port = config.port) then node
  else
    let forced := { node with forceFullSync := force || node.forceFullSync }
    -- `Do`: the master is already the right one.
    if (target.ip = loopback ∨ node.master.ip = target.ip) ∧
        node.master.port = target.port then forced
    else { forced with checked := some target :: node.checked }

/-- `SlaveofCmd` with `NO ONE`, up to `RemoveMaster`. -/
def slaveofNoOne (node : MetaNode Partition) : MetaNode Partition :=
  if node.master = { ip := [], port := 0 } then node
  else { node with checked := none :: node.checked }

/-- `SendMetaSync`; without a connection the status is reset. -/
def sendMetaSync (asked : Nat) (connected : Bool) (node : MetaNode Partition) :
    MetaNode Partition :=
  if connected then
    { node with
      sending := none
      requests := { master := node.master, epoch := node.epoch, asked := asked } :: node.requests }
  else { node with sending := none, resets := node.resets + 1 }

/-- `HandleMetaSyncResponse`, up to `PreparePartitionTrySync`. -/
def handleMetaSyncResponse (config : MetaConfig Partition)
    (request : MetaSyncRequest) (response : MetaSyncResponse)
    (node : MetaNode Partition) : MetaNode Partition :=
  match response.code with
  | .other => node
  | .error => node.syncError
  | .ok =>
    let tables := response.tablesInfo.map fun info =>
      { tableName := info.1, partitionNum := info.2, partitionIds := [0] }
    if config.classicMode ≠ response.classicMode then node.syncError
    else if isTableStructConsistent config.tableStructs tables = false then node.syncError
    else
      { node with
        handlers :=
          { request := request
            replState := if node.forceFullSync then .kTryDBSync else .kTryConnect
            partitions := config.partitions
            prepared := false } :: node.handlers }

/-- `ActivateSyncSlavePartition`. -/
def activateSyncSlavePartition (partition : Partition)
    (state : SlavePartitionState) (reachable : Bool) (now : Nat)
    (node : MetaNode Partition) : MetaNode Partition :=
  if ((node.partitions partition).replState = .kNoConnect ∨
      (node.partitions partition).replState = .kDBNoConnect) ∧ reachable then
    { node with
      partitions := Function.update node.partitions partition (.activate node.master state now) }
  else node

/-- The next part of `PreparePartitionTrySync`. -/
def prepare (handler : MetaSyncHandler Partition) (reachable : Bool) (now : Nat)
    (node : MetaNode Partition) : MetaNode Partition :=
  match handler.partitions with
  | partition :: partitions =>
    let activated := node.activateSyncSlavePartition partition handler.replState reachable now
    { activated with
      handlers := { handler with partitions := partitions } :: node.handlers.erase handler }
  | [] =>
    { node with
      forceFullSync := false
      loop := true
      handlers := { handler with prepared := true } :: node.handlers.erase handler }

/-- The tests of `FdClosedHandle`. -/
def fdClosedHandle (connection : Address) (node : MetaNode Partition) : Bool :=
  connection.ip = node.master.ip ∧ connection.port = node.master.port + kPortShiftReplServer ∧
    node.replState ≠ .error

/-- `CheckSlavePartitionState`: no partition of this master is in
`kDBNoConnect`. -/
def checkSlavePartitionState (config : MetaConfig Partition)
    (connection : Address) (node : MetaNode Partition) : Bool :=
  ∀ partition ∈ config.partitions, ¬((node.partitions partition).replState = .kDBNoConnect ∧
      (node.partitions partition).master.ip = connection.ip ∧
      (node.partitions partition).master.port + kPortShiftReplServer = connection.port)

/-- The tests of `FdTimeoutHandle`. -/
def fdTimeoutHandle (config : MetaConfig Partition) (connection : Address)
    (node : MetaNode Partition) : Bool :=
  node.fdClosedHandle connection && node.checkSlavePartitionState config connection

/-- `CheckSyncTimeout` at a partition. -/
def checkSyncTimeout (partition : Partition) (now : Nat)
    (node : MetaNode Partition) : MetaNode Partition :=
  if (node.partitions partition).timedOut now then
    setLoopPartitionStateMachine true
      { node with
        partitions := Function.update node.partitions partition
          { node.partitions partition with replState := .kTryConnect } }
  else node

/-- What the threads do. -/
def step (config : MetaConfig Partition) (node : MetaNode Partition) :
    MetaLabel Partition → Option (MetaNode Partition)
  | .slaveofNoOne => some node.slaveofNoOne
  | .slaveof target force => some (node.slaveof config target force)
  | .removeMaster target =>
    if target ∈ node.checked then
      some
        { node.removeMaster config with
          checked := node.checked.erase target
          removed := target.toList ++ node.removed }
    else none
  | .setMaster target =>
    if target ∈ node.removed then
      some
        { node.setMaster config target with removed := node.removed.erase target }
    else none
  | .shouldMetaSync =>
    some { node with sending := if node.shouldMetaSync then some node.turns else none }
  | .sendMetaSync connected => node.sending.map fun asked => node.sendMetaSync asked connected
  | .metaSyncResponse request response =>
    if request ∈ node.requests then some (node.handleMetaSyncResponse config request response)
    else none
  | .prepare handler reachable now =>
    if handler ∈ node.handlers ∧ handler.prepared = false then
      some (node.prepare handler reachable now)
    else none
  | .finishMetaSync handler =>
    if handler ∈ node.handlers ∧ handler.prepared = true then
      some
        { node.finishMetaSync handler.request with handlers := node.handlers.erase handler }
    else none
  | .parseError => some node.syncError
  | .fdClosed connection =>
    some
      { node with resets := node.resets + (node.fdClosedHandle connection).toNat }
  | .fdTimeout connection =>
    some
      { node with resets := node.resets + (node.fdTimeoutHandle config connection).toNat }
  | .resetMetaSyncStatus =>
    if 0 < node.resets then
      some { node.resetMetaSyncStatus config with resets := node.resets - 1 }
    else none
  | .checkSyncTimeout partition now =>
    if partition ∈ config.partitions then some (node.checkSyncTimeout partition now) else none
  | .exchange partition after =>
    if partition ∈ config.partitions then
      some { node with partitions := Function.update node.partitions partition after }
    else none
  | .becomeMaster => some { node with isMaster := true }
  | .deleteSlave => some { node with isMaster := false }

/-- The functions with assertions run in the states asserted, an answer is that
of the present master, and the meta-sync is done for a slave only. -/
structure Sound (node : MetaNode Partition) : Prop where
  executions : ∀ execution ∈ node.executions, execution.Asserted
  role : node.replState = .metaSyncDone → node.isSlave = true

/-- A meta-sync was finished, and since then the master was not removed and the
status not reset. -/
def Connected (node : MetaNode Partition) : Prop :=
  node.history.find? (fun event => event ≠ .syncError) = some .finishMetaSync

instance (node : MetaNode Partition) : Decidable node.Connected :=
  inferInstanceAs (Decidable (_ = _))

/-- The order of events in which nothing is taken amiss.  Between the test
before a request and the end of the meta-sync by its answer, no master is
removed, no error is met and no other meta-sync ends.  A partition is brought to
a state in which it waits for its master while that is connected.  None of them
times out after an error. -/
def InOrder (node : MetaNode Partition) : MetaLabel Partition → Prop
  | .finishMetaSync handler => handler.request.asked = node.turns
  | .exchange _ after => after.awaits = true → node.Connected
  | .checkSyncTimeout partition now =>
    (node.partitions partition).timedOut now = true → node.history.head? ≠ some .syncError
  | _ => True

instance (node : MetaNode Partition) : ∀ label, Decidable (node.InOrder label)
  | .finishMetaSync _ => inferInstanceAs (Decidable (_ = _))
  | .exchange _ _ => inferInstanceAs (Decidable (_ → _))
  | .checkSyncTimeout _ _ => inferInstanceAs (Decidable (_ → _))
  | .slaveofNoOne | .slaveof _ _ | .removeMaster _ | .setMaster _ | .shouldMetaSync
  | .sendMetaSync _ | .metaSyncResponse _ _ | .prepare _ _ _ | .parseError | .fdClosed _
  | .fdTimeout _ | .resetMetaSyncStatus | .becomeMaster | .deleteSlave => .isTrue trivial

/-! ## What a test has found -/

/-- Without a turn since a test, the server still waits for its meta-sync. -/
def Asked (node : MetaNode Partition) (asked : Nat) : Prop :=
  asked ≤ node.turns ∧ (asked = node.turns → node.replState = .shouldMetaSync)

/-- Nor has the master been changed since a request. -/
def Pending (node : MetaNode Partition) (request : MetaSyncRequest) : Prop :=
  node.Asked request.asked ∧ (request.asked = node.turns → request.epoch = node.epoch)

/-- The tests and the requests under way, and the handlers of answers. -/
structure Tests (node : MetaNode Partition) : Prop where
  sending : ∀ asked ∈ node.sending, node.Asked asked
  requests : ∀ request ∈ node.requests, node.Pending request
  handlers : ∀ handler ∈ node.handlers, node.Pending handler.request
  connecting : ∀ handler ∈ node.handlers,
    handler.replState = .kTryDBSync ∨ handler.replState = .kTryConnect

/-- The state fits the events, the tests and the requests so far, and the
partitions. -/
structure Coherent (config : MetaConfig Partition) (node : MetaNode Partition) : Prop
    extends Sound node, Tests node where
  waiting : node.replState = .shouldMetaSync → node.isSlave = true
  finished : node.history.head? = some .finishMetaSync → node.replState = .metaSyncDone
  connected : node.Connected → node.isSlave = true
  awaiting : ∀ partition, (node.partitions partition).awaits = true →
    partition ∈ config.partitions ∧ node.Connected

variable {config : MetaConfig Partition} {node next : MetaNode Partition}

section

omit [DecidableEq Partition]

/-- What tests have found and requests have asked still stands. -/
structure Leads (node next : MetaNode Partition) : Prop where
  asked : ∀ {asked}, node.Asked asked → next.Asked asked
  pending : ∀ {request}, node.Pending request → next.Pending request

theorem Tests.lead (tests : node.Tests) (leads : node.Leads next)
    (sending : next.sending = node.sending) (requests : next.requests = node.requests)
    (handlers : next.handlers = node.handlers) : next.Tests where
  sending asked member := leads.asked (tests.sending asked (sending ▸ member))
  requests request member := leads.pending (tests.requests request (requests ▸ member))
  handlers handler member := leads.pending (tests.handlers handler (handlers ▸ member))
  connecting handler member := tests.connecting handler (handlers ▸ member)

/-- A call that is a turn ends what the tests have found. -/
theorem leads_of_turn (event : MetaEvent) (turning : event ≠ .resetMetaSyncStatus)
    (called : next.history = event :: node.history) : node.Leads next := by
  have turned : next.turns = node.turns + 1 := by
    unfold turns
    rw [called, List.countP_cons_of_pos (by simpa using turning)]
  have asks : ∀ {asked}, node.Asked asked → next.Asked asked := by
    rintro asked ⟨before, -⟩
    exact ⟨by omega, fun same => by omega⟩
  refine ⟨asks, fun pending => ⟨asks pending.1, fun same => ?_⟩⟩
  have before := pending.1.1
  omega

/-- A reset is none, and a slave that waits goes on. -/
theorem leads_of_reset (state : next.replState = .shouldMetaSync ∨ next.replState = node.replState)
    (called : next.history = .resetMetaSyncStatus :: node.history)
    (epoch : next.epoch = node.epoch) : node.Leads next := by
  have turns : next.turns = node.turns := by
    unfold turns
    rw [called, List.countP_cons_of_neg (by simp)]
  have asks : ∀ {asked}, node.Asked asked → next.Asked asked := by
    rintro asked ⟨before, waits⟩
    refine ⟨turns ▸ before, fun same => ?_⟩
    exact state.elim id fun kept => kept.trans (waits (same.trans turns))
  refine ⟨asks, fun pending => ⟨asks pending.1, ?_⟩⟩
  rw [turns, epoch]
  exact pending.2

end

/-! ## Steps -/

section

omit [DecidableEq Partition]

section

variable (coherent : node.Coherent config)
include coherent

theorem Coherent.syncError : node.syncError.Coherent config where
  executions := coherent.executions
  role := nofun
  toTests := coherent.toTests.lead (leads_of_turn .syncError nofun rfl) rfl rfl rfl
  waiting := nofun
  finished := nofun
  connected := coherent.connected
  awaiting := coherent.awaiting

/-- What `RemoveMaster` does to the state, whether or not there was a master. -/
theorem Coherent.removed (quiet : ∀ partition, ¬(next.partitions partition).awaits = true)
    (state : next.replState = .noConnect) (called : next.history = .removeMaster :: node.history)
    (executions : next.executions = node.executions) (sending : next.sending = node.sending)
    (requests : next.requests = node.requests) (handlers : next.handlers = node.handlers) :
    next.Coherent config := by
  refine ⟨⟨?_, ?_⟩, coherent.toTests.lead (leads_of_turn .removeMaster nofun called) sending
    requests handlers, ?_, ?_, ?_, fun partition awaits => absurd awaits (quiet partition)⟩
  · exact executions ▸ coherent.executions
  · rw [state]
    exact nofun
  · rw [state]
    exact nofun
  · rw [called]
    exact nofun
  · rw [Connected, called]
    exact nofun

theorem Coherent.setMaster :
    (node.setMaster config target).Coherent config := by
  unfold MetaNode.setMaster
  split
  case isTrue unset =>
    exact
      { executions := coherent.executions
        role := nofun
        -- A master is set where no test has found the server waiting.
        toTests := coherent.toTests.lead
          { asked := fun asks => ⟨asks.1, fun _ => rfl⟩
            pending := fun pending => ⟨⟨pending.1.1, fun _ => rfl⟩, fun same =>
              absurd (unset.2.symm.trans (pending.1.2 same)) nofun⟩ } rfl rfl rfl
        waiting := fun _ => rfl
        finished := fun last => absurd (unset.2.symm.trans (coherent.finished last)) nofun
        connected := fun _ => rfl
        awaiting := coherent.awaiting }
  case isFalse => exact coherent

theorem Coherent.sendMetaSync {connected : Bool} (tested : asked ∈ node.sending) :
    (node.sendMetaSync asked connected).Coherent config := by
  unfold MetaNode.sendMetaSync
  split_ifs
  · refine { coherent with sending := nofun, requests := ?_ }
    intro request member
    rcases List.mem_cons.mp member with rfl | old
    · exact ⟨coherent.sending _ tested, fun _ => rfl⟩
    · exact coherent.requests request old
  · exact { coherent with sending := nofun }

theorem Coherent.handleMetaSyncResponse (sent : request ∈ node.requests) :
    (node.handleMetaSyncResponse config request response).Coherent config := by
  unfold MetaNode.handleMetaSyncResponse
  cases response.code with
  | other => exact coherent
  | error => exact coherent.syncError
  | ok =>
    dsimp only
    split
    · exact coherent.syncError
    · split
      · exact coherent.syncError
      · refine { coherent with handlers := ?_, connecting := ?_ }
        · intro handler member
          rcases List.mem_cons.mp member with rfl | old
          · exact coherent.requests request sent
          · exact coherent.handlers handler old
        · intro handler member
          rcases List.mem_cons.mp member with rfl | old
          · dsimp only
            split_ifs
            · exact .inl rfl
            · exact .inr rfl
          · exact coherent.connecting handler old

theorem Coherent.finishMetaSync
    (member : handler ∈ node.handlers) (inOrder : handler.request.asked = node.turns) :
    (node.finishMetaSync handler.request).Coherent config := by
  obtain ⟨⟨-, waits⟩, current⟩ := coherent.handlers handler member
  have state := waits inOrder
  exact
    { executions := List.forall_mem_append.mpr ⟨coherent.executions,
        List.forall_mem_singleton.mpr ⟨state, decide_eq_true (current inOrder)⟩⟩
      role := fun _ => coherent.waiting state
      toTests := coherent.toTests.lead (leads_of_turn .finishMetaSync nofun rfl) rfl rfl rfl
      waiting := nofun
      finished := fun _ => rfl
      connected := fun _ => coherent.waiting state
      awaiting := fun partition awaits => ⟨(coherent.awaiting partition awaits).1, rfl⟩ }

/-- A partition that waits for its master and does not find an error finds the
meta-sync done. -/
theorem Coherent.done_of_awaits (awaits : (node.partitions partition).awaits = true)
    (unharmed : node.history.head? ≠ some .syncError) : node.replState = .metaSyncDone := by
  have connected := (coherent.awaiting partition awaits).2
  apply coherent.finished
  unfold Connected at connected
  cases history : node.history with
  | nil =>
    rw [history] at connected
    cases connected
  | cons event events =>
    rw [history] at connected unharmed
    have other : event ≠ .syncError := fun same => unharmed (congrArg some same)
    rw [List.find?_cons_of_pos (by simpa using other)] at connected
    exact connected

end

end

/-- After a reset of the partitions, none waits for its master. -/
theorem not_awaits_resetReplState (inside : ∀ partition, (node.partitions partition).awaits = true →
      partition ∈ config.partitions) (partition : Partition) :
    ¬((node.resetReplState config).partitions partition).awaits = true := by
  simp only [resetReplState]
  split_ifs with member
  · exact nofun
  · intro awaits
    exact member (inside partition awaits)

theorem Coherent.removeMaster (coherent : node.Coherent config) :
    (node.removeMaster config).Coherent config := by
  have inside : ∀ partition, (node.partitions partition).awaits = true →
      partition ∈ config.partitions := fun partition awaits =>
    (coherent.awaiting partition awaits).1
  by_cases known : node.master.ip ≠ [] ∧ node.master.port ≠ -1
  · simp only [MetaNode.removeMaster, if_pos known]
    refine coherent.removed (not_awaits_resetReplState ?_) rfl rfl rfl rfl rfl rfl
    intro partition awaits
    simp only [lostConnection] at awaits
    split_ifs at awaits
    · cases awaits
    · exact inside partition awaits
  · simp only [MetaNode.removeMaster, if_neg known]
    exact coherent.removed (not_awaits_resetReplState inside) rfl rfl rfl rfl rfl rfl

theorem Coherent.resetMetaSyncStatus (coherent : node.Coherent config) :
    (node.resetMetaSyncStatus config).Coherent config := by
  have inside : ∀ partition, (node.partitions partition).awaits = true →
      partition ∈ config.partitions := fun partition awaits =>
    (coherent.awaiting partition awaits).1
  simp only [MetaNode.resetMetaSyncStatus]
  split_ifs with slave
  · exact
      { executions := coherent.executions
        role := nofun
        toTests := coherent.toTests.lead (leads_of_reset (.inl rfl) rfl rfl) rfl rfl rfl
        waiting := fun _ => slave
        finished := nofun
        connected := fun _ => slave
        awaiting := fun partition awaits =>
          absurd awaits (not_awaits_resetReplState inside partition) }
  · -- A server without a master has no partition that waits for one.
    have apart : ¬node.Connected := fun connected => slave (coherent.connected connected)
    exact
      { executions := coherent.executions
        role := coherent.role
        toTests := coherent.toTests.lead (leads_of_reset (.inr rfl) rfl rfl) rfl rfl rfl
        waiting := coherent.waiting
        finished := nofun
        connected := nofun
        awaiting := fun partition awaits =>
          absurd (coherent.awaiting partition awaits).2 apart }

/-- A partition that is being connected does not wait for its master yet. -/
theorem awaits_of_activateSyncSlavePartition {state : SlavePartitionState}
    (starts : state = .kTryDBSync ∨ state = .kTryConnect)
    (awaits : ((node.activateSyncSlavePartition partition state reachable now).partitions
      other).awaits = true) :
    (node.partitions other).awaits = true := by
  unfold activateSyncSlavePartition at awaits
  split_ifs at awaits
  · simp only [Function.update_apply] at awaits
    split_ifs at awaits
    · rcases starts with rfl | rfl <;> cases awaits
    · exact awaits
  · exact awaits

/-- A handler goes on. -/
theorem Tests.replace (tests : node.Tests) (member : handler ∈ node.handlers)
    (partitions : List Partition) (prepared : Bool) :
    Tests { node with
      handlers := { handler with partitions, prepared } :: node.handlers.erase handler } := by
  refine { tests with handlers := ?_, connecting := ?_ } <;> intro other inside <;>
    rcases List.mem_cons.mp inside with rfl | old
  · exact tests.handlers handler member
  · exact tests.handlers other (List.mem_of_mem_erase old)
  · exact tests.connecting handler member
  · exact tests.connecting other (List.mem_of_mem_erase old)

theorem Coherent.prepare (coherent : node.Coherent config) (member : handler ∈ node.handlers) :
    (node.prepare handler reachable now).Coherent config := by
  unfold MetaNode.prepare
  cases handler.partitions with
  | nil => exact { coherent.toTests.replace member [] true, coherent with }
  | cons partition partitions =>
    have awaiting : ∀ other, ((node.activateSyncSlavePartition partition handler.replState
        reachable now).partitions other).awaits = true →
          other ∈ config.partitions ∧ node.Connected := fun other awaits =>
      coherent.awaiting other
        (awaits_of_activateSyncSlavePartition (coherent.connecting handler member) awaits)
    unfold activateSyncSlavePartition at awaiting ⊢
    dsimp only at awaiting ⊢
    split_ifs at awaiting ⊢
    · exact { coherent.toTests.replace member partitions handler.prepared, coherent with awaiting }
    · exact { coherent.toTests.replace member partitions handler.prepared, coherent with awaiting }

theorem Coherent.checkSyncTimeout (coherent : node.Coherent config)
    (inOrder : (node.partitions partition).timedOut now = true →
      node.history.head? ≠ some .syncError) :
    (node.checkSyncTimeout partition now).Coherent config := by
  unfold MetaNode.checkSyncTimeout
  split_ifs with late
  · have awaits : (node.partitions partition).awaits = true := (of_decide_eq_true late).1
    have state := coherent.done_of_awaits awaits (inOrder late)
    exact
      { coherent with
        executions := List.forall_mem_append.mpr ⟨coherent.executions,
          List.forall_mem_singleton.mpr state⟩
        awaiting := by
          intro other waits
          simp only [setLoopPartitionStateMachine, Function.update_apply] at waits
          split_ifs at waits
          · cases waits
          · exact coherent.awaiting other waits }
  · exact coherent

theorem Coherent.exchange (coherent : node.Coherent config) (inside : partition ∈ config.partitions)
    (inOrder : after.awaits = true → node.Connected) :
    Coherent config
      { node with partitions := Function.update node.partitions partition after } := by
  refine { coherent with awaiting := ?_ }
  intro other waits
  simp only [Function.update_apply] at waits
  split_ifs at waits with same
  · rw [same]
    exact ⟨inside, inOrder waits⟩
  · exact coherent.awaiting other waits

/-- Every step in order keeps the invariant. -/
theorem Coherent.step {label : MetaLabel Partition} (coherent : node.Coherent config)
    (inOrder : node.InOrder label) (stepped : node.step config label = some next) :
    next.Coherent config := by
  cases label with
  | slaveofNoOne =>
    cases stepped
    unfold slaveofNoOne
    split_ifs <;> exact { coherent with }
  | slaveof target force =>
    cases stepped
    simp only [slaveof]
    split_ifs <;> exact { coherent with }
  | removeMaster target =>
    obtain ⟨-, ⟨⟩⟩ := ite_none_right_eq_some.mp stepped
    exact { coherent.removeMaster with }
  | setMaster target =>
    obtain ⟨-, ⟨⟩⟩ := ite_none_right_eq_some.mp stepped
    exact { coherent.setMaster with }
  | shouldMetaSync =>
    cases stepped
    refine { coherent with sending := ?_ }
    intro asked tested
    dsimp only at tested
    split_ifs at tested with waits
    · cases tested
      exact ⟨le_rfl, fun _ => of_decide_eq_true waits⟩
    · cases tested
  | fdClosed | fdTimeout | becomeMaster | deleteSlave =>
    cases stepped
    exact { coherent with }
  | sendMetaSync connected =>
    obtain ⟨asked, tested, rfl⟩ := map_eq_some_iff.mp stepped
    exact coherent.sendMetaSync tested
  | metaSyncResponse request response =>
    obtain ⟨sent, ⟨⟩⟩ := ite_none_right_eq_some.mp stepped
    exact coherent.handleMetaSyncResponse sent
  | prepare handler reachable now =>
    obtain ⟨ready, ⟨⟩⟩ := ite_none_right_eq_some.mp stepped
    exact coherent.prepare ready.1
  | finishMetaSync handler =>
    obtain ⟨ready, ⟨⟩⟩ := ite_none_right_eq_some.mp stepped
    have after := coherent.finishMetaSync ready.1 inOrder
    exact
      { after with
        handlers := fun other member => after.handlers other (List.mem_of_mem_erase member)
        connecting := fun other member =>
          after.connecting other (List.mem_of_mem_erase member) }
  | parseError =>
    cases stepped
    exact coherent.syncError
  | resetMetaSyncStatus =>
    obtain ⟨-, ⟨⟩⟩ := ite_none_right_eq_some.mp stepped
    exact { coherent.resetMetaSyncStatus with }
  | checkSyncTimeout partition now =>
    obtain ⟨-, ⟨⟩⟩ := ite_none_right_eq_some.mp stepped
    exact coherent.checkSyncTimeout inOrder
  | exchange partition after =>
    obtain ⟨inside, ⟨⟩⟩ := ite_none_right_eq_some.mp stepped
    exact coherent.exchange inside inOrder

omit [DecidableEq Partition] in
theorem coherent_initial (config : MetaConfig Partition) : (initial config).Coherent config where
  executions := nofun
  role := nofun
  waiting := nofun
  finished := nofun
  sending := nofun
  requests := nofun
  handlers := nofun
  connecting := nofun
  connected := nofun
  awaiting := nofun

/-- In every interleaving whose events come in order, the assertions hold, the
answers that end a meta-sync are those of the present master, and only a slave
is done. -/
theorem sound_of_inOrder (config : MetaConfig Partition) (labels : List (MetaLabel Partition))
    (inOrder : RunAdmissible (step config) InOrder (initial config) labels) :
    RunSatisfies (step config) Sound (initial config) labels :=
  runSatisfies_of_runAdmissible (fun _ coherent => coherent.toSound)
    (fun _ _ _ coherent ordered stepped => coherent.step ordered stepped)
    (coherent_initial config) inOrder

/-- A server with one database. -/
def lateConfig : MetaConfig Unit where
  host := ascii "10.0.0.9"
  port := 9221
  slaveof := none
  classicMode := true
  tableStructs := [{ tableName := ascii "db0", partitionNum := 1, partitionIds := [0] }]
  partitions := [()]
  started := 0

/-- The first master. -/
def firstMaster : Address where
  ip := ascii "10.0.0.1"
  port := 9221

/-- SLAVEOF, from the command to the new master. -/
def slaveofSteps (target : Address) : List (MetaLabel Unit) :=
  [.slaveof target false, .removeMaster (some target), .setMaster target]

/-- The steps of the thread that handles a fitting answer. -/
def answerSteps (request : MetaSyncRequest) : List (MetaLabel Unit) :=
  let handler : MetaSyncHandler Unit :=
    { request := request, replState := .kTryConnect, partitions := [], prepared := false }
  [.metaSyncResponse request
      { code := .ok, classicMode := true, tablesInfo := [(ascii "db0", 1)] },
    .prepare { handler with partitions := [()] } true 0, .prepare handler true 0,
    .finishMetaSync { handler with prepared := true }]

/-- A meta-sync, a partition that connects and times out, a closed connection,
and another meta-sync. -/
def orderly : List (MetaLabel Unit) :=
  slaveofSteps firstMaster ++ [.shouldMetaSync, .sendMetaSync true] ++
    answerSteps { master := firstMaster, epoch := 2, asked := 1 } ++
    [.exchange () { replState := .kConnected, master := firstMaster, lastRecvTime := 0 },
      .checkSyncTimeout () 20000001, .fdClosed { firstMaster with port := 11221 },
      .resetMetaSyncStatus, .shouldMetaSync, .sendMetaSync true] ++
    answerSteps { master := firstMaster, epoch := 2, asked := 2 }

/-- Each assertion is met, twice that of the end of a meta-sync. -/
theorem sound_orderly :
    (run (step lateConfig) (initial lateConfig) orderly).map executions =
        some [.finishMetaSync .shouldMetaSync true, .setLoopPartitionStateMachine .metaSyncDone,
          .finishMetaSync .shouldMetaSync true] ∧
      RunSatisfies (step lateConfig) Sound (initial lateConfig) orderly :=
  ⟨by decide +kernel, sound_of_inOrder lateConfig orderly (by decide +kernel)⟩

/-- The second master. -/
def secondMaster : Address where
  ip := ascii "10.0.0.2"
  port := 9221

/-- The first master answers when the second one has taken its place. -/
def lateAnswer : List (MetaLabel Unit) :=
  slaveofSteps firstMaster ++ [.shouldMetaSync, .sendMetaSync true] ++
    slaveofSteps secondMaster ++ answerSteps { master := firstMaster, epoch := 2, asked := 1 }

/-- It moves the state although its master is gone. -/
theorem not_sound_lateAnswer :
    ∃ stop, run (step lateConfig) (initial lateConfig) lateAnswer = some stop ∧
      stop.replState = .metaSyncDone ∧ stop.master = secondMaster ∧ ¬stop.Sound := by
  have ends : (run (step lateConfig) (initial lateConfig) lateAnswer).map
      (fun stop => (stop.replState, stop.master, stop.executions)) =
      some (.metaSyncDone, secondMaster, [.finishMetaSync .shouldMetaSync false]) := by
    decide +kernel
  obtain ⟨stop, ran, observed⟩ := map_eq_some_iff.mp ends
  obtain ⟨state, rest⟩ := Prod.mk.inj observed
  obtain ⟨master, executions⟩ := Prod.mk.inj rest
  refine ⟨stop, ran, state, master, fun sound => ?_⟩
  have asserted := sound.executions (.finishMetaSync .shouldMetaSync false) (by simp [executions])
  cases asserted.2

end MetaNode

end Pika.Replication
