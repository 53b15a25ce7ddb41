import Pika.Foundation.Decimal
import Pika.Foundation.Keyed
import Pika.Foundation.Transition
import Pika.Sync.Window

/-!
# The slaves of a partition and their match indexes

`SyncProgress` keeps the slave nodes of a partition, and the offset each has
acknowledged, under the ip of the slave followed by its port.  A call looks up
its slave and goes on with what it has found, while other calls run: adding a
slave and acknowledging a range are done in two and in three steps.
-/

namespace Pika.Sync

open Foundation

/-- An IPv4 address in dotted decimal. -/
def dottedDecimal (first second third fourth : Nat) : List UInt8 :=
  decimal first ++ ascii "." ++ decimal second ++ ascii "." ++
    decimal third ++ ascii "." ++ decimal fourth

/-- The ip and the port of a slave. -/
structure SlaveAddress where
  ip : List UInt8
  port : Nat
  /-- The ip is written in dotted decimal. -/
  dotted : ∃ first second third fourth, first < 256 ∧ second < 256 ∧ third < 256 ∧ fourth < 256 ∧
      ip = dottedDecimal first second third fourth
  inRange : 1 ≤ port ∧ port ≤ 65535
  deriving DecidableEq

def SlaveAddress.slaveKey (address : SlaveAddress) : List UInt8 :=
  address.ip ++ decimal address.port

/-- A `SlaveNode` with its ip and port. -/
structure AddressedNode where
  /-- `Ip()` and `Port()`. -/
  address : SlaveAddress
  node : SlaveNode
  deriving DecidableEq

/-- What a call has still to do.  A node is named by its place among all nodes
made, as a pointer to it would. -/
inductive ProgressCall where
  /-- `AddSlaveNode`, which has found no node. -/
  | insert (address : SlaveAddress) (sessionId : Int)
  /-- `AddSlaveNode`, which has found a node. -/
  | setSessionId (pointer : Nat) (sessionId : Int)
  | updateNode (address : SlaveAddress) (pointer : Nat) (start stop : LogOffset)
  /-- `Update`, which has updated the node. -/
  | writeMatchIndex (address : SlaveAddress) (ackedOffset : LogOffset)
  deriving DecidableEq

/-- How a call has ended. -/
inductive ProgressResult where
  /-- `GetSlaveNode` returns a node or `nullptr`. -/
  | node (pointer : Option Nat)
  | ok
  /-- `Update` has found no node. -/
  | notFound (message : List UInt8)
  /-- `Update` returns the error of the node. -/
  | failed (status : Binlog.Status)
  | updated (committedIndex : LogOffset)
  deriving DecidableEq

/-- The nodes that exist, the calls under way and the calls that have ended. -/
structure ProgressCalls where
  nodes : List AddressedNode
  pending : List ProgressCall
  results : List ProgressResult

/-- `SyncProgress`, with the calls that use it. -/
structure SyncProgress (Key : Type) where
  slaves : Key → Option Nat
  matchIndex : Key → Option LogOffset
  calls : ProgressCalls

inductive ProgressLabel where
  | getSlaveNode (address : SlaveAddress)
  | addSlaveNode (address : SlaveAddress) (sessionId : Int)
  | removeSlaveNode (address : SlaveAddress)
  | update (address : SlaveAddress) (start stop : LogOffset)
  | proceed (call : ProgressCall)
  | change (pointer : Nat) (node : SlaveNode)

namespace ProgressCalls

def answer (result : ProgressResult) (calls : ProgressCalls) : ProgressCalls :=
  { calls with results := calls.results ++ [result] }

def suspend (call : ProgressCall) (calls : ProgressCalls) : ProgressCalls :=
  { calls with pending := call :: calls.pending }

def resume (call : ProgressCall) (calls : ProgressCalls) : ProgressCalls :=
  { calls with pending := calls.pending.erase call }

/-- `std::make_shared<SlaveNode>`. -/
def make (address : SlaveAddress) (sessionId : Int) (calls : ProgressCalls) : ProgressCalls :=
  { calls with
    nodes := calls.nodes ++ [{ address := address, node := SlaveNode.create sessionId }] }

/-- Change a node, which keeps its ip and port. -/
def setNode (pointer : Nat) (change : SlaveNode → SlaveNode)
    (calls : ProgressCalls) : ProgressCalls :=
  { calls with
    nodes := calls.nodes.modify pointer fun entry => { entry with node := change entry.node } }

/-- `GetSlaveNode` behind the lookup. -/
def found (pointer : Option Nat) (calls : ProgressCalls) : ProgressCalls :=
  calls.answer (.node pointer)

/-- `AddSlaveNode` behind the lookup. -/
def add (address : SlaveAddress) (sessionId : Int) (pointer : Option Nat)
    (calls : ProgressCalls) : ProgressCalls :=
  match pointer with
  | some pointer => calls.suspend (.setSessionId pointer sessionId)
  | none => calls.suspend (.insert address sessionId)

/-- `Update` behind the lookup. -/
def acknowledge (address : SlaveAddress) (start stop : LogOffset)
    (pointer : Option Nat) (calls : ProgressCalls) : ProgressCalls :=
  match pointer with
  | some pointer => calls.suspend (.updateNode address pointer start stop)
  | none =>
    calls.answer (.notFound (ascii "ip " ++ address.ip ++ ascii " port " ++ decimal address.port))

/-- `Update` on the node it has found. -/
def updateNode (address : SlaveAddress) (pointer : Nat) (start stop : LogOffset)
    (calls : ProgressCalls) : Option ProgressCalls :=
  calls.nodes[pointer]?.map fun entry =>
    let updated := entry.node.update start stop .zero
    let calls := calls.setNode pointer fun _ => updated.2.2
    if updated.1 = .ok then calls.suspend (.writeMatchIndex address updated.2.1)
    else calls.answer (.failed updated.1)

end ProgressCalls

namespace SyncProgress

variable {Key : Type}

/-- `InternalCalCommittedIndex`, where the consensus level is 0. -/
def internalCalCommittedIndex : LogOffset := .zero

def initial (Key : Type) : SyncProgress Key where
  slaves := fun _ => none
  matchIndex := fun _ => none
  calls := { nodes := [], pending := [], results := [] }

/-- Only the calls go on. -/
def onCalls (change : ProgressCalls → ProgressCalls)
    (progress : SyncProgress Key) : SyncProgress Key :=
  { progress with calls := change progress.calls }

variable [DecidableEq Key]

/-- Put a node and a match index in place, or remove both. -/
def setEntry (place : Key) (pointer : Option Nat) (offset : Option LogOffset)
    (progress : SyncProgress Key) : SyncProgress Key :=
  { progress with
    slaves := Function.update progress.slaves place pointer
    matchIndex := Function.update progress.matchIndex place offset }

def setMatchIndex (place : Key) (offset : LogOffset)
    (progress : SyncProgress Key) : SyncProgress Key :=
  { progress with matchIndex := Function.update progress.matchIndex place (some offset) }

variable (key : SlaveAddress → Key)

/-- A call under way goes on. -/
def proceed (progress : SyncProgress Key) : ProgressCall → Option (SyncProgress Key)
  | .insert address sessionId =>
    let pointer := progress.calls.nodes.length
    some ((progress.setEntry (key address) (some pointer) (some .zero)).onCalls
      fun calls => (calls.make address sessionId).answer .ok)
  | .setSessionId pointer sessionId =>
    some (progress.onCalls fun calls =>
      (calls.setNode pointer fun node => { node with sessionId := sessionId }).answer .ok)
  | .updateNode address pointer start stop =>
    (progress.calls.updateNode address pointer start stop).map fun calls =>
      progress.onCalls fun _ => calls
  | .writeMatchIndex address ackedOffset =>
    some ((progress.setMatchIndex (key address) ackedOffset).onCalls
      fun calls => calls.answer (.updated internalCalCommittedIndex))

/-- One step, where the entry of a slave is under the given key. -/
def step (progress : SyncProgress Key) : ProgressLabel → Option (SyncProgress Key)
  | .getSlaveNode address => some (progress.onCalls (.found (progress.slaves (key address))))
  | .addSlaveNode address sessionId =>
    some (progress.onCalls (.add address sessionId (progress.slaves (key address))))
  | .removeSlaveNode address =>
    some ((progress.setEntry (key address) none none).onCalls (.answer .ok))
  | .update address start stop =>
    some (progress.onCalls (.acknowledge address start stop (progress.slaves (key address))))
  | .proceed call =>
    if call ∈ progress.calls.pending then proceed key (progress.onCalls (.resume call)) call
    else none
  | .change pointer node =>
    if pointer < progress.calls.nodes.length then
      some (progress.onCalls (.setNode pointer fun _ => node))
    else none

end SyncProgress
end Pika.Sync
