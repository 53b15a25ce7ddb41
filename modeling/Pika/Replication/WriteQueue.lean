import Pika.Command.RecordSize
import Pika.Replication.Shipping

/-!
# Draining the write queues

`ConsumeWriteQueue` takes batches from the queue of every slave and partition
number and sends them.  The size of a batch is counted in an `int`, and a task
that is too large for a batch of its own stays in front of its queue.
-/

namespace Pika.Replication

open Foundation
open List hiding length
open Binlog (Bytes)
open Command (ConnRbufSize FromClient OtherInitial)

/-- The queue of one partition number. -/
structure PartitionQueue where
  partitionId : Nat
  queue : List WriteTask

structure SlaveQueues where
  ipPort : Bytes
  partitions : List PartitionQueue
  distinct : (partitions.map PartitionQueue.partitionId).Nodup

@[ext] structure WriteQueues where
  slaves : List SlaveQueues
  distinct : (slaves.map SlaveQueues.ipPort).Nodup

/-- How the messages to the slaves fare. -/
structure Delivery where
  /-- `ParseIpPortString` succeeds. -/
  parses : Bytes → Bool
  /-- `SendSlaveBinlogChips` succeeds. -/
  sends : Bytes → List WriteTask → Bool

/-- What a call of `ConsumeWriteQueue` leaves. -/
structure Consumed where
  /-- The batches given to `SendSlaveBinlogChips`. -/
  sent : List (Bytes × List WriteTask)
  queues : WriteQueues
  counter : Nat

/-! ## One queue -/

namespace PartitionQueue

def packets (partition : PartitionQueue) : List (List WriteTask) :=
  (fillPackets kBinlogSendPacketNum partition.queue).1

/-- A queue behind its batches. -/
def rest (partition : PartitionQueue) : PartitionQueue :=
  { partition with queue := (fillPackets kBinlogSendPacketNum partition.queue).2 }

end PartitionQueue

/-! ## All queues -/

namespace SlaveQueues

/-- The batches of a slave, `to_send_map[ip_port]`. -/
def packets (slave : SlaveQueues) : List (List WriteTask) :=
  slave.partitions.flatMap PartitionQueue.packets

/-- The queues of a slave behind its batches. -/
def rest (slave : SlaveQueues) : SlaveQueues where
  ipPort := slave.ipPort
  partitions := slave.partitions.map PartitionQueue.rest
  distinct := by
    rw [map_map]
    exact slave.distinct

end SlaveQueues

namespace WriteQueues

/-- The queues behind their batches. -/
def rest (queues : WriteQueues) : WriteQueues where
  slaves := queues.slaves.map SlaveQueues.rest
  distinct := by
    rw [map_map]
    exact queues.distinct

/-- Erase the queues of some slaves. -/
def erase (gone : Bytes → Bool) (queues : WriteQueues) : WriteQueues where
  slaves := queues.slaves.filter fun slave => !gone slave.ipPort
  distinct := (filter_sublist.map SlaveQueues.ipPort).nodup queues.distinct

def consumeWriteQueue (delivery : Delivery) (queues : WriteQueues) : Consumed where
  sent :=
    (queues.slaves.filter fun slave => delivery.parses slave.ipPort).flatMap
      fun slave => slave.packets.map fun batch => (slave.ipPort, batch)
  queues :=
    queues.rest.erase fun ipPort =>
      queues.slaves.any fun slave =>
        slave.ipPort == ipPort && delivery.parses ipPort &&
          slave.packets.any fun batch => !delivery.sends ipPort batch
  counter :=
    (queues.slaves.map fun slave => (slave.packets.map List.length).sum).sum

/-- Every message is delivered. -/
def allDelivered : Delivery where
  parses := fun _ => true
  sends := fun _ _ => true

/-- The queues of all slaves and partition numbers. -/
def partitions (queues : WriteQueues) : List PartitionQueue :=
  queues.slaves.flatMap SlaveQueues.partitions

def tasks (queues : WriteQueues) : List WriteTask :=
  queues.partitions.flatMap PartitionQueue.queue

/-- The queues after a number of calls whose messages are delivered. -/
def afterCalls (calls : Nat) (queues : WriteQueues) : WriteQueues :=
  (fun queues => (consumeWriteQueue allDelivered queues).queues)^[calls] queues

end WriteQueues

/-- Batches and what is left are the queue, and the batches keep the bounds. -/
structure Batched (queue : List WriteTask) (batches : List (List WriteTask))
    (rest : List WriteTask) : Prop where
  /-- Nothing is lost, repeated or moved. -/
  whole : batches.flatten ++ rest = queue
  filled : ∀ batch ∈ batches, batch ≠ []
  short : ∀ batch ∈ batches, batch.length ≤ kBinlogSendBatchNum
  /-- A batch has at most `PIKA_MAX_CONN_RBUF_HB` bytes. -/
  small : ∀ batch ∈ batches, totalSize WriteTask.size batch ≤ maxConnRbufHB

/-- One call takes proper batches, and calls empty queues of clients'
records. -/
structure Drains (otherInitial : OtherInitial) (buffer : ConnRbufSize)
    (queues : WriteQueues) : Prop where
  batched : ∀ partition ∈ queues.partitions,
    Batched partition.queue partition.packets partition.rest.queue
  /-- A call takes a task. -/
  progress :
    (∀ task ∈ queues.tasks, FromClient otherInitial buffer task.binlog) → queues.tasks ≠ [] →
        0 < (queues.consumeWriteQueue WriteQueues.allDelivered).counter
  /-- Enough calls take all tasks. -/
  empties :
    (∀ task ∈ queues.tasks, FromClient otherInitial buffer task.binlog) →
      ∃ calls, (queues.afterCalls calls).tasks = []

/-! ## Batches of a queue -/

theorem PartitionQueue.queue_rest (partition : PartitionQueue) :
    partition.rest.queue = afterRound WriteTask.size fitsAsInt kBinlogSendBatchNum
        kBinlogSendPacketNum partition.queue :=
  congrArg Prod.snd (fillPackets_eq_cutBatches _ _)

namespace WriteQueues

end WriteQueues

end Pika.Replication
