import Pika.Binlog.Record

/-!
# Terms of the replication

What several modules about the exchange between a master and its slaves share:
the bounds on what is sent at once, the test of a binlog item, and the states
of a slave partition.
-/

namespace Pika.Replication

open Binlog (Bytes)

/-- `PIKA_MAX_CONN_RBUF_HB`. -/
def maxConnRbufHB : Nat := 2 ^ 29

/-- The batches that are taken from a queue at once. -/
def kBinlogSendPacketNum : Nat := 40

/-- The tasks of a batch. -/
def kBinlogSendBatchNum : Nat := 100

/-- `BinlogItemWithoutContentDecode` looks at the type field only.  It reads
the terminator of a string of one byte. -/
def binlogItemWithoutContentDecode (binlog : Bytes) : Bool := (binlog ++ [0]).take 2 == [1, 0]

/-- An item that passes the test is not empty. -/
theorem ne_nil_of_decode (decodes : binlogItemWithoutContentDecode binlog = true) :
    binlog ≠ [] := by
  rintro rfl
  exact absurd decodes (by decide)

/-- `ReplState`, the states of a slave partition. -/
inductive SlavePartitionState where
  | kNoConnect | kTryConnect | kTryDBSync | kWaitDBSync | kWaitReply
  | kConnected | kError | kDBNoConnect
  deriving DecidableEq, Repr

end Pika.Replication
