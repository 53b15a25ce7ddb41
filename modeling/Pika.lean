import Pika.Binlog.Crash
import Pika.Binlog.Harm
import Pika.Binlog.Lockstep
import Pika.Binlog.TailingSafety
import Pika.Command.BitOp
import Pika.Command.ErrorReply
import Pika.Command.GeoArguments
import Pika.Command.GeoNeighbors
import Pika.Command.GeoReply
import Pika.Command.LexRange
import Pika.Command.Replay
import Pika.Command.Scan
import Pika.Command.ScoreRange
import Pika.Command.StoreArguments
import Pika.Command.TimeToLive
import Pika.Consensus.Applying
import Pika.Consensus.CommitRule
import Pika.Consensus.LogMatching
import Pika.Partition.Conflict
import Pika.Partition.DumpExpiry
import Pika.Partition.Flush
import Pika.Partition.FullSync
import Pika.Replication.Convergence
import Pika.Replication.DbSlaveof
import Pika.Replication.DbSync
import Pika.Replication.FirstOffset
import Pika.Replication.ItemCodec
import Pika.Replication.Locks
import Pika.Replication.PurgeAdvice
import Pika.Replication.Session
import Pika.Replication.ShippingSafety
import Pika.Replication.TrySync
import Pika.Replication.WriteQueue
import Pika.Server.ConfigSurvival
import Pika.Sync.Accounting
import Pika.Sync.NodeSafety
import Pika.Sync.ProgressSafety
