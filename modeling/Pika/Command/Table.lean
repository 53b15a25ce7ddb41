import Pika.Foundation.Decimal

/-!
# The command table

The commands of `InitCmdTable` with the name, the arity and the flags they are
registered with, and what the flags say.
-/

namespace Pika.Command

open Foundation

/-- The registered command classes, in the order of `InitCmdTable`. -/
inductive CommandName where
  | slaveofCmd | dbSlaveofCmd | authCmd | bgsaveCmd | compactCmd
  | purgelogstoCmd | pingCmd | selectCmd | flushallCmd | flushdbCmd
  | clientCmd | shutdownCmd | infoCmd | configCmd | monitorCmd | dbsizeCmd
  | timeCmd | delbackupCmd | echoCmd | scandbCmd | slowlogCmd | paddingCmd
  | pkPatternMatchDelCmd | dummyCmd | commandCmd | quitCmd | setCmd | getCmd
  | delCmd | incrCmd | incrbyCmd | incrbyfloatCmd | decrCmd | decrbyCmd
  | getsetCmd | appendCmd | mgetCmd | keysCmd | setnxCmd | setexCmd
  | psetexCmd | delvxCmd | msetCmd | msetnxCmd | getrangeCmd | setrangeCmd
  | strlenCmd | existsCmd | expireCmd | pexpireCmd | expireatCmd
  | pexpireatCmd | ttlCmd | pttlCmd | persistCmd | typeCmd | scanCmd
  | scanxCmd | pkSetexAtCmd | pkScanRangeCmd | pkrScanRangeCmd | hDelCmd
  | hSetCmd | hGetCmd | hGetallCmd | hExistsCmd | hIncrbyCmd
  | hIncrbyfloatCmd | hKeysCmd | hLenCmd | hMgetCmd | hMsetCmd | hSetnxCmd
  | hStrlenCmd | hValsCmd | hScanCmd | hScanxCmd | pkhScanRangeCmd
  | pkhrScanRangeCmd | lIndexCmd | lInsertCmd | lLenCmd | lPopCmd | lPushCmd
  | lPushxCmd | lRangeCmd | lRemCmd | lSetCmd | lTrimCmd | rPopCmd
  | rPopLPushCmd | rPushCmd | rPushxCmd | zAddCmd | zCardCmd | zScanCmd
  | zIncrbyCmd | zRangeCmd | zRevrangeCmd | zRangebyscoreCmd
  | zRevrangebyscoreCmd | zCountCmd | zRemCmd | zUnionstoreCmd
  | zInterstoreCmd | zRankCmd | zRevrankCmd | zScoreCmd | zRangebylexCmd
  | zRevrangebylexCmd | zLexcountCmd | zRemrangebyrankCmd
  | zRemrangebyscoreCmd | zRemrangebylexCmd | zPopmaxCmd | zPopminCmd
  | sAddCmd | sPopCmd | sCardCmd | sMembersCmd | sScanCmd | sRemCmd
  | sUnionCmd | sUnionstoreCmd | sInterCmd | sInterstoreCmd | sIsmemberCmd
  | sDiffCmd | sDiffstoreCmd | sMoveCmd | sRandmemberCmd | bitSetCmd
  | bitGetCmd | bitCountCmd | bitPosCmd | bitOpCmd | pfAddCmd | pfCountCmd
  | pfMergeCmd | geoAddCmd | geoPosCmd | geoDistCmd | geoHashCmd
  | geoRadiusCmd | geoRadiusByMemberCmd | publishCmd | subscribeCmd
  | unSubscribeCmd | pSubscribeCmd | pUnSubscribeCmd | pubSubCmd
  deriving DecidableEq

/-! ## Flags -/

def kCmdFlagsMaskRW : Nat := 1
def kCmdFlagsMaskSuspend : Nat := 64
def kCmdFlagsMaskPartition : Nat := 1536

def kCmdFlagsRead : Nat := 0
def kCmdFlagsWrite : Nat := 1
def kCmdFlagsAdmin : Nat := 0
def kCmdFlagsKv : Nat := 2
def kCmdFlagsHash : Nat := 4
def kCmdFlagsList : Nat := 6
def kCmdFlagsSet : Nat := 8
def kCmdFlagsZset : Nat := 10
def kCmdFlagsBit : Nat := 12
def kCmdFlagsHyperLogLog : Nat := 14
def kCmdFlagsGeo : Nat := 16
def kCmdFlagsPubSub : Nat := 18
def kCmdFlagsLocal : Nat := 32
def kCmdFlagsSuspend : Nat := 64
def kCmdFlagsSinglePartition : Nat := 512
def kCmdFlagsMultiPartition : Nat := 1024

def readAdmin : Nat := kCmdFlagsRead ||| kCmdFlagsAdmin
def readOne (kind : Nat) : Nat := kCmdFlagsRead ||| kCmdFlagsSinglePartition ||| kind
def readMulti (kind : Nat) : Nat := kCmdFlagsRead ||| kCmdFlagsMultiPartition ||| kind
def writeOne (kind : Nat) : Nat := kCmdFlagsWrite ||| kCmdFlagsSinglePartition ||| kind
def writeMulti (kind : Nat) : Nat := kCmdFlagsWrite ||| kCmdFlagsMultiPartition ||| kind

/-- What a command is registered with. -/
structure Registration where
  name : String
  /-- The number of arguments, or the least one if negative. -/
  arity : Int
  flag : Nat

namespace CommandName

/-- The arguments of each command's constructor in `InitCmdTable`. -/
def registration : CommandName → Registration
  | slaveofCmd => ⟨"slaveof", -3, readAdmin⟩
  | dbSlaveofCmd => ⟨"dbslaveof", -2, readAdmin⟩
  | authCmd => ⟨"auth", 2, readAdmin⟩
  | bgsaveCmd => ⟨"bgsave", -1, kCmdFlagsRead ||| kCmdFlagsAdmin ||| kCmdFlagsSuspend⟩
  | compactCmd => ⟨"compact", -1, readAdmin⟩
  | purgelogstoCmd => ⟨"purgelogsto", -2, readAdmin⟩
  | pingCmd => ⟨"ping", 1, readAdmin⟩
  | selectCmd => ⟨"select", 2, readAdmin⟩
  | flushallCmd => ⟨"flushall", 1, kCmdFlagsWrite ||| kCmdFlagsSuspend ||| kCmdFlagsAdmin⟩
  | flushdbCmd => ⟨"flushdb", -1, kCmdFlagsWrite ||| kCmdFlagsSuspend ||| kCmdFlagsAdmin⟩
  | clientCmd => ⟨"client", -2, readAdmin⟩
  | shutdownCmd => ⟨"shutdown", 1, kCmdFlagsRead ||| kCmdFlagsLocal ||| kCmdFlagsAdmin⟩
  | infoCmd => ⟨"info", -1, kCmdFlagsRead ||| kCmdFlagsAdmin ||| kCmdFlagsSinglePartition⟩
  | configCmd => ⟨"config", -2, readAdmin⟩
  | monitorCmd => ⟨"monitor", -1, readAdmin⟩
  | dbsizeCmd => ⟨"dbsize", 1, readAdmin⟩
  | timeCmd => ⟨"time", 1, readAdmin⟩
  | delbackupCmd => ⟨"delbackup", 1, readAdmin⟩
  | echoCmd => ⟨"echo", 2, readAdmin⟩
  | scandbCmd => ⟨"scandb", -1, readAdmin⟩
  | slowlogCmd => ⟨"slowlog", -2, readAdmin⟩
  | paddingCmd => ⟨"padding", 2, kCmdFlagsWrite ||| kCmdFlagsAdmin⟩
  | pkPatternMatchDelCmd => ⟨"pkpatternmatchdel", 3, kCmdFlagsWrite ||| kCmdFlagsAdmin⟩
  | dummyCmd => ⟨"dummy", 0, kCmdFlagsWrite ||| kCmdFlagsSinglePartition⟩
  | commandCmd => ⟨"command", 0, readAdmin⟩
  | quitCmd => ⟨"quit", 0, readAdmin⟩
  | setCmd => ⟨"set", -3, writeOne kCmdFlagsKv⟩
  | getCmd => ⟨"get", 2, readOne kCmdFlagsKv⟩
  | delCmd => ⟨"del", -2, writeMulti kCmdFlagsKv⟩
  | incrCmd => ⟨"incr", 2, writeOne kCmdFlagsKv⟩
  | incrbyCmd => ⟨"incrby", 3, writeOne kCmdFlagsKv⟩
  | incrbyfloatCmd => ⟨"incrbyfloat", 3, writeOne kCmdFlagsKv⟩
  | decrCmd => ⟨"decr", 2, writeOne kCmdFlagsKv⟩
  | decrbyCmd => ⟨"decrby", 3, writeOne kCmdFlagsKv⟩
  | getsetCmd => ⟨"getset", 3, writeOne kCmdFlagsKv⟩
  | appendCmd => ⟨"append", 3, writeOne kCmdFlagsKv⟩
  | mgetCmd => ⟨"mget", -2, readMulti kCmdFlagsKv⟩
  | keysCmd => ⟨"keys", -2, readMulti kCmdFlagsKv⟩
  | setnxCmd => ⟨"setnx", 3, writeOne kCmdFlagsKv⟩
  | setexCmd => ⟨"setex", 4, writeOne kCmdFlagsKv⟩
  | psetexCmd => ⟨"psetex", 4, writeOne kCmdFlagsKv⟩
  | delvxCmd => ⟨"delvx", 3, writeOne kCmdFlagsKv⟩
  | msetCmd => ⟨"mset", -3, writeMulti kCmdFlagsKv⟩
  | msetnxCmd => ⟨"msetnx", -3, writeMulti kCmdFlagsKv⟩
  | getrangeCmd => ⟨"getrange", 4, readOne kCmdFlagsKv⟩
  | setrangeCmd => ⟨"setrange", 4, writeOne kCmdFlagsKv⟩
  | strlenCmd => ⟨"strlen", 2, readOne kCmdFlagsKv⟩
  | existsCmd => ⟨"exists", -2, readMulti kCmdFlagsKv⟩
  | expireCmd => ⟨"expire", 3, writeOne kCmdFlagsKv⟩
  | pexpireCmd => ⟨"pexpire", 3, writeOne kCmdFlagsKv⟩
  | expireatCmd => ⟨"expireat", 3, writeOne kCmdFlagsKv⟩
  | pexpireatCmd => ⟨"pexpireat", 3, writeOne kCmdFlagsKv⟩
  | ttlCmd => ⟨"ttl", 2, readOne kCmdFlagsKv⟩
  | pttlCmd => ⟨"pttl", 2, readOne kCmdFlagsKv⟩
  | persistCmd => ⟨"persist", 2, writeOne kCmdFlagsKv⟩
  | typeCmd => ⟨"type", 2, readOne kCmdFlagsKv⟩
  | scanCmd => ⟨"scan", -2, readMulti kCmdFlagsKv⟩
  | scanxCmd => ⟨"scanx", -3, readMulti kCmdFlagsKv⟩
  | pkSetexAtCmd => ⟨"pksetexat", 4, writeOne kCmdFlagsKv⟩
  | pkScanRangeCmd => ⟨"pkscanrange", -4, readOne kCmdFlagsKv⟩
  | pkrScanRangeCmd => ⟨"pkrscanrange", -4, readOne kCmdFlagsKv⟩
  | hDelCmd => ⟨"hdel", -3, writeOne kCmdFlagsHash⟩
  | hSetCmd => ⟨"hset", 4, writeOne kCmdFlagsHash⟩
  | hGetCmd => ⟨"hget", 3, readOne kCmdFlagsHash⟩
  | hGetallCmd => ⟨"hgetall", 2, readOne kCmdFlagsHash⟩
  | hExistsCmd => ⟨"hexists", 3, readOne kCmdFlagsHash⟩
  | hIncrbyCmd => ⟨"hincrby", 4, writeOne kCmdFlagsHash⟩
  | hIncrbyfloatCmd => ⟨"hincrbyfloat", 4, writeOne kCmdFlagsHash⟩
  | hKeysCmd => ⟨"hkeys", 2, readOne kCmdFlagsHash⟩
  | hLenCmd => ⟨"hlen", 2, readOne kCmdFlagsHash⟩
  | hMgetCmd => ⟨"hmget", -3, readOne kCmdFlagsHash⟩
  | hMsetCmd => ⟨"hmset", -4, writeOne kCmdFlagsHash⟩
  | hSetnxCmd => ⟨"hsetnx", 4, writeOne kCmdFlagsHash⟩
  | hStrlenCmd => ⟨"hstrlen", 3, readOne kCmdFlagsHash⟩
  | hValsCmd => ⟨"hvals", 2, readOne kCmdFlagsHash⟩
  | hScanCmd => ⟨"hscan", -3, readOne kCmdFlagsHash⟩
  | hScanxCmd => ⟨"hscanx", -3, readOne kCmdFlagsHash⟩
  | pkhScanRangeCmd => ⟨"pkhscanrange", -4, readOne kCmdFlagsHash⟩
  | pkhrScanRangeCmd => ⟨"pkhrscanrange", -4, readOne kCmdFlagsHash⟩
  | lIndexCmd => ⟨"lindex", 3, readOne kCmdFlagsList⟩
  | lInsertCmd => ⟨"linsert", 5, writeOne kCmdFlagsList⟩
  | lLenCmd => ⟨"llen", 2, readOne kCmdFlagsList⟩
  | lPopCmd => ⟨"lpop", 2, writeOne kCmdFlagsList⟩
  | lPushCmd => ⟨"lpush", -3, writeOne kCmdFlagsList⟩
  | lPushxCmd => ⟨"lpushx", 3, writeOne kCmdFlagsList⟩
  | lRangeCmd => ⟨"lrange", 4, readOne kCmdFlagsList⟩
  | lRemCmd => ⟨"lrem", 4, writeOne kCmdFlagsList⟩
  | lSetCmd => ⟨"lset", 4, writeOne kCmdFlagsList⟩
  | lTrimCmd => ⟨"ltrim", 4, writeOne kCmdFlagsList⟩
  | rPopCmd => ⟨"rpop", 2, writeOne kCmdFlagsList⟩
  | rPopLPushCmd => ⟨"rpoplpush", 3, writeOne kCmdFlagsList⟩
  | rPushCmd => ⟨"rpush", -3, writeOne kCmdFlagsList⟩
  | rPushxCmd => ⟨"rpushx", 3, writeOne kCmdFlagsList⟩
  | zAddCmd => ⟨"zadd", -4, writeOne kCmdFlagsZset⟩
  | zCardCmd => ⟨"zcard", 2, readOne kCmdFlagsZset⟩
  | zScanCmd => ⟨"zscan", -3, readOne kCmdFlagsZset⟩
  | zIncrbyCmd => ⟨"zincrby", 4, writeOne kCmdFlagsZset⟩
  | zRangeCmd => ⟨"zrange", -4, readOne kCmdFlagsZset⟩
  | zRevrangeCmd => ⟨"zrevrange", -4, readOne kCmdFlagsZset⟩
  | zRangebyscoreCmd => ⟨"zrangebyscore", -4, readOne kCmdFlagsZset⟩
  | zRevrangebyscoreCmd => ⟨"zrevrangebyscore", -4, readOne kCmdFlagsZset⟩
  | zCountCmd => ⟨"zcount", 4, readOne kCmdFlagsZset⟩
  | zRemCmd => ⟨"zrem", -3, writeOne kCmdFlagsZset⟩
  | zUnionstoreCmd => ⟨"zunionstore", -4, writeMulti kCmdFlagsZset⟩
  | zInterstoreCmd => ⟨"zinterstore", -4, writeMulti kCmdFlagsZset⟩
  | zRankCmd => ⟨"zrank", 3, readOne kCmdFlagsZset⟩
  | zRevrankCmd => ⟨"zrevrank", 3, readOne kCmdFlagsZset⟩
  | zScoreCmd => ⟨"zscore", 3, readOne kCmdFlagsZset⟩
  | zRangebylexCmd => ⟨"zrangebylex", -4, readOne kCmdFlagsZset⟩
  | zRevrangebylexCmd => ⟨"zrevrangebylex", -4, readOne kCmdFlagsZset⟩
  | zLexcountCmd => ⟨"zlexcount", 4, readOne kCmdFlagsZset⟩
  | zRemrangebyrankCmd => ⟨"zremrangebyrank", 4, writeOne kCmdFlagsZset⟩
  | zRemrangebyscoreCmd => ⟨"zremrangebyscore", 4, writeOne kCmdFlagsZset⟩
  | zRemrangebylexCmd => ⟨"zremrangebylex", 4, writeOne kCmdFlagsZset⟩
  | zPopmaxCmd => ⟨"zpopmax", -2, writeOne kCmdFlagsZset⟩
  | zPopminCmd => ⟨"zpopmin", -2, writeOne kCmdFlagsZset⟩
  | sAddCmd => ⟨"sadd", -3, writeOne kCmdFlagsSet⟩
  | sPopCmd => ⟨"spop", 2, writeOne kCmdFlagsSet⟩
  | sCardCmd => ⟨"scard", 2, readOne kCmdFlagsSet⟩
  | sMembersCmd => ⟨"smembers", 2, readOne kCmdFlagsSet⟩
  | sScanCmd => ⟨"sscan", -3, readOne kCmdFlagsSet⟩
  | sRemCmd => ⟨"srem", -3, writeOne kCmdFlagsSet⟩
  | sUnionCmd => ⟨"sunion", -2, readMulti kCmdFlagsSet⟩
  | sUnionstoreCmd => ⟨"sunionstore", -3, writeMulti kCmdFlagsSet⟩
  | sInterCmd => ⟨"sinter", -2, readMulti kCmdFlagsSet⟩
  | sInterstoreCmd => ⟨"sinterstore", -3, writeMulti kCmdFlagsSet⟩
  | sIsmemberCmd => ⟨"sismember", 3, readOne kCmdFlagsSet⟩
  | sDiffCmd => ⟨"sdiff", -2, readMulti kCmdFlagsSet⟩
  | sDiffstoreCmd => ⟨"sdiffstore", -3, writeMulti kCmdFlagsSet⟩
  | sMoveCmd => ⟨"smove", 4, writeMulti kCmdFlagsSet⟩
  | sRandmemberCmd => ⟨"srandmember", -2, readOne kCmdFlagsSet⟩
  | bitSetCmd => ⟨"setbit", 4, writeOne kCmdFlagsBit⟩
  | bitGetCmd => ⟨"getbit", 3, readOne kCmdFlagsBit⟩
  | bitCountCmd => ⟨"bitcount", -2, readOne kCmdFlagsBit⟩
  | bitPosCmd => ⟨"bitpos", -3, readOne kCmdFlagsBit⟩
  | bitOpCmd => ⟨"bitop", -3, writeMulti kCmdFlagsBit⟩
  | pfAddCmd => ⟨"pfadd", -2, writeOne kCmdFlagsHyperLogLog⟩
  | pfCountCmd => ⟨"pfcount", -2, readMulti kCmdFlagsHyperLogLog⟩
  | pfMergeCmd => ⟨"pfmerge", -3, writeMulti kCmdFlagsHyperLogLog⟩
  | geoAddCmd => ⟨"geoadd", -5, writeOne kCmdFlagsGeo⟩
  | geoPosCmd => ⟨"geopos", -2, readOne kCmdFlagsGeo⟩
  | geoDistCmd => ⟨"geodist", -4, readOne kCmdFlagsGeo⟩
  | geoHashCmd => ⟨"geohash", -2, readOne kCmdFlagsGeo⟩
  | geoRadiusCmd => ⟨"georadius", -6, readMulti kCmdFlagsGeo⟩
  | geoRadiusByMemberCmd => ⟨"georadiusbymember", -5, readMulti kCmdFlagsGeo⟩
  | publishCmd => ⟨"publish", 3, kCmdFlagsRead ||| kCmdFlagsPubSub⟩
  | subscribeCmd => ⟨"subscribe", -2, kCmdFlagsRead ||| kCmdFlagsPubSub⟩
  | unSubscribeCmd => ⟨"unsubscribe", -1, kCmdFlagsRead ||| kCmdFlagsPubSub⟩
  | pSubscribeCmd => ⟨"psubscribe", -2, kCmdFlagsRead ||| kCmdFlagsPubSub⟩
  | pUnSubscribeCmd => ⟨"punsubscribe", -1, kCmdFlagsRead ||| kCmdFlagsPubSub⟩
  | pubSubCmd => ⟨"pubsub", -2, kCmdFlagsRead ||| kCmdFlagsPubSub⟩

def name (command : CommandName) : List UInt8 := ascii command.registration.name

def isWrite (command : CommandName) : Bool :=
  command.registration.flag &&& kCmdFlagsMaskRW == kCmdFlagsWrite

def isSuspend (command : CommandName) : Bool :=
  command.registration.flag &&& kCmdFlagsMaskSuspend == kCmdFlagsSuspend

def isMultiPartition (command : CommandName) : Bool :=
  command.registration.flag &&& kCmdFlagsMaskPartition == kCmdFlagsMultiPartition

def checkArg (command : CommandName) (number : Nat) : Bool :=
  let arity := command.registration.arity
  !((0 < arity && (number : Int) != arity) || (arity < 0 && (number : Int) < -arity))

end CommandName

/-- The commands, in the order of `InitCmdTable` as the constructors are. -/
def cmdTable : List CommandName :=
  (List.range (CommandName.pubSubCmd.ctorIdx + 1)).map CommandName.ofNat

def getCmdFromTable (opt : List UInt8) : Option CommandName :=
  cmdTable.find? fun command => command.name == opt

theorem mem_cmdTable (command : CommandName) : command ∈ cmdTable := by
  refine List.mem_map.mpr ⟨command.ctorIdx, ?_, CommandName.ofNat_ctorIdx command⟩
  cases command <;> decide

end Pika.Command
