import Pika.Binlog.Item
import Pika.Binlog.Journal
import Pika.Foundation.Reorder
import Pika.Foundation.Transition

/-!
# Command threads and bgsave on one partition

Command threads run `InternalProcessCommand` on one partition: they take the
record locks of their keys, run `Do` under the shared side of `db_rwlock_` (a
suspending command takes its exclusive side inside `Do`), append their binlog
record and release the record locks.  A bgsave takes the exclusive side of
`db_rwlock_`, reads the producer status and captures the database.
-/

namespace Pika.Partition

open Foundation Binlog

/-- What the machine needs to know of the commands, which are named by `Id`. -/
structure Setup (Id Key Db : Type*) where
  /-- `g_pika_conf->write_binlog()`. -/
  writeBinlog : Bool
  isWrite : Id → Bool
  isSuspend : Id → Bool
  /-- The keys handed to `MultiScopeRecordLock` for a write. -/
  lockKeys : Id → List Key
  /-- `Do` on the database, with `res().ok()` afterwards. -/
  execute : Id → Db → Db × Bool
  toBinlog : Id → BinlogItem → Bytes

/-- The keys whose record locks a command takes. -/
def Setup.recordKeys {Id Key Db : Type*} (setup : Setup Id Key Db) (job : Id) : List Key :=
  if setup.isWrite job then setup.lockKeys job else []

/-- Where a command thread stands. -/
inductive Stage where
  /-- Before the record locks are taken. -/
  | waiting
  | locked
  /-- The shared side of `db_rwlock_` is held. -/
  | reading
  /-- `Do` has run and `db_rwlock_` is still held. -/
  | executed (ok : Bool)
  | released (ok : Bool)
  | logged (ok : Bool)
  /-- The record locks are released. -/
  | finished (ok : Bool)
  deriving DecidableEq, Repr

namespace Stage

/-- The record locks are held. -/
def Holding : Stage → Prop
  | waiting | finished _ => False
  | locked | reading | executed _ | released _ | logged _ => True

/-- The shared side of `db_rwlock_` is held. -/
def Reading : Stage → Prop
  | reading | executed _ => True
  | _ => False

/-- `Do` has run with success. -/
def Succeeded : Stage → Prop
  | executed ok | released ok | logged ok | finished ok => ok = true
  | _ => False

/-- `DoBinlog` has returned for a command whose `Do` had success. -/
def Recorded : Stage → Prop
  | logged ok | finished ok => ok = true
  | _ => False

end Stage

/-- Where a bgsave stands. -/
inductive BgsaveStage where
  /-- `db_rwlock_` is not held by a bgsave. -/
  | outside
  /-- The exclusive side is held. -/
  | exclusive
  | offsetTaken (offset : BinlogOffset)
  | captured
  deriving DecidableEq, Repr

/-- A binlog record of a command, with the position behind it. -/
structure Entry (Id : Type*) where
  job : Id
  /-- The position behind the record. -/
  position : BinlogOffset

/-- What a bgsave has taken. -/
structure Capture (Db : Type*) where
  /-- `bgsave_info_.offset`. -/
  offset : BinlogOffset
  content : Db

/-- A partition with its command threads. -/
structure System (Id Key Db : Type*) where
  stage : Id → Stage
  /-- The table of record locks. -/
  owner : Key → Option Id
  /-- The threads that hold the shared side of `db_rwlock_`. -/
  readers : List Id
  bgsaving : Bool
  bgsave : BgsaveStage
  db : Db
  log : Binlog
  /-- The commands whose `Do` had success, in the order of their `Do`. -/
  executed : List Id
  entries : List (Entry Id)
  /-- What the bgsaves have taken. -/
  captures : List (Capture Db)

inductive Label (Id : Type*) where
  | lock (job : Id)
  | dbRWLockReader (job : Id)
  | execute (job : Id)
  | dbRWUnLock (job : Id)
  /-- A thread runs `DoBinlog`, at the given time and emission times. -/
  | doBinlog (job : Id) (execTime : Nat) (now : Nat → Nat)
  | unlock (job : Id)
  | bgSavePartition
  /-- `InitBgsaveEngine` takes the exclusive side of `db_rwlock_`. -/
  | bgsaveLock
  /-- `InitBgsaveEngine` takes the producer status. -/
  | bgsaveOffset
  | setBackupContent
  /-- `InitBgsaveEngine` releases `db_rwlock_`. -/
  | bgsaveUnlock
  | finishBgsave

namespace System

variable {Id Key Db : Type*}

def initial (fileSize term : Nat) (db : Db) : System Id Key Db :=
  { stage := fun _ => .waiting
    owner := fun _ => none
    readers := []
    bgsaving := false
    bgsave := .outside
    db := db
    log := fresh fileSize term
    executed := []
    entries := []
    captures := [] }

variable [DecidableEq Id] [DecidableEq Key]

/-- A thread moves to another stage. -/
def goto (system : System Id Key Db) (job : Id) (stage : Stage) : System Id Key Db :=
  { system with stage := Function.update system.stage job stage }

/-- The fields `ProposeLog` gives to `ToBinlog`. -/
def binlogItem (system : System Id Key Db) (execTime : Nat) : BinlogItem :=
  { execTime := execTime
    termId := system.log.version.term
    logicId := (system.log.version.logicId + 1) % 2 ^ 64
    filenum := system.log.version.proNum
    offset := system.log.version.proOffset }

/-- `ProposeLog`, which holds the binlog's lock throughout.  Appends to the files
succeed. -/
def proposeLog (setup : Setup Id Key Db) (system : System Id Key Db) (job : Id)
    (execTime : Nat) (now : Nat → Nat) : Option (System Id Key Db) :=
  (system.log.put now (setup.toBinlog job (system.binlogItem execTime))).map fun result =>
      if result.1 = .ok then
        { system.goto job (.logged true) with
          log := result.2
          entries := system.entries ++ [{ job := job, position := result.2.position }] }
      else { system.goto job (.logged false) with log := result.2 }

/-- `Do`, with the commands whose `Do` had success. -/
def executeDo (system : System Id Key Db) (job : Id) (stage : Bool → Stage)
    (result : Db × Bool) : System Id Key Db :=
  { system.goto job (stage result.2) with
    db := result.1
    executed := if result.2 then system.executed ++ [job] else system.executed }

def step (setup : Setup Id Key Db) (system : System Id Key Db) :
    Label Id → Option (System Id Key Db)
  | .lock job =>
    if system.stage job = .waiting ∧ ∀ key ∈ setup.recordKeys job, system.owner key = none then
      some { system.goto job .locked with
        owner := fun key =>
          if key ∈ setup.recordKeys job then some job
          else system.owner key }
    else none
  | .dbRWLockReader job =>
    if system.stage job = .locked ∧ setup.isSuspend job = false ∧ system.bgsave = .outside then
      some { system.goto job .reading with readers := job :: system.readers }
    else none
  | .execute job =>
    if setup.isSuspend job then
      -- `FlushDB` takes the exclusive side, and does nothing during a bgsave.
      if system.stage job = .locked ∧ system.readers = [] ∧ system.bgsave = .outside then
        some (system.executeDo job .released (if system.bgsaving then (system.db, true)
          else setup.execute job system.db))
      else none
    else if system.stage job = .reading then
      some (system.executeDo job .executed (setup.execute job system.db))
    else none
  | .dbRWUnLock job =>
    match system.stage job with
    | .executed ok =>
      some { system.goto job (.released ok) with readers := system.readers.erase job }
    | _ => none
  | .doBinlog job execTime now =>
    match system.stage job with
    | .released ok =>
      if ok && setup.isWrite job && setup.writeBinlog then
        system.proposeLog setup job execTime now
      else some (system.goto job (.logged ok))
    | _ => none
  | .unlock job =>
    match system.stage job with
    | .logged ok =>
      some { system.goto job (.finished ok) with
        owner := fun key => if key ∈ setup.recordKeys job then none else system.owner key }
    | _ => none
  | .bgSavePartition => if system.bgsaving then none else some { system with bgsaving := true }
  | .bgsaveLock =>
    if system.bgsaving ∧ system.bgsave = .outside ∧ system.readers = [] then
      some { system with bgsave := .exclusive }
    else none
  | .bgsaveOffset =>
    if system.bgsave = .exclusive then
      -- The status of `GetProducerStatus` is not looked at.
      some { system with
        bgsave := .offsetTaken (system.log.getProducerStatus.getD
            { filenum := 0, offset := 0 }) }
    else none
  | .setBackupContent =>
    match system.bgsave with
    | .offsetTaken offset =>
      some { system with
        bgsave := .captured
        captures := system.captures ++ [{ offset := offset, content := system.db }] }
    | _ => none
  | .bgsaveUnlock =>
    if system.bgsave = .captured then some { system with bgsave := .outside }
    else none
  | .finishBgsave =>
    if system.bgsaving ∧ system.bgsave = .outside then some { system with bgsaving := false }
    else none

end System
end Pika.Partition
