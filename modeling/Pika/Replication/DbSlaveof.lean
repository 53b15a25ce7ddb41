import Mathlib.Data.Nat.Bitwise
import Pika.Binlog.Takeover
import Pika.Command.Stability
import Pika.Replication.MetaSync

/-!
# DBSLAVEOF

The command restarts the replication of one database, at the position of its
arguments if they name one.  The state of the slave partition is tested before
the binlog is restarted and once more afterwards, and the second test admits
fewer states.
-/

namespace Pika.Replication

open Foundation
open Binlog (Bytes Status)
open Command (CmdRet argument sameWord string2l)

/-- The replication of one database. -/
structure DbReplica where
  /-- The `SyncSlavePartition`. -/
  partition : MetaPartition
  localIp : Bytes
  /-- `Logger()` of the `SyncMasterPartition`. -/
  log : Binlog

/-- The server that is given the command. -/
structure SlaveServer where
  classicMode : Bool
  role : Nat
  replState : MetaState
  master : Address
  isTableExist : Bytes → Bool
  replicas : Bytes → Option DbReplica

/-- How the calls that leave the server end. -/
structure DbSlaveofCalls where
  /-- The ip that `SelectLocalIp` finds, if the master is reached. -/
  localIp : Option Bytes
  /-- `SendRemoveSlaveNode`. -/
  sent : Status
  now : Nat
  nowMicros : Nat

/-- What is asked for. -/
inductive DbSlaveofForm where
  | connect
  | force
  /-- `is_noone_`. -/
  | noOne
  | position (filenum offset : Int)
  deriving DecidableEq

inductive DbSlaveofReply where
  | ok
  /-- An error of `DoInitial`, or a missing database. -/
  | refused (error : CmdRet)
  /-- `kErrOther` with a status. -/
  | failed (status : Status)
  deriving DecidableEq

def pikaRoleSlave : Nat := 1

def replStateMsg : SlavePartitionState → String
  | .kNoConnect => "kNoConnect"
  | .kTryConnect => "kTryConnect"
  | .kTryDBSync => "kTryDBSync"
  | .kWaitDBSync => "kWaitDBSync"
  | .kWaitReply => "kWaitReply"
  | .kConnected => "kConnected"
  | .kError => "kError"
  | .kDBNoConnect => "kDBNoConnect"

/-- `filenum_` and `offset_` from their arguments. -/
def dbSlaveofPosition (first second : Bytes) : Except CmdRet DbSlaveofForm :=
  match string2l first with
  | none => .error .kInvalidInt
  | some filenum =>
    if filenum < 0 then .error .kInvalidInt
    else
      match string2l second with
      | none => .error .kInvalidInt
      | some offset =>
        if offset < 0 then .error .kInvalidInt
        else .ok (.position filenum offset)

/-- The end of `DoInitial`, with three or four arguments. -/
def dbSlaveofForm (argv : List Bytes) : Except CmdRet DbSlaveofForm :=
  if argv.length = 3 ∧ sameWord (argument argv 2) "force" then .ok .force
  else if argv.length = 4 then
    if sameWord (argument argv 2) "no" ∧ sameWord (argument argv 3) "one" then .ok .noOne
    else dbSlaveofPosition (argument argv 2) (argument argv 3)
  else .ok .connect

/-- `DbSlaveofCmd::DoInitial`: `db_name_` and what is asked for. -/
def SlaveServer.dbSlaveofInitial (argv : List Bytes) (server : SlaveServer) :
    Except CmdRet (Bytes × DbSlaveofForm) :=
  if !Command.CommandName.dbSlaveofCmd.checkArg argv.length then .error (.kWrongNum "dbslaveof")
  else if !server.classicMode then .error (.kErrOther "DbSlaveof only support on classic mode")
  else if server.role ^^^ pikaRoleSlave ≠ 0 ∨ server.replState ≠ .metaSyncDone then
    .error (.kErrOther "Not currently a slave")
  else if 4 < argv.length then .error (.kWrongNum "dbslaveof")
  else if !server.isTableExist (argument argv 1) then .error (.kErrOther "Invaild db name")
  else (dbSlaveofForm argv).map fun form => (argument argv 1, form)

namespace DbReplica

def activateSyncSlavePartition (calls : DbSlaveofCalls) (master : Address)
    (replState : SlavePartitionState) (replica : DbReplica) :
    Status × DbReplica :=
  if replica.partition.replState ≠ .kNoConnect ∧ replica.partition.replState ≠ .kDBNoConnect then
    (.corruption ("Sync Slave partition in " ++ replStateMsg replica.partition.replState), replica)
  else
    match calls.localIp with
    | none => (.corruption "connect remote node error", replica)
    | some localIp =>
      (.ok,
        { replica with
          localIp := localIp
          partition := .activate master replState calls.nowMicros })

def sendRemoveSlaveNodeRequest (calls : DbSlaveofCalls) (replica : DbReplica) :
    Status × DbReplica :=
  if calls.sent = .ok then
    (.ok, { replica with partition := { replica.partition with replState := .kDBNoConnect } })
  else (calls.sent, replica)

/-- `SetProducerStatus` with the position of the arguments. -/
def setProducerStatus (now : Nat) (filenum offset : Int) (replica : DbReplica) : DbReplica :=
  { replica with
    log := (replica.log.setProducerStatus now (castUInt32 filenum) (castUInt64 offset) 0 0).2 }

/-- The states in which the command does something. -/
def restartable (state : SlavePartitionState) : Bool :=
  state = .kNoConnect ∨ state = .kError ∨ state = .kDBNoConnect

/-- `DbSlaveofCmd::Do` on the database it has found. -/
def dbSlaveof (calls : DbSlaveofCalls) (master : Address) (replica : DbReplica) :
    DbSlaveofForm → Status × DbReplica
  | .noOne => replica.sendRemoveSlaveNodeRequest calls
  | .position filenum offset =>
    if restartable replica.partition.replState then
      (replica.setProducerStatus calls.now filenum
        offset).activateSyncSlavePartition calls master .kTryConnect
    else (.ok, replica)
  | .force =>
    if restartable replica.partition.replState then
      replica.activateSyncSlavePartition calls master .kTryDBSync
    else (.ok, replica)
  | .connect =>
    if restartable replica.partition.replState then
      replica.activateSyncSlavePartition calls master .kTryConnect
    else (.ok, replica)

end DbReplica

namespace SlaveServer

/-- DBSLAVEOF: the reply and the server. -/
def dbSlaveof (calls : DbSlaveofCalls) (argv : List Bytes)
    (server : SlaveServer) : DbSlaveofReply × SlaveServer :=
  match server.dbSlaveofInitial argv with
  | .error error => (.refused error, server)
  | .ok (dbName, form) =>
    match server.replicas dbName with
    | none => (.refused (.kErrOther "Db not found"), server)
    | some replica =>
      let done := replica.dbSlaveof calls server.master form
      (if done.1 = .ok then .ok else .failed done.1,
        { server with replicas := Function.update server.replicas dbName (some done.2) })

end SlaveServer

/-! ## What is asked for -/

/-- The arguments ask for something to be done with a database. -/
def Asks (argv : List Bytes) (dbName : Bytes) : DbSlaveofForm → Prop
  | .connect =>
    ∃ command, argv = [command, dbName] ∨
      ∃ word, argv = [command, dbName, word] ∧ sameWord word "force" = false
  | .force => ∃ command word, argv = [command, dbName, word] ∧ sameWord word "force" = true
  | .noOne =>
    ∃ command first second, argv = [command, dbName, first, second] ∧
      sameWord first "no" = true ∧ sameWord second "one" = true
  | .position filenum offset =>
    ∃ command first second, argv = [command, dbName, first, second] ∧
      ¬(sameWord first "no" = true ∧ sameWord second "one" = true) ∧
      string2l first = some filenum ∧ 0 ≤ filenum ∧
      string2l second = some offset ∧ 0 ≤ offset

/-- The server is a slave that has the database. -/
def SlaveServer.Serves (server : SlaveServer) (dbName : Bytes) : Prop :=
  server.classicMode = true ∧ server.role = pikaRoleSlave ∧
    server.replState = .metaSyncDone ∧ server.isTableExist dbName = true

/-- An error changes no database, and OK means that what was asked for has been
done. -/
structure AllOrNothing (calls : DbSlaveofCalls) (argv : List Bytes)
    (server : SlaveServer) : Prop where
  /-- An error leaves every binlog and slave partition as it was. -/
  nothing : (server.dbSlaveof calls argv).1 ≠ .ok →
    (server.dbSlaveof calls argv).2.replicas = server.replicas
  /-- With a position the binlog is there and the partition connects. -/
  position : ∀ dbName filenum offset, Asks argv dbName (.position filenum offset) →
      (server.dbSlaveof calls argv).1 = .ok → ∃ replica,
          (server.dbSlaveof calls argv).2.replicas dbName = some replica ∧
            replica.log.PositionedAt filenum.toNat offset.toNat ∧
            replica.partition.replState = .kTryConnect
  /-- With `force` the partition asks for a full sync. -/
  force : ∀ dbName, Asks argv dbName .force → (server.dbSlaveof calls argv).1 = .ok →
      ∃ replica, (server.dbSlaveof calls argv).2.replicas dbName = some replica ∧
          replica.partition.replState = .kTryDBSync

/-- A database in which a position can be taken, with the master reached or
not. -/
def DbReplica.TakesPosition (calls : DbSlaveofCalls) (filenum offset : Int)
    (replica : DbReplica) : Prop :=
  -- A restart that is not followed by the activation must change nothing.
  let unharmed := replica.log.opened = true →
    replica.log.RestartedAt calls.now (castUInt32 filenum) offset.toNat
  match replica.partition.replState with
  | .kNoConnect | .kDBNoConnect =>
    if calls.localIp.isSome then
      replica.log.opened = true ∧ filenum < 2 ^ 32 ∧ Binlog.Paddable offset.toNat
    else unharmed
  | .kError => unharmed
  | .kTryConnect => replica.log.PositionedAt filenum.toNat offset.toNat
  | .kTryDBSync | .kWaitDBSync | .kWaitReply | .kConnected => False

/-- A state in which a full sync can be asked for, or has been. -/
def takesForce (state : SlavePartitionState) : Bool :=
  DbReplica.restartable state || state = .kTryDBSync

/-! ## Parsing -/

theorem dbSlaveofForm_three (command dbName word : Bytes) :
    dbSlaveofForm [command, dbName, word] =
      .ok (if sameWord word "force" then .force else .connect) := by
  cases forced : sameWord word "force" <;> simp [dbSlaveofForm, argument, forced]

theorem dbSlaveofForm_four_of_noOne (command dbName : Bytes)
    (noOne : sameWord first "no" = true ∧ sameWord second "one" = true) :
    dbSlaveofForm [command, dbName, first, second] = .ok .noOne := by
  simp [dbSlaveofForm, argument, noOne]

theorem dbSlaveofForm_four_of_not_noOne (command dbName : Bytes)
    (number : ¬(sameWord first "no" = true ∧ sameWord second "one" = true)) :
    dbSlaveofForm [command, dbName, first, second] = dbSlaveofPosition first second := by
  have four : [command, dbName, first, second].length = 4 := rfl
  rw [dbSlaveofForm, if_neg (by simp), if_pos four]
  exact if_neg number

theorem dbSlaveofPosition_eq_ok_iff :
    dbSlaveofPosition first second = .ok form ↔ ∃ filenum offset, form = .position filenum offset ∧
        string2l first = some filenum ∧ 0 ≤ filenum ∧
        string2l second = some offset ∧ 0 ≤ offset := by
  rw [dbSlaveofPosition]
  cases string2l first with
  | none => simp
  | some filenum =>
    by_cases negative : filenum < 0
    · simp [negative]
    · cases string2l second with
      | none => simp [negative]
      | some offset =>
        by_cases below : offset < 0
        · simp [negative, below]
        · simp [negative, below, Int.not_lt.mp negative, Int.not_lt.mp below, eq_comm]

theorem asks_iff :
    Asks argv dbName form ↔ 2 ≤ argv.length ∧ argv.length ≤ 4 ∧ argument argv 1 = dbName ∧
        dbSlaveofForm argv = .ok form := by
  constructor
  · intro asks
    cases form with
    | connect =>
      obtain ⟨command, rfl | ⟨word, rfl, plain⟩⟩ := asks
      · simp [dbSlaveofForm, argument]
      · rw [dbSlaveofForm_three, plain]
        simp [argument]
    | force =>
      obtain ⟨command, word, rfl, forced⟩ := asks
      rw [dbSlaveofForm_three, forced]
      simp [argument]
    | noOne =>
      obtain ⟨command, first, second, rfl, noOne⟩ := asks
      rw [dbSlaveofForm_four_of_noOne command dbName noOne]
      simp [argument]
    | position filenum offset =>
      obtain ⟨command, first, second, rfl, number, numbers⟩ := asks
      rw [dbSlaveofForm_four_of_not_noOne command dbName number, dbSlaveofPosition_eq_ok_iff]
      exact ⟨by simp, by simp, rfl, filenum, offset, rfl, numbers⟩
  · rintro ⟨atLeast, atMost, rfl, parsed⟩
    rcases argv with _ | ⟨command, _ | ⟨name, _ | ⟨first, _ | ⟨second, rest⟩⟩⟩⟩
    · simp at atLeast
    · simp at atLeast
    · cases parsed
      exact ⟨command, .inl rfl⟩
    · rw [dbSlaveofForm_three] at parsed
      cases forced : sameWord first "force" with
      | true =>
        rw [forced] at parsed
        cases parsed
        exact ⟨command, first, rfl, forced⟩
      | false =>
        rw [forced] at parsed
        cases parsed
        exact ⟨command, .inr ⟨first, rfl, forced⟩⟩
    · obtain rfl : rest = [] := by
        simp only [List.length_cons] at atMost
        exact List.length_eq_zero_iff.mp (by omega)
      by_cases noOne : sameWord first "no" = true ∧ sameWord second "one" = true
      · rw [dbSlaveofForm_four_of_noOne command name noOne] at parsed
        cases parsed
        exact ⟨command, first, second, rfl, noOne⟩
      · rw [dbSlaveofForm_four_of_not_noOne command name noOne] at parsed
        obtain ⟨filenum, offset, rfl, numbers⟩ := dbSlaveofPosition_eq_ok_iff.mp parsed
        exact ⟨command, first, second, rfl, noOne, numbers⟩

theorem SlaveServer.dbSlaveofInitial_eq_ok_iff {server : SlaveServer} :
    server.dbSlaveofInitial argv = .ok (dbName, form) ↔
      server.Serves dbName ∧ Asks argv dbName form := by
  have counted : Command.CommandName.dbSlaveofCmd.checkArg argv.length = true ↔
      2 ≤ argv.length := by
    constructor
    · intro enough
      simp [Command.CommandName.checkArg, Command.CommandName.registration] at enough
      omega
    · intro enough
      simp [Command.CommandName.checkArg, Command.CommandName.registration]
      omega
  have role : server.role ^^^ pikaRoleSlave ≠ 0 ↔ server.role ≠ pikaRoleSlave :=
    not_congr Nat.xor_eq_zero_iff
  rw [asks_iff, dbSlaveofInitial, Serves]
  simp only [role]
  constructor
  · intro parsed
    split_ifs at parsed with few mode other many table
    obtain ⟨found, read, same⟩ := Command.Except.map_eq_ok_iff.mp parsed
    cases same
    push Not at other
    simp only [Bool.not_eq_true', Bool.not_eq_false] at few mode table
    exact ⟨⟨mode, other.1, other.2, table⟩, counted.mp few, Nat.not_lt.mp many, rfl, read⟩
  · rintro ⟨⟨mode, slave, done, table⟩, atLeast, atMost, rfl, read⟩
    rw [if_neg (by simp [counted.mpr atLeast]), if_neg (by simp [mode]),
      if_neg (by simp [slave, done]), if_neg (Nat.not_lt.mpr atMost),
      if_neg (by simp [table]), read]
    rfl

/-! ## One database -/

namespace DbReplica

theorem setProducerStatus_eq_self_iff (now : Nat) (filenum : Int)
    (nonnegative : 0 ≤ offset) (bounded : offset < 2 ^ 63) (replica : DbReplica) :
    replica.setProducerStatus now filenum offset = replica ↔ (replica.log.opened = true →
        replica.log.RestartedAt now (castUInt32 filenum) offset.toNat) := by
  have kept : castUInt64 offset = offset.toNat := by
    rw [castUInt64, Int.emod_eq_of_lt nonnegative (by omega)]
  have same : replica.setProducerStatus now filenum offset = replica ↔
      (replica.log.setProducerStatus now (castUInt32 filenum) offset.toNat 0
        0).2 = replica.log := by
    rw [setProducerStatus, kept]
    constructor
    · exact congrArg DbReplica.log
    · intro same
      rw [same]
  rw [same]
  cases opened : replica.log.opened with
  | true =>
    simp only [forall_const]
    exact Binlog.setProducerStatus_eq_self_iff now _ _ opened
  | false => simp [Binlog.setProducerStatus, opened]

theorem positionedAt_setProducerStatus_iff (now : Nat)
    (positive : 0 ≤ filenum) (nonnegative : 0 ≤ offset)
    (bounded : offset < 2 ^ 63) (replica : DbReplica) :
    (replica.setProducerStatus now filenum offset).log.PositionedAt filenum.toNat offset.toNat ↔
      replica.log.opened = true ∧ filenum < 2 ^ 32 ∧ Binlog.Paddable offset.toNat := by
  have kept : castUInt64 offset = offset.toNat := by
    rw [castUInt64, Int.emod_eq_of_lt nonnegative (by omega)]
  have number : filenum.toNat = castUInt32 filenum ↔ filenum < 2 ^ 32 := by
    rw [castUInt32]
    omega
  rw [setProducerStatus, kept]
  cases opened : replica.log.opened with
  | true =>
    rw [Binlog.positionedAt_setProducerStatus_iff now _ _ 0 0 opened, number]
    simp
  | false =>
    simp [Binlog.setProducerStatus, opened, Binlog.PositionedAt, Binlog.getProducerStatus]

theorem activateSyncSlavePartition_of_failed {replica : DbReplica} (failed :
      (replica.activateSyncSlavePartition calls master state).1 ≠ .ok) :
    (replica.activateSyncSlavePartition calls master state).2 = replica := by
  rw [activateSyncSlavePartition] at failed ⊢
  split_ifs with refused
  · rfl
  · rw [if_neg refused] at failed
    cases ip : calls.localIp with
    | none => rfl
    | some localIp =>
      rw [ip] at failed
      exact absurd rfl failed

theorem position_iff (calls : DbSlaveofCalls) (master : Address)
    (positive : 0 ≤ filenum) (nonnegative : 0 ≤ offset)
    (bounded : offset < 2 ^ 63) (replica : DbReplica) :
    (((replica.dbSlaveof calls master (.position filenum offset)).1 ≠ .ok →
          (replica.dbSlaveof calls master (.position filenum offset)).2 = replica) ∧
        ((replica.dbSlaveof calls master (.position filenum offset)).1 = .ok →
          (replica.dbSlaveof calls master
              (.position filenum offset)).2.log.PositionedAt filenum.toNat offset.toNat ∧
            (replica.dbSlaveof calls master
              (.position filenum offset)).2.partition.replState = .kTryConnect)) ↔
      replica.TakesPosition calls filenum offset := by
  have unharmed := setProducerStatus_eq_self_iff calls.now filenum nonnegative bounded replica
  have moved := positionedAt_setProducerStatus_iff calls.now positive nonnegative bounded replica
  have same : (replica.setProducerStatus calls.now filenum
      offset).partition = replica.partition := rfl
  cases state : replica.partition.replState <;> cases ip : calls.localIp <;>
    simp [dbSlaveof, restartable, activateSyncSlavePartition, TakesPosition,
      MetaPartition.activate, same, state, ip, unharmed, moved]

theorem force_iff (calls : DbSlaveofCalls) (master : Address) (replica : DbReplica) :
    (((replica.dbSlaveof calls master .force).1 ≠ .ok →
          (replica.dbSlaveof calls master .force).2 = replica) ∧
        ((replica.dbSlaveof calls master .force).1 = .ok →
          (replica.dbSlaveof calls master .force).2.partition.replState = .kTryDBSync)) ↔
      takesForce replica.partition.replState = true := by
  cases state : replica.partition.replState <;> cases ip : calls.localIp <;>
    simp [dbSlaveof, restartable, activateSyncSlavePartition, takesForce,
      MetaPartition.activate, state, ip]

/-- Without a position and without `force` an error changes nothing. -/
theorem eq_self_of_failed {replica : DbReplica} (plain : form = .connect ∨ form = .noOne)
    (failed : (replica.dbSlaveof calls master form).1 ≠ .ok) :
    (replica.dbSlaveof calls master form).2 = replica := by
  rcases plain with rfl | rfl
  · simp only [dbSlaveof] at failed ⊢
    split_ifs at failed ⊢
    · exact activateSyncSlavePartition_of_failed failed
    · exact absurd rfl failed
  · simp only [dbSlaveof, sendRemoveSlaveNodeRequest] at failed ⊢
    split_ifs at failed ⊢
    · exact absurd rfl failed
    · rfl

end DbReplica

/-! ## The server -/

theorem Asks.unique (asks : Asks argv dbName form) (asksToo : Asks argv otherName otherForm) :
    otherName = dbName ∧ otherForm = form := by
  obtain ⟨-, -, rfl, read⟩ := asks_iff.mp asks
  obtain ⟨-, -, rfl, readToo⟩ := asks_iff.mp asksToo
  exact ⟨rfl, Except.ok.inj (readToo.symm.trans read)⟩

theorem Asks.position_range (asks : Asks argv dbName (.position filenum offset)) :
    0 ≤ filenum ∧ 0 ≤ offset ∧ offset < 2 ^ 63 := by
  obtain ⟨_, _, _, -, -, -, positive, read, nonnegative⟩ := asks
  exact ⟨positive, nonnegative, (readIntIn_eq_some_iff.mp read).2.2⟩

namespace SlaveServer

variable {calls : DbSlaveofCalls} {argv : List Bytes} {server : SlaveServer}
variable {dbName : Bytes} {form : DbSlaveofForm} {replica : DbReplica}

theorem dbSlaveof_of_found (serves : server.Serves dbName) (asks : Asks argv dbName form)
    (found : server.replicas dbName = some replica) :
    server.dbSlaveof calls argv = (if (replica.dbSlaveof calls server.master form).1 = .ok then .ok
        else .failed (replica.dbSlaveof calls server.master form).1,
        { server with
          replicas := Function.update server.replicas dbName
            (some (replica.dbSlaveof calls server.master form).2) }) := by
  rw [dbSlaveof, dbSlaveofInitial_eq_ok_iff.mpr ⟨serves, asks⟩]
  simp only [found]

/-- A command that is not carried out is an error that changes nothing. -/
theorem dbSlaveof_cases (calls : DbSlaveofCalls) (argv : List Bytes) (server : SlaveServer) :
    (∃ error, server.dbSlaveof calls argv = (.refused error, server)) ∨
      ∃ dbName form replica, server.Serves dbName ∧ Asks argv dbName form ∧
          server.replicas dbName = some replica := by
  cases read : server.dbSlaveofInitial argv with
  | error error =>
    left
    exact ⟨error, by rw [dbSlaveof, read]⟩
  | ok parsed =>
    obtain ⟨dbName, form⟩ := parsed
    obtain ⟨serves, asks⟩ := dbSlaveofInitial_eq_ok_iff.mp read
    cases found : server.replicas dbName with
    | none =>
      left
      refine ⟨.kErrOther "Db not found", ?_⟩
      rw [dbSlaveof, read]
      simp only [found]
    | some replica =>
      right
      exact ⟨dbName, form, replica, serves, asks, found⟩

/-- The databases that the server would carry out the command on take what is
asked for. -/
def Takes (calls : DbSlaveofCalls) (argv : List Bytes) (server : SlaveServer) : Prop :=
  ∀ dbName replica, server.Serves dbName → server.replicas dbName = some replica →
      (∀ filenum offset, Asks argv dbName (.position filenum offset) →
          replica.TakesPosition calls filenum offset) ∧
        (Asks argv dbName .force → takesForce replica.partition.replState = true)

theorem nothing_of_found (serves : server.Serves dbName) (asks : Asks argv dbName form)
    (found : server.replicas dbName = some replica) :
    ((server.dbSlaveof calls argv).1 ≠ .ok →
        (server.dbSlaveof calls argv).2.replicas = server.replicas) ↔
      ((replica.dbSlaveof calls server.master form).1 ≠ .ok →
        (replica.dbSlaveof calls server.master form).2 = replica) := by
  rw [dbSlaveof_of_found serves asks found]
  by_cases ok : (replica.dbSlaveof calls server.master form).1 = .ok
  · simp [ok]
  · simp [ok, Function.update_eq_self_iff, found]

theorem reply_of_found (serves : server.Serves dbName) (asks : Asks argv dbName form)
    (found : server.replicas dbName = some replica) :
    (server.dbSlaveof calls argv).1 = .ok ↔
      (replica.dbSlaveof calls server.master form).1 = .ok := by
  rw [dbSlaveof_of_found serves asks found]
  by_cases ok : (replica.dbSlaveof calls server.master form).1 = .ok
  · simp [ok]
  · simp [ok]

theorem replicas_of_found (serves : server.Serves dbName) (asks : Asks argv dbName form)
    (found : server.replicas dbName = some replica) :
    (server.dbSlaveof calls argv).2.replicas dbName =
      some (replica.dbSlaveof calls server.master form).2 := by
  rw [dbSlaveof_of_found serves asks found]
  exact Function.update_self _ _ _

/-- DBSLAVEOF is all or nothing exactly where the database takes what is asked
for. -/
theorem allOrNothing_iff_takes (calls : DbSlaveofCalls) (argv : List Bytes) (server : SlaveServer) :
    AllOrNothing calls argv server ↔ server.Takes calls argv := by
  constructor
  · intro all dbName replica serves found
    constructor
    · intro filenum offset asks
      obtain ⟨positive, nonnegative, bounded⟩ := asks.position_range
      rw [← DbReplica.position_iff calls server.master positive nonnegative bounded replica]
      refine ⟨(nothing_of_found serves asks found).mp all.nothing, ?_⟩
      intro ok
      obtain ⟨after, left, positioned⟩ := all.position dbName filenum offset
        asks ((reply_of_found serves asks found).mpr ok)
      rw [replicas_of_found serves asks found] at left
      cases left
      exact positioned
    · intro asks
      rw [← DbReplica.force_iff calls server.master replica]
      refine ⟨(nothing_of_found serves asks found).mp all.nothing, ?_⟩
      intro ok
      obtain ⟨after, left, forced⟩ := all.force dbName asks
        ((reply_of_found serves asks found).mpr ok)
      rw [replicas_of_found serves asks found] at left
      cases left
      exact forced
  · intro takes
    rcases dbSlaveof_cases calls argv server with ⟨error, refused⟩ |
      ⟨dbName, form, replica, serves, asks, found⟩
    · have notOk : (server.dbSlaveof calls argv).1 ≠ .ok := by
        intro ok
        rw [refused] at ok
        cases ok
      exact
        { nothing := fun _ => by rw [refused]
          position := fun _ _ _ _ ok => absurd ok notOk
          force := fun _ _ ok => absurd ok notOk }
    · obtain ⟨takesPosition, forced⟩ := takes dbName replica serves found
      exact
        { nothing := by
            rw [nothing_of_found serves asks found]
            cases form with
            | connect => exact DbReplica.eq_self_of_failed (.inl rfl)
            | noOne => exact DbReplica.eq_self_of_failed (.inr rfl)
            | force =>
              exact ((DbReplica.force_iff calls server.master replica).mpr (forced asks)).1
            | position filenum offset =>
              obtain ⟨positive, nonnegative, bounded⟩ := asks.position_range
              exact ((DbReplica.position_iff calls server.master positive
                nonnegative bounded replica).mpr (takesPosition filenum offset asks)).1
          position := by
            intro otherName filenum offset asksToo ok
            obtain ⟨rfl, rfl⟩ := asks.unique asksToo
            obtain ⟨positive, nonnegative, bounded⟩ := asksToo.position_range
            refine ⟨_, replicas_of_found serves asks found, ?_⟩
            exact ((DbReplica.position_iff calls server.master positive
              nonnegative bounded replica).mpr (takesPosition filenum offset asks)).2
                  ((reply_of_found serves asks found).mp ok)
          force := by
            intro otherName asksToo ok
            obtain ⟨rfl, rfl⟩ := asks.unique asksToo
            refine ⟨_, replicas_of_found serves asks found, ?_⟩
            exact ((DbReplica.force_iff calls server.master replica).mpr
              (forced asks)).2 ((reply_of_found serves asks found).mp ok) }

/-- A database whose replication has failed. -/
def failedReplica : DbReplica where
  partition :=
    { replState := .kError, master := { ip := ascii "10.0.0.1", port := 9221 }, lastRecvTime := 0 }
  localIp := ascii "10.0.0.2"
  log := .fresh (2 ^ 20) 0

/-- A slave with this database. -/
def failedServer : SlaveServer where
  classicMode := true
  role := pikaRoleSlave
  replState := .metaSyncDone
  master := { ip := ascii "10.0.0.1", port := 9221 }
  isTableExist := fun dbName => dbName == ascii "db0"
  replicas := fun dbName => if dbName = ascii "db0" then some failedReplica else none

/-- DBSLAVEOF db0 5 0. -/
def restartAtFive : List Bytes := [ascii "dbslaveof", ascii "db0", decimalInt 5, decimalInt 0]

/-- The command is refused for the state of the partition after the binlog has
been restarted. -/
theorem not_allOrNothing_restartAtFive :
    ¬AllOrNothing
      { localIp := some (ascii "10.0.0.2"), sent := .ok, now := 0, nowMicros := 0 }
      restartAtFive failedServer := by
  intro all
  have serves : failedServer.Serves (ascii "db0") := ⟨rfl, rfl, rfl, by decide⟩
  have found : failedServer.replicas (ascii "db0") = some failedReplica := rfl
  have five : decimalInt 5 = ascii "5" := by simp [decimalInt, decimal, digitByte, ascii]
  have asks : Asks restartAtFive (ascii "db0") (.position 5 0) := by
    refine ⟨_, _, _, rfl, ?_, ?_, by decide, ?_, by decide⟩
    · rw [five]
      intro noOne
      exact absurd noOne.1 (by decide)
    · exact Command.string2l_decimalInt (by decide) (by decide)
    · exact Command.string2l_decimalInt (by decide) (by decide)
  have unchanged := (nothing_of_found serves asks found).mp all.nothing
    (by simp [DbReplica.dbSlaveof, DbReplica.restartable, failedReplica,
      DbReplica.activateSyncSlavePartition, DbReplica.setProducerStatus])
  have number := congrArg (fun replica => replica.log.proNum) unchanged
  simp [DbReplica.dbSlaveof, DbReplica.restartable, failedReplica,
    DbReplica.activateSyncSlavePartition, DbReplica.setProducerStatus,
    Binlog.setProducerStatus, Binlog.fresh, Binlog.initLogFile, castUInt32] at number

end SlaveServer

end Pika.Replication
