import Pika.Partition.InfoFile
import Pika.Replication.MetaSync

/-!
# Switching to the database of a full sync

When the info file has arrived, the slave closes its database, moves it out of
the way, moves the new one in its place and opens it, and restarts its binlog at
the position of the dump.  Every step on the file system may fail.
-/

namespace Pika.Partition

open Foundation
open Binlog (Bytes)
open Replication (MetaPartition SlavePartitionState)

structure Directory (Data : Type*) where
  data : Data
  /-- `kBgsaveInfoFile`. -/
  info : Option Bytes

/-- A database behind `db_`. -/
structure Database (Data : Type*) where
  data : Data
  opened : Bool

/-- The steps that fail. -/
structure SwitchFaults where
  deleteInfo : Bool
  /-- The first `DeleteDirIfExist`. -/
  deleteBak : Bool
  /-- The first `RenameFile`. -/
  renameOld : Bool
  /-- The second `RenameFile`. -/
  renameNew : Bool
  openNew : Bool
  /-- The second `DeleteDirIfExist`. -/
  deleteOld : Bool

/-- A partition, as far as the switch is concerned. -/
structure SyncNode (Data : Type*) where
  /-- `db_`. -/
  handle : Option (Database Data)
  db : Option (Directory Data)
  /-- `db_path_` with `_bak`. -/
  bak : Option (Directory Data)
  dbsync : Option (Directory Data)
  slave : Option MetaPartition
  /-- The master partition exists. -/
  hasMaster : Bool
  /-- `Logger()` of the master partition. -/
  log : Binlog

def deleteDirIfExist (fails : Bool) (directory : Option (Directory Data)) :
    Option (Directory Data) :=
  if fails then directory else none

namespace SyncNode

variable {Data : Type*}

/-- `SetReplState` of the slave partition, for a state with a connection. -/
def setReplState (state : SlavePartitionState) (node : SyncNode Data) : SyncNode Data :=
  { node with slave := node.slave.map fun slave => { slave with replState := state } }

/-- `DeleteFile` of the info file. -/
def deleteInfo (fails : Bool) (node : SyncNode Data) : SyncNode Data :=
  if fails then node
  else
    { node with dbsync := node.dbsync.map fun directory => { directory with info := none } }

/-- `RenameFile` of `db_path_` to the backup.  A directory is not moved over
another one. -/
def renameOld (fails : Bool) (node : SyncNode Data) : Option (SyncNode Data) :=
  if fails = false ∧ node.db.isSome ∧ node.bak.isNone then
    some { node with db := none, bak := node.db }
  else none

/-- `RenameFile` of `new_path` to `db_path_`. -/
def renameNew (fails : Bool) (node : SyncNode Data) : Option (SyncNode Data) :=
  if fails = false ∧ node.dbsync.isSome ∧ node.db.isNone then
    some { node with dbsync := none, db := node.dbsync }
  else none

def changeDb (faults : SwitchFaults) (node : SyncNode Data) : Bool × SyncNode Data :=
  let closed :=
    { node with bak := deleteDirIfExist faults.deleteBak node.bak, handle := none }
  match closed.renameOld faults.renameOld with
  | none => (false, closed)
  | some moved =>
    match moved.renameNew faults.renameNew with
    | none => (false, moved)
    | some switched =>
      (true,
        { switched with
          handle := switched.db.map fun directory =>
            { data := directory.data, opened := !faults.openNew }
          bak := deleteDirIfExist faults.deleteOld switched.bak })

/-- `TryUpdateMasterOffset`, from `DeleteFile` on. -/
def takeOver (now : Nat) (faults : SwitchFaults) (filenum offset : Nat)
    (node : SyncNode Data) : Bool × SyncNode Data :=
  match (node.deleteInfo faults.deleteInfo).changeDb faults with
  | (false, failed) => (false, failed.setReplState .kError)
  | (true, switched) =>
    if switched.hasMaster then
      (true, setReplState .kTryConnect
        { switched with log := (switched.log.setProducerStatus now filenum offset 0 0).2 })
    else (false, switched)

def tryUpdateMasterOffset (readable : Bool) (now : Nat) (faults : SwitchFaults)
    (node : SyncNode Data) : Bool × SyncNode Data :=
  match node.dbsync.bind Directory.info, node.slave with
  | none, _ => (false, node)
  | some _, none => (false, node)
  | some text, some slave =>
    if readable = false then (false, node.setReplState .kError)
    else
      match readInfo text with
      | none => (false, node.setReplState .kError)
      | some fields =>
        if fields.masterIp ≠ slave.master.ip ∨ fields.masterPort ≠ slave.master.port then
          (false, node.setReplState .kError)
        else node.takeOver now faults (fields.filenum.toNat % 2 ^ 32) fields.offset.toNat

end SyncNode

/-- A partition whose database is open on the files under `db_path_`. -/
structure OpenNode (Data : Type*) extends SyncNode Data where
  directory : Directory Data
  /-- It is under `db_path_`. -/
  db_eq : db = some directory
  handle_eq : handle = some { data := directory.data, opened := true }

namespace SyncNode

variable {Data : Type*} {node : SyncNode Data} {faults : SwitchFaults}

/-! ## `ChangeDb` -/

/-- Both directories can be moved. -/
def Renames (faults : SwitchFaults) (node : SyncNode Data) : Prop :=
  faults.renameOld = false ∧ node.db.isSome ∧ (node.bak.isNone ∨ faults.deleteBak = false) ∧
    faults.renameNew = false ∧ node.dbsync.isSome

theorem isNone_deleteDirIfExist_iff :
    (deleteDirIfExist fails directory).isNone ↔ directory.isNone ∨ fails = false := by
  cases fails <;> simp [deleteDirIfExist]

theorem changeDb_of_renames (renames : node.Renames faults) :
    node.changeDb faults = (true,
        { node with
          handle := node.dbsync.map fun directory =>
            { data := directory.data, opened := !faults.openNew }
          db := node.dbsync
          bak := deleteDirIfExist faults.deleteOld node.db
          dbsync := none }) := by
  obtain ⟨moveOld, present, free, moveNew, arrived⟩ := renames
  have cleared := isNone_deleteDirIfExist_iff.mpr free
  simp only [changeDb, renameOld]
  rw [if_pos ⟨moveOld, present, cleared⟩]
  simp only [renameNew]
  rw [if_pos ⟨moveNew, arrived, rfl⟩]

theorem changeDb_of_not_renames (stuck : ¬node.Renames faults) :
    (node.changeDb faults).1 = false ∧ (node.changeDb faults).2.handle = none := by
  simp only [changeDb, renameOld]
  split_ifs with old
  · simp only [renameNew]
    rw [if_neg]
    · exact ⟨rfl, rfl⟩
    · rintro ⟨moveNew, arrived, -⟩
      exact stuck ⟨old.1, old.2.1, isNone_deleteDirIfExist_iff.mp old.2.2, moveNew, arrived⟩
  · exact ⟨rfl, rfl⟩

theorem changeDb_fst_iff : (node.changeDb faults).1 = true ↔ node.Renames faults := by
  constructor
  · intro changed
    by_contra stuck
    rw [(changeDb_of_not_renames stuck).1] at changed
    cases changed
  · intro renames
    rw [changeDb_of_renames renames]

theorem renames_deleteInfo_iff (fails : Bool) :
    (node.deleteInfo fails).Renames faults ↔ node.Renames faults := by
  cases fails <;> simp [deleteInfo, Renames]

/-- The info file is no part of the data. -/
theorem map_dbsync_deleteInfo (fails : Bool) (node : SyncNode Data) (keep : Data → Other) :
    (node.deleteInfo fails).dbsync.map (fun directory => keep directory.data) =
      node.dbsync.map fun directory => keep directory.data := by
  cases fails <;> simp [deleteInfo, Function.comp_def]

theorem takeOver_of_renames (renames : node.Renames faults) (now filenum offset : Nat) :
    (node.takeOver now faults filenum offset).2.handle = node.dbsync.map (fun directory =>
          { data := directory.data, opened := !faults.openNew }) ∧
      (node.takeOver now faults filenum offset).2.db.map Directory.data =
        node.dbsync.map Directory.data ∧
      (node.takeOver now faults filenum offset).2.dbsync = none := by
  have moved := (renames_deleteInfo_iff faults.deleteInfo).mpr renames
  have handle := map_dbsync_deleteInfo faults.deleteInfo node
    (fun data => Database.mk data (!faults.openNew))
  have files := map_dbsync_deleteInfo faults.deleteInfo node id
  simp only [takeOver, changeDb_of_renames moved]
  split_ifs
  · exact ⟨handle, files, rfl⟩
  · exact ⟨handle, files, rfl⟩

/-- Either the database is closed or the directory of the full sync is gone. -/
theorem takeOver_snd :
    (node.takeOver now faults filenum offset).2.handle = none ∨
      (node.takeOver now faults filenum offset).2.dbsync = none := by
  by_cases renames : node.Renames faults
  · exact .inr (takeOver_of_renames renames now filenum offset).2.2
  · left
    rw [← renames_deleteInfo_iff faults.deleteInfo] at renames
    obtain ⟨failed, closed⟩ := changeDb_of_not_renames renames
    unfold takeOver
    split
    case h_1 after changed =>
      rw [changed] at closed
      exact closed
    case h_2 after changed =>
      rw [changed] at failed
      cases failed

/-! ## `TryUpdateMasterOffset` -/

/-- The info file is there, can be read and names the master. -/
def Accepts (readable : Bool) (node : SyncNode Data) : Prop :=
  readable = true ∧ ∃ text slave fields,
    node.dbsync.bind Directory.info = some text ∧ node.slave = some slave ∧
      readInfo text = some fields ∧
      fields.masterIp = slave.master.ip ∧
      fields.masterPort = slave.master.port

variable {readable : Bool} {now : Nat}

theorem tryUpdateMasterOffset_eq {slave : MetaPartition} {fields : InfoFields}
    (hasInfo : node.dbsync.bind Directory.info = some text)
    (hasSlave : node.slave = some slave) (read : readInfo text = some fields)
    (ip : fields.masterIp = slave.master.ip) (port : fields.masterPort = slave.master.port) :
    node.tryUpdateMasterOffset true now faults =
      node.takeOver now faults (fields.filenum.toNat % 2 ^ 32) fields.offset.toNat := by
  simp [tryUpdateMasterOffset, hasInfo, hasSlave, read, ip, port]

/-- Otherwise only the state of the slave partition may change. -/
theorem tryUpdateMasterOffset_of_not_accepts (rejects : ¬node.Accepts readable)
    (now : Nat) (faults : SwitchFaults) :
    (node.tryUpdateMasterOffset readable now faults).2 = node ∨
      (node.tryUpdateMasterOffset readable now faults).2 = node.setReplState .kError := by
  unfold tryUpdateMasterOffset
  split
  case h_1 => exact .inl rfl
  case h_2 => exact .inl rfl
  case h_3 text slave hasInfo hasSlave =>
    split_ifs with unreadable
    · exact .inr rfl
    · cases read : readInfo text with
      | none => exact .inr rfl
      | some fields =>
        dsimp only
        rw [if_pos]
        · exact .inr rfl
        · by_contra same
          rw [not_or, not_not, not_not] at same
          exact rejects ⟨eq_true_of_ne_false unreadable, text, slave,
            fields, hasInfo, hasSlave, read, same⟩

/-- The new database is under `db_path_` and open. -/
def Switched (node next : SyncNode Data) : Prop :=
  ∃ directory, node.dbsync = some directory ∧
    next.db.map Directory.data = some directory.data ∧
    next.handle = some { data := directory.data, opened := true }

/-- A switch that fails keeps the old database, and the binlog and the info file
are only touched by one that succeeds. -/
structure KeepsOld (readable : Bool) (now : Nat) (faults : SwitchFaults)
    (node : SyncNode Data) : Prop where
  files : (node.changeDb faults).1 = false → (node.changeDb faults).2.db = node.db
  handle : (node.changeDb faults).1 = false →
    ∃ database, (node.changeDb faults).2.handle = some database ∧ database.opened = true
  /-- The position moves with the database. -/
  position : (node.tryUpdateMasterOffset readable now faults).2.log ≠ node.log →
    node.Switched (node.tryUpdateMasterOffset readable now faults).2
  /-- The info file is discarded with the database. -/
  info : (node.tryUpdateMasterOffset readable now faults).2.dbsync.bind
      Directory.info ≠ node.dbsync.bind Directory.info →
    node.Switched (node.tryUpdateMasterOffset readable now faults).2

theorem switched_of_accepts (renames : node.Renames faults)
    (accepts : node.Accepts readable) (opens : faults.openNew = false) :
    node.Switched (node.tryUpdateMasterOffset readable now faults).2 := by
  obtain ⟨rfl, text, slave, fields, hasInfo, hasSlave, read, ip, port⟩ := accepts
  obtain ⟨directory, arrived⟩ := Option.isSome_iff_exists.mp renames.2.2.2.2
  rw [tryUpdateMasterOffset_eq hasInfo hasSlave read ip port]
  obtain ⟨handle, files, -⟩ := takeOver_of_renames renames now
    (fields.filenum.toNat % 2 ^ 32) fields.offset.toNat
  rw [arrived] at handle files
  refine ⟨directory, arrived, files, ?_⟩
  rw [handle, opens]
  rfl

/-- The switch keeps what it promises exactly when both directories can be moved
and the new database can be opened once the info file is accepted. -/
theorem keepsOld_iff (node : OpenNode Data) (readable : Bool) (now : Nat) (faults : SwitchFaults) :
    node.KeepsOld readable now faults ↔ node.Renames faults ∧
        (node.Accepts readable → faults.openNew = false) := by
  constructor
  · intro keeps
    have renames : node.Renames faults := by
      by_contra stuck
      obtain ⟨failed, closed⟩ := changeDb_of_not_renames stuck
      obtain ⟨database, isOpen, -⟩ := keeps.handle failed
      rw [closed] at isOpen
      cases isOpen
    refine ⟨renames, fun accepts => ?_⟩
    obtain ⟨rfl, text, slave, fields, hasInfo, hasSlave, read, ip, port⟩ := accepts
    have taken : node.tryUpdateMasterOffset true now faults =
        node.takeOver now faults (fields.filenum.toNat % 2 ^ 32) fields.offset.toNat :=
      tryUpdateMasterOffset_eq hasInfo hasSlave read ip port
    obtain ⟨handle, -, gone⟩ := takeOver_of_renames renames now
      (fields.filenum.toNat % 2 ^ 32) fields.offset.toNat
    have discarded : (node.tryUpdateMasterOffset true now faults).2.dbsync.bind
        Directory.info ≠ node.dbsync.bind Directory.info := by
      rw [taken, gone, hasInfo]
      exact nofun
    obtain ⟨directory, arrived, -, isOpen⟩ := keeps.info discarded
    rw [taken, handle, arrived] at isOpen
    injection isOpen with isOpen
    injection isOpen with _ isOpen
    simpa using isOpen
  · rintro ⟨renames, opens⟩
    have changed := changeDb_fst_iff.mpr renames
    have unchanged : ¬node.Accepts readable →
        (node.tryUpdateMasterOffset readable now faults).2.log = node.log ∧
          (node.tryUpdateMasterOffset readable now faults).2.dbsync = node.dbsync := by
      intro rejects
      rcases tryUpdateMasterOffset_of_not_accepts rejects now faults with
        same | same
      · rw [same]
        exact ⟨rfl, rfl⟩
      · rw [same]
        exact ⟨rfl, rfl⟩
    refine ⟨?_, ?_, fun moved => ?_, fun discarded => ?_⟩
    · rw [changed]
      exact nofun
    · rw [changed]
      exact nofun
    · by_cases accepts : node.Accepts readable
      · exact switched_of_accepts renames accepts (opens accepts)
      · exact absurd (unchanged accepts).1 moved
    · by_cases accepts : node.Accepts readable
      · exact switched_of_accepts renames accepts (opens accepts)
      · exact absurd (by rw [(unchanged accepts).2]) discarded

/-- The file number has two digits. -/
def cutInfo : InfoFile where
  writer := .dbSyncSendFile
  host := ascii "10.0.0.1"
  host_unmarked := by decide
  port := 9221
  filenum := 12
  offset := 100
  logic := none

/-- The slave of that master. -/
def cutSlave : MetaPartition where
  replState := .kWaitDBSync
  master := { ip := ascii "10.0.0.1", port := 9221 }
  lastRecvTime := 0

/-- A partition with the old data `false`, while the data `true` arrives. -/
def cutNode : OpenNode Bool where
  handle := some { data := false, opened := true }
  db := some { data := false, info := none }
  bak := none
  dbsync := some { data := true, info := some cutInfo.bytes }
  slave := some cutSlave
  hasMaster := true
  log := Binlog.fresh 104857600 0
  directory := { data := false, info := none }
  db_eq := rfl
  handle_eq := rfl

/-- The directory of the full sync is on another file system. -/
def crossDevice : SwitchFaults where
  deleteInfo := false
  deleteBak := false
  renameOld := false
  renameNew := true
  openNew := false
  deleteOld := false

/-- The info file and the database are gone. -/
theorem not_keepsOld_crossDevice :
    (cutNode.tryUpdateMasterOffset true 0 crossDevice).1 = false ∧
      (cutNode.tryUpdateMasterOffset true 0 crossDevice).2.db.isNone ∧
      (cutNode.tryUpdateMasterOffset true 0 crossDevice).2.handle.isNone ∧
      ((cutNode.tryUpdateMasterOffset true 0 crossDevice).2.dbsync.bind Directory.info).isNone ∧
      ¬cutNode.KeepsOld true 0 crossDevice := by
  have small : 0 ≤ cutInfo.port.toInt ∧ ∀ number ∈ cutInfo.positions, number < 2 ^ 63 := by decide
  have read : readInfo cutInfo.bytes = some cutInfo.fields :=
    InfoFile.readInfo_bytes_iff.mpr (InfoFile.names_bytes_iff.mpr small)
  have taken : cutNode.tryUpdateMasterOffset true 0 crossDevice =
      cutNode.takeOver 0 crossDevice 12 100 :=
    tryUpdateMasterOffset_eq rfl rfl read rfl rfl
  rw [taken]
  refine ⟨rfl, rfl, rfl, rfl, fun keeps => ?_⟩
  obtain ⟨database, isOpen, -⟩ := keeps.handle rfl
  cases isOpen

/-! ## The position of the master -/

/-- The call gives the file up and leaves everything else as it is. -/
def Rejected (now : Nat) (faults : SwitchFaults) (node : SyncNode Data) : Prop :=
  node.tryUpdateMasterOffset true now faults = (false, node.setReplState .kError)

theorem rejected_of_not_named {slave : MetaPartition}
    (hasInfo : node.dbsync.bind Directory.info = some text) (hasSlave : node.slave = some slave)
    (unnamed : ¬∃ fields, readInfo text = some fields ∧ fields.masterIp = slave.master.ip ∧
      fields.masterPort = slave.master.port) :
    node.Rejected now faults := by
  cases read : readInfo text with
  | none => simp [Rejected, tryUpdateMasterOffset, hasInfo, hasSlave, read]
  | some fields =>
    have different : fields.masterIp ≠ slave.master.ip ∨
        fields.masterPort ≠ slave.master.port := by
      by_contra same
      rw [not_or, not_not, not_not] at same
      exact unnamed ⟨fields, read, same⟩
    simp [Rejected, tryUpdateMasterOffset, hasInfo, hasSlave, read, different]

/-- An open partition of a slave of the master that wrote the file, where some
of it has arrived. -/
def arrived (info : InfoFile) (slave : MetaPartition) (data : Data)
    (received : Bytes) (node : OpenNode Data) : SyncNode Data :=
  { node.toSyncNode with
    dbsync := some { data := data, info := some received }
    slave := some
      { slave with master := { ip := info.host, port := info.port.toInt } } }

theorem rejected_arrived_iff {info : InfoFile} {slave : MetaPartition}
    {data : Data} {received : Bytes} {node : OpenNode Data} :
    (arrived info slave data received node).Rejected now faults ↔
      ¬∃ fields, readInfo received = some fields ∧ fields.masterIp = info.host ∧
        fields.masterPort = info.port.toInt := by
  constructor
  · rintro rejected ⟨fields, read, ip, port⟩
    rw [Rejected, tryUpdateMasterOffset_eq rfl rfl read ip port] at rejected
    rcases takeOver_snd with closed | gone
    · rw [rejected] at closed
      cases node.handle_eq.symm.trans closed
    · rw [rejected] at gone
      cases gone
  · exact fun unnamed => rejected_of_not_named rfl rfl unnamed

/-- The position arrives: the whole file is read as it was written, and a part
of it or a file with another text in the place of a number is given up. -/
structure Transfers (info : InfoFile) (slave : MetaPartition) (data : Data)
    (received : Bytes) (now : Nat) (faults : SwitchFaults)
    (node : OpenNode Data) : Prop where
  whole : received = info.bytes → readInfo received = some info.fields ∧
      (arrived info slave data received node).tryUpdateMasterOffset true now faults =
        (arrived info slave data received node).takeOver now faults
          info.filenum.toNat info.offset.toNat
  part : received <+: info.bytes → received ≠ info.bytes →
    (arrived info slave data received node).Rejected now faults
  /-- Another text in the place of a number. -/
  malformed : Malformed received → (arrived info slave data received node).Rejected now faults

/-- The position arrives exactly if the reader can take the numbers of a whole
file, and a part does not reach as far as the address. -/
theorem transfers_iff_names (info : InfoFile) (slave : MetaPartition)
    (data : Data) (received : Bytes) (now : Nat) (faults : SwitchFaults) (node : OpenNode Data) :
    Transfers info slave data received now faults node ↔
      (received = info.bytes → info.Names received) ∧
        (received <+: info.bytes → received ≠ info.bytes → ¬info.Names received) := by
  have partIff : received <+: info.bytes → received ≠ info.bytes →
      ((arrived info slave data received node).Rejected now faults ↔ ¬info.Names received) := by
    intro beginning proper
    obtain ⟨cut⟩ := exists_cut beginning proper
    rw [rejected_arrived_iff, InfoFile.readInfo_cut_iff cut]
  constructor
  · intro transfers
    refine ⟨?_, fun beginning proper => ?_⟩
    · rintro rfl
      exact InfoFile.readInfo_bytes_iff.mp (transfers.whole rfl).1
    · exact (partIff beginning proper).mp (transfers.part beginning proper)
  · rintro ⟨whole, part⟩
    refine ⟨?_, fun beginning proper => ?_, fun malformed => ?_⟩
    · rintro rfl
      have read := InfoFile.readInfo_bytes_iff.mpr (whole rfl)
      have filenum : info.fields.filenum.toNat % 2 ^ 32 = info.filenum.toNat :=
        Nat.mod_eq_of_lt info.filenum.isLt
      refine ⟨read, ?_⟩
      rw [← filenum]
      exact tryUpdateMasterOffset_eq rfl rfl read rfl rfl
    · exact (partIff beginning proper).mpr (part beginning proper)
    · rw [rejected_arrived_iff, readInfo_of_malformed malformed]
      rintro ⟨fields, read, -⟩
      cases read

/-- The transfer ends behind the first digit of the file number. -/
def cutOff : Cut newline cutInfo.written
    (unlines newline (cutInfo.written.take 3) ++ decimal 1) where
  before := cutInfo.written.take 3
  line := decimalInt 12
  after := [decimalInt 100]
  part := decimal 1
  written_eq := rfl
  part_of := by
    have digits : decimalInt 12 = decimal 1 ++ [digitByte 2] := by simp [decimalInt, decimal]
    rw [digits]
    exact List.prefix_append _ _
  text_eq := rfl

/-- It is taken for the beginning of the first file. -/
theorem not_transfers_cutOff :
    readInfo (unlines newline (cutInfo.written.take 3) ++ decimal 1) =
        some { cutInfo.fields with filenum := 1, offset := 0 } ∧
      ¬Transfers cutInfo cutSlave true (unlines newline (cutInfo.written.take 3) ++ decimal 1) 0
        { crossDevice with renameNew := false } cutNode := by
  have read : readInfo (unlines newline (cutInfo.written.take 3) ++ decimal 1) =
        some { cutInfo.fields with filenum := 1, offset := 0 } := by
    have isLines : lines newline (unlines newline (cutInfo.written.take 3) ++ decimal 1) =
          cutInfo.written.take 3 ++ [decimal 1] := by
      rw [cutOff.lines_eq InfoFile.unmarked_written]
      exact congrArg _ (if_neg (decimal_ne_nil 1))
    rw [readInfo, isLines, readLines_eq_some_iff (by decide)]
    have port : readNumber (decimalInt 9221) = some 9221 :=
      readNumber_eq_some_iff.mpr ⟨rfl, by decide, by decide⟩
    have filenum : readNumber (decimalInt 1) = some 1 :=
      readNumber_eq_some_iff.mpr ⟨rfl, by decide, by decide⟩
    exact ⟨rfl, port, filenum, rfl, rfl, rfl⟩
  refine ⟨read, fun transfers => ?_⟩
  obtain ⟨beginning, proper⟩ := cutOff.text_proper
  exact rejected_arrived_iff.mp (transfers.part beginning proper) ⟨_, read, rfl, rfl⟩

end SyncNode

end Pika.Partition
