import Pika.Binlog.Record
import Pika.Foundation.Decimal
import Pika.Foundation.MachineInt
import Pika.Foundation.SlotMap
import Pika.Foundation.Transition

/-!
# Looking up tables and partitions

The tables and the sync partitions are kept in arrays of eight slots, and the
slot of a name is its third character.  In a release build nothing else of the
name, nor the partition id, is looked at.  The requests that bring names from
outside are compared with what they would answer if the arrays were maps.
-/

namespace Pika.Partition

open Foundation
open Binlog (Bytes)

def kMaxDbNum : Nat := 8

/-- The third character of a string as a `char`.  A string of two characters
ends in a zero there; a shorter one has nothing. -/
def thirdChar (name : Bytes) : Option Int :=
  if name.length = 2 then some 0
  else name[2]?.map fun byte => byte.toInt8.toInt

/-- `DbIdxFromStr` and the `ROCKSDB_VERIFY_LT` behind it, without assertions. -/
def dbIdxFromStr (name : Bytes) : Access (Fin kMaxDbNum) :=
  match thirdChar name with
  | none => .undefined
  | some char =>
    let idx := castUInt64 (castInt32 (char - 48))
    if bounded : idx < kMaxDbNum then .returned ⟨idx, bounded⟩ else .aborted

def dbName (slot : Fin kMaxDbNum) : Bytes := ascii "db" ++ [UInt8.ofNat (48 + slot)]

structure PartitionInfo where
  tableName : Bytes
  partitionId : Nat
  deriving DecidableEq

/-- A character is taken for a slot if it is the slot's digit. -/
theorem castUInt64_char_eq_iff (byte : UInt8) (slot : Fin kMaxDbNum) :
    castUInt64 (castInt32 (byte.toInt8.toInt - 48)) = slot ↔ byte = UInt8.ofNat (48 + slot) := by
  have all : ∀ value < 256, ∀ slot : Fin kMaxDbNum,
      castUInt64 (castInt32 ((UInt8.ofNat value).toInt8.toInt - 48)) = slot ↔
        UInt8.ofNat value = UInt8.ofNat (48 + slot) := by
    decide +kernel
  have here := all byte.toNat byte.toNat_lt slot
  rwa [UInt8.ofNat_toNat] at here

/-- A slot is computed from the third character, which has to be its digit. -/
theorem dbIdxFromStr_eq_returned_iff :
    dbIdxFromStr name = .returned slot ↔ name[2]? = some (UInt8.ofNat (48 + slot)) := by
  unfold dbIdxFromStr thirdChar
  split_ifs with short
  · have nothing : name[2]? = none := List.getElem?_eq_none short.le
    have large : ¬castUInt64 (castInt32 (-48)) < kMaxDbNum := by decide +kernel
    simp [nothing, large]
  · cases third : name[2]? with
    | none => simp
    | some byte =>
      simp only [Option.map_some, Option.some.injEq, ← castUInt64_char_eq_iff byte slot]
      split_ifs with bounded
      · simp [Fin.ext_iff]
      · refine iff_of_false nofun fun same => bounded ?_
        rw [same]
        exact slot.isLt

theorem dbIdxFromStr_dbName (slot : Fin kMaxDbNum) :
    dbIdxFromStr (dbName slot) = .returned slot := by
  rw [dbIdxFromStr_eq_returned_iff]
  rfl

/-- `tables_`. -/
def tableHomes : Homes Bytes kMaxDbNum where
  home := dbName
  index := dbIdxFromStr
  index_home := dbIdxFromStr_dbName

/-- `sync_master_partitions_`. -/
def partitionHomes : Homes PartitionInfo kMaxDbNum where
  home slot := { tableName := dbName slot, partitionId := 0 }
  index key := dbIdxFromStr key.tableName
  index_home slot := dbIdxFromStr_dbName slot

/-! ## Requests -/

/-- How partitions and tables are looked up. -/
structure Lookups (Sync Table : Type*) where
  /-- `find` and `operator[]` of the sync partitions, also through
  `GetSyncMasterPartitionByName`. -/
  partition : PartitionInfo → Access (Option Sync)
  table : Bytes → Access (Option Table)

/-- A request that brings a name from outside. -/
inductive LookupRequest where
  | find (key : PartitionInfo)
  | subscript (key : PartitionInfo)
  | erase (key : PartitionInfo)
  | trySync (key : PartitionInfo)
  | getTable (name : Bytes)
  | isTableExist (name : Bytes)
  /-- The tables given to BGSAVE. -/
  | bgsave (names : List Bytes)
  /-- The tables given to COMPACT. -/
  | compact (names : List Bytes)
  /-- The table given to PURGELOGSTO. -/
  | purgelogsto (name : Bytes)
  /-- The database given to DBSLAVEOF. -/
  | dbSlaveof (name : Bytes)

inductive LookupAnswer (Sync Table : Type*) where
  | partition (entry : Option Sync)
  | table (entry : Option Table)
  | exists (present : Bool)
  | erased
  | accepted
  | partitionNotFound
  | invalidTable (name : Bytes)
  | invalidDbName

namespace Lookups

variable {Sync Table : Type*}

/-- The loop over the tables given to BGSAVE and COMPACT. -/
def checkTables (lookups : Lookups Sync Table) : List Bytes → Access (LookupAnswer Sync Table)
  | [] => .returned .accepted
  | name :: names =>
    (lookups.table name).ifPresent (.invalidTable name) fun _ => lookups.checkTables names

/-- A request up to the answer that depends on its names. -/
def answer (lookups : Lookups Sync Table) : LookupRequest → Access (LookupAnswer Sync Table)
  | .find key | .subscript key => (lookups.partition key).map .partition
  | .erase key => (lookups.partition key).map fun _ => .erased
  | .trySync key =>
    (lookups.partition key).ifPresent .partitionNotFound fun entry =>
      .returned (.partition (some entry))
  | .getTable name => (lookups.table name).map .table
  | .isTableExist name => (lookups.table name).map fun entry => .exists entry.isSome
  | .bgsave names | .compact names => lookups.checkTables names
  | .purgelogsto name =>
    (lookups.table name).ifPresent (.invalidTable name) fun _ =>
      (lookups.partition { tableName := name, partitionId := 0 }).ifPresent
        .partitionNotFound fun entry => .returned (.partition (some entry))
  | .dbSlaveof name =>
    (lookups.table name).ifPresent .invalidDbName fun _ => .returned .accepted

end Lookups

structure LookupArrays (Sync Table : Type*) where
  partitions : Fin kMaxDbNum → Option Sync
  tables : Fin kMaxDbNum → Option Table

/-- Two maps, from full names and ids. -/
@[ext]
structure LookupMaps (Sync Table : Type*) where
  partitions : PartitionInfo → Option Sync
  tables : Bytes → Option Table

variable {Sync Table : Type*}

/-- The lookups as the source has them. -/
def LookupArrays.lookups (arrays : LookupArrays Sync Table) : Lookups Sync Table where
  partition := partitionHomes.lookup arrays.partitions
  table := tableHomes.lookup arrays.tables

/-- The lookups of maps. -/
def LookupMaps.lookups (maps : LookupMaps Sync Table) : Lookups Sync Table where
  partition key := .returned (maps.partitions key)
  table name := .returned (maps.tables name)

/-- The maps that two arrays stand for. -/
def LookupArrays.toMaps (arrays : LookupArrays Sync Table) : LookupMaps Sync Table where
  partitions := partitionHomes.toMap arrays.partitions
  tables := tableHomes.toMap arrays.tables

/-- The arrays after a request. -/
def LookupArrays.update (arrays : LookupArrays Sync Table) :
    LookupRequest → LookupArrays Sync Table
  | .erase key =>
    match partitionHomes.erase arrays.partitions key with
    | .returned partitions => { arrays with partitions := partitions }
    | _ => arrays
  | _ => arrays

def LookupMaps.update (maps : LookupMaps Sync Table) : LookupRequest → LookupMaps Sync Table
  | .erase key =>
    { maps with partitions := Function.update maps.partitions key none }
  | _ => maps

/-! ## Names with slots of their own -/

namespace LookupArrays

variable (arrays : LookupArrays Sync Table)

/-- The third character of a table's name is the digit of a slot, and the slot
is empty or the name is the slot's. -/
def KnownTable (name : Bytes) : Prop :=
  ∃ slot : Fin kMaxDbNum, name[2]? = some (UInt8.ofNat (48 + slot)) ∧
    (dbName slot = name ∨ arrays.tables slot = none)

/-- The third character of a partition's table is the digit of a slot, and the
slot is empty or the name is the slot's and the id is zero. -/
def KnownPartition (key : PartitionInfo) : Prop :=
  ∃ slot : Fin kMaxDbNum, key.tableName[2]? = some (UInt8.ofNat (48 + slot)) ∧
    ({ tableName := dbName slot, partitionId := 0 } = key ∨ arrays.partitions slot = none)

/-- The tables up to the first one that does not exist are known. -/
def KnownTables : List Bytes → Prop
  | [] => True
  | name :: names =>
    arrays.KnownTable name ∧ (arrays.toMaps.tables name ≠ none → KnownTables names)

/-- The names of a request are known. -/
def Known : LookupRequest → Prop
  | .find key | .subscript key | .erase key | .trySync key => arrays.KnownPartition key
  | .getTable name | .isTableExist name | .purgelogsto name
  | .dbSlaveof name => arrays.KnownTable name
  | .bgsave names | .compact names => arrays.KnownTables names

variable {arrays}

theorem regular_table_iff (name : Bytes) :
    tableHomes.Regular arrays.tables name ↔ arrays.KnownTable name := by
  simp only [Homes.Regular, tableHomes, dbIdxFromStr_eq_returned_iff, KnownTable]

theorem regular_partition_iff (key : PartitionInfo) :
    partitionHomes.Regular arrays.partitions key ↔ arrays.KnownPartition key := by
  simp only [Homes.Regular, partitionHomes, dbIdxFromStr_eq_returned_iff, KnownPartition]

theorem table_of_checkTables {lookups : Lookups Sync Table}
    (refused : lookups.checkTables names = .returned (.invalidTable name)) :
    lookups.table name = .returned none := by
  induction names with
  | nil => cases refused
  | cons first names ih =>
    unfold Lookups.checkTables at refused
    cases looked : lookups.table first with
    | returned entry =>
      cases entry with
      | none =>
        rw [looked, Access.ifPresent_none] at refused
        cases refused
        exact looked
      | some entry =>
        rw [looked, Access.ifPresent_some] at refused
        exact ih refused
    | aborted | undefined =>
      rw [looked] at refused
      cases refused

theorem checkTables_eq_iff (names : List Bytes) :
    arrays.lookups.checkTables names = arrays.toMaps.lookups.checkTables names ↔
      arrays.KnownTables names := by
  induction names with
  | nil => exact iff_of_true rfl trivial
  | cons name names ih =>
    refine (Homes.ifPresent_lookup_eq_iff ?_).trans ?_
    · intro entry looked refused
      cases (table_of_checkTables refused).symm.trans looked
    · rw [regular_table_iff, KnownTables]
      refine and_congr_right fun _ => ⟨?_, ?_⟩
      · intro alike present
        obtain ⟨entry, found⟩ := Option.ne_none_iff_exists'.mp present
        exact ih.mp (alike entry found)
      · intro known entry found
        exact ih.mpr (known (Option.ne_none_iff_exists'.mpr ⟨entry, found⟩))

theorem regular_partition_of_table (present : arrays.toMaps.tables name ≠ none) :
    partitionHomes.Regular arrays.partitions
      { tableName := name, partitionId := 0 } := by
  obtain ⟨slot, rfl⟩ := Homes.exists_home_of_toMap_ne_none present
  exact Homes.regular_home slot

theorem answer_purgelogsto_iff (name : Bytes) :
    arrays.lookups.answer (.purgelogsto name) = arrays.toMaps.lookups.answer (.purgelogsto name) ↔
      arrays.KnownTable name := by
  refine (Homes.ifPresent_lookup_eq_iff ?_).trans ?_
  · intro entry _ refused
    cases looked : arrays.lookups.partition
      { tableName := name, partitionId := 0 } with
    | returned found => cases found <;> simp [looked] at refused
    | aborted | undefined => simp [looked, Access.ifPresent, Access.bind] at refused
  · rw [regular_table_iff]
    refine and_iff_left ?_
    intro entry found
    have regular := regular_partition_of_table (Option.ne_none_iff_exists'.mpr ⟨entry, found⟩)
    exact congrArg (Access.ifPresent _ _) ((Homes.lookup_eq_toMap_iff _).mpr regular)

theorem agrees_erase_iff (key : PartitionInfo) :
    (arrays.lookups.answer (.erase key) = arrays.toMaps.lookups.answer (.erase key) ∧
        (arrays.update (.erase key)).toMaps = arrays.toMaps.update (.erase key)) ↔
      arrays.KnownPartition key := by
  rw [← regular_partition_iff, ← Homes.erase_toMap_iff]
  cases indexed : partitionHomes.index key with
  | returned slot =>
    simp [Lookups.answer, lookups, LookupMaps.lookups, Homes.lookup,
      update, LookupMaps.update, Homes.erase, indexed, toMaps]
  | aborted | undefined =>
    simp [Lookups.answer, lookups, LookupMaps.lookups, Homes.lookup,
      Homes.erase, indexed, Access.map, Access.bind]

/-- A request is answered as maps would answer it, and leaves what they would
hold, exactly if its names are known. -/
theorem agrees_iff_known (request : LookupRequest) :
    (arrays.lookups.answer request = arrays.toMaps.lookups.answer request ∧
        (arrays.update request).toMaps = arrays.toMaps.update request) ↔ arrays.Known request := by
  cases request with
  | erase key => exact agrees_erase_iff key
  | find key | subscript key =>
    refine (and_iff_left rfl).trans ?_
    refine (Homes.map_lookup_eq_iff ?_).trans (regular_partition_iff key)
    simp
  | trySync key =>
    refine (and_iff_left rfl).trans ?_
    refine (Homes.ifPresent_lookup_eq_iff ?_).trans ?_
    · exact fun _ _ => nofun
    · exact (and_iff_left fun _ _ => rfl).trans (regular_partition_iff key)
  | getTable name | isTableExist name =>
    refine (and_iff_left rfl).trans ?_
    refine (Homes.map_lookup_eq_iff ?_).trans (regular_table_iff name)
    simp
  | bgsave names | compact names => exact (and_iff_left rfl).trans (checkTables_eq_iff names)
  | purgelogsto name => exact (and_iff_left rfl).trans (answer_purgelogsto_iff name)
  | dbSlaveof name =>
    refine (and_iff_left rfl).trans ?_
    refine (Homes.ifPresent_lookup_eq_iff ?_).trans ?_
    · exact fun _ _ => nofun
    · exact (and_iff_left fun _ _ => rfl).trans (regular_table_iff name)

end LookupArrays

/-! ## Runs -/

/-- The arrays of a server beside the maps they should be. -/
structure LookupNode (Sync Table : Type*) where
  arrays : LookupArrays Sync Table
  maps : LookupMaps Sync Table
  /-- What the arrays and what the maps answered. -/
  answers : List (Access (LookupAnswer Sync Table) × Access (LookupAnswer Sync Table))

inductive LookupLabel (Sync Table : Type*) where
  | request (request : LookupRequest)
  | addPartition (slot : Fin kMaxDbNum) (entry : Sync)
  /-- `InitTableStruct` for a configured database. -/
  | addTable (slot : Fin kMaxDbNum) (entry : Table)

namespace LookupNode

/-- A server with any set of tables and partitions. -/
def initial (arrays : LookupArrays Sync Table) : LookupNode Sync Table where
  arrays := arrays
  maps := arrays.toMaps
  answers := []

/-- One step on the arrays and on the maps. -/
def step (node : LookupNode Sync Table) : LookupLabel Sync Table → Option (LookupNode Sync Table)
  | .request request =>
    some
      { arrays := node.arrays.update request
        maps := node.maps.update request
        answers := node.answers ++ [(node.arrays.lookups.answer request,
            node.maps.lookups.answer request)] }
  | .addPartition slot entry =>
    some
      { node with
        arrays := { node.arrays with
          partitions := Function.update node.arrays.partitions slot (some entry) }
        maps := { node.maps with
          partitions := Function.update node.maps.partitions
            { tableName := dbName slot, partitionId := 0 } (some entry) } }
  | .addTable slot entry =>
    some
      { node with
        arrays := { node.arrays with
          tables := Function.update node.arrays.tables slot (some entry) }
        maps := { node.maps with
          tables := Function.update node.maps.tables (dbName slot) (some entry) } }

/-- The arrays hold what the maps hold, and all requests were answered as the
maps answered them. -/
structure Refines (node : LookupNode Sync Table) : Prop where
  toMaps_eq : node.arrays.toMaps = node.maps
  answers : ∀ answer ∈ node.answers, answer.1 = answer.2

/-- The names of a request are known. -/
def Known (node : LookupNode Sync Table) : LookupLabel Sync Table → Prop
  | .request request => node.arrays.Known request
  | .addPartition _ _ | .addTable _ _ => True

theorem refines_step_iff {node next : LookupNode Sync Table}
    (refines : node.Refines) (stepped : node.step label = some next) :
    next.Refines ↔ node.Known label := by
  obtain ⟨contents, answers⟩ := refines
  cases label with
  | request request =>
    cases stepped
    rw [Known, ← LookupArrays.agrees_iff_known, contents]
    constructor
    · intro after
      exact ⟨after.answers _ (List.mem_append_right _
        (List.mem_singleton_self _)), after.toMaps_eq⟩
    · rintro ⟨same, left⟩
      refine ⟨left, ?_⟩
      intro answer member
      rcases List.mem_append.mp member with old | new
      · exact answers answer old
      · rw [List.mem_singleton.mp new]
        exact same
  | addPartition slot entry =>
    cases stepped
    refine iff_of_true ⟨?_, answers⟩ trivial
    rw [← contents]
    ext1
    · exact Homes.toMap_update_home slot _
    · rfl
  | addTable slot entry =>
    cases stepped
    refine iff_of_true ⟨?_, answers⟩ trivial
    rw [← contents]
    ext1
    · rfl
    · exact Homes.toMap_update_home slot _

/-- Along a run the arrays are maps from full names and ids if and only if the
names of every request are known. -/
theorem refines_iff_known (arrays : LookupArrays Sync Table)
    (labels : List (LookupLabel Sync Table)) :
    RunSatisfies step Refines (initial arrays) labels ↔
      RunAdmissible step Known (initial arrays) labels := by
  refine runSatisfies_iff_runSafe id
    (fun refines known stepped => (refines_step_iff refines stepped).mpr known) ?_ ⟨rfl, nofun⟩
  intro node label refines unknown
  have taken : ∃ next, node.step label = some next := by
    cases label <;> exact ⟨_, rfl⟩
  obtain ⟨next, stepped⟩ := taken
  refine ⟨next, stepped, ?_⟩
  rwa [refines_step_iff refines stepped]

/-- A TrySync for the table `db9` ends the process. -/
theorem not_refines_trySync :
    ¬RunSatisfies step Refines (initial
        { partitions := fun _ => none, tables := fun _ => none : LookupArrays Unit Unit })
      [.request (.trySync { tableName := ascii "db9", partitionId := 0 })] := by
  intro refines
  have after : Refines _ := refines.2 _ rfl
  have same := after.answers _ (List.mem_singleton_self _)
  have aborts : dbIdxFromStr (ascii "db9") = .aborted := by decide +kernel
  simp [Lookups.answer, LookupArrays.lookups, LookupMaps.lookups, initial,
    LookupArrays.toMaps, Homes.lookup, Homes.toMap, partitionHomes, aborts,
    Access.map, Access.ifPresent, Access.bind] at same

end LookupNode

end Pika.Partition
