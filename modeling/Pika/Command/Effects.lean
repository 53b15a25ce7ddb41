import Pika.Command.Encoding

/-!
# Commands that change the database

The functions of the engine that the `Do` of every command calls, and the
guards that only writes go through: the refusal on a read-only slave, the
record locks and the binlog.  Of all commands only the two radius queries call
a function that their registration does not announce.
-/

namespace Pika.Command

open Foundation
open Binlog (Bytes)

/-- The functions of a partition and its engine that some `Do` calls. -/
inductive EngineFunction where
  | flushDB | flushSubDB | getUsage | getRocksDBInfo | pkPatternMatchDel
  | set | setex | setnx | setvx | setxx | get | del | incrby | incrbyfloat
  | decrby | getSet | append | mGet | scan | delvx | mSet | mSetnx | getrange
  | setrange | strlen | existsKeys | expire | expireat | ttl | persist | type
  | scanx | pkSetexAt | pkScanRange | pkrScanRange | hDel | hSet | hGet
  | hScan | hExists | hIncrby | hIncrbyfloat | hKeys | hLen | hMGet | hMSet
  | hSetnx | hStrlen | hVals | hScanx | pkhScanRange | pkhrScanRange | lIndex
  | lInsert | lLen | lPop | lPush | lPushx | lRange | lRem | lSet | lTrim
  | rPop | rPoplpush | rPush | rPushx | zAdd | zCard | zScan | zIncrby
  | zRange | zRevrange | zRangebyscore | zRevrangebyscore | zCount | zRem
  | zUnionstore | zInterstore | zRank | zRevrank | zScore | zRangebylex
  | zLexcount | zRemrangebyrank | zRemrangebyscore | zRemrangebylex | zPopMax
  | zPopMin | sAdd | sPop | sCard | sMembers | sScan | sRem | sUnion
  | sUnionstore | sInter | sInterstore | sIsmember | sDiff | sDiffstore
  | sMove | sRandmember | setBit | getBit | bitCount | bitPos | bitOp | pfAdd
  | pfCount | pfMerge
  deriving DecidableEq

/-- Whether a function can change the content of the database. -/
def EngineFunction.mutates : EngineFunction → Bool
  | .getUsage | .getRocksDBInfo | .get | .mGet | .scan | .getrange | .strlen
  | .existsKeys | .ttl | .type | .scanx | .pkScanRange | .pkrScanRange
  | .hGet | .hScan | .hExists | .hKeys | .hLen | .hMGet | .hStrlen | .hVals
  | .hScanx | .pkhScanRange | .pkhrScanRange | .lIndex | .lLen | .lRange
  | .zCard | .zScan | .zRange | .zRevrange | .zRangebyscore
  | .zRevrangebyscore | .zCount | .zRank | .zRevrank | .zScore | .zRangebylex
  | .zLexcount | .sCard | .sMembers | .sScan | .sUnion | .sInter | .sIsmember
  | .sDiff | .sRandmember | .getBit | .bitCount | .bitPos | .pfCount => false
  | _ => true

/-! ## Radius queries -/

/-- The source's `Sort`. -/
inductive GeoSort where
  | unsort | asc | desc
  deriving DecidableEq, Repr

/-- The options of a radius query. -/
structure GeoRange where
  withdist : Bool
  withhash : Bool
  withcoord : Bool
  optionNum : Nat
  count : Bool
  countLimit : Nat
  store : Bool
  storedist : Bool
  storekey : Bytes
  sort : GeoSort
  deriving DecidableEq

/-- The options after `Clear`. -/
def GeoRange.clear : GeoRange :=
  { withdist := false
    withhash := false
    withcoord := false
    optionNum := 0
    count := false
    countLimit := 0
    store := false
    storedist := false
    storekey := []
    sort := .unsort }

/-- `std::stoi` of a digit string, with nothing where it throws. -/
def stoi (text : Bytes) : Option Nat :=
  (readDigits text).filter fun number => decide (number < 2 ^ 31)

/-- The loop over the options, with nothing where it throws. -/
def geoOptions : List Bytes → GeoRange → Option (Except CmdRet GeoRange)
  | [], range => some (.ok range)
  | opt :: rest, range =>
    if sameWord opt "withdist" then
      geoOptions rest
        { range with withdist := true, optionNum := range.optionNum + 1 }
    else if sameWord opt "withhash" then
      geoOptions rest
        { range with withhash := true, optionNum := range.optionNum + 1 }
    else if sameWord opt "withcoord" then
      geoOptions rest
        { range with withcoord := true, optionNum := range.optionNum + 1 }
    else if sameWord opt "count" then
      match rest with
      | [] => some (.error .kSyntaxErr)
      | number :: rest =>
        if number.all fun byte => (byteDigit byte).isSome then
          (stoi number).bind fun limit =>
            geoOptions rest { range with count := true, countLimit := limit }
        else some (.error (.kErrOther "value is not an integer or out of range"))
    else if sameWord opt "store" then
      match rest with
      | [] => some (.error .kSyntaxErr)
      | key :: rest => geoOptions rest { range with store := true, storekey := key }
    else if sameWord opt "storedist" then
      match rest with
      | [] => some (.error .kSyntaxErr)
      | key :: rest => geoOptions rest { range with storedist := true, storekey := key }
    else if sameWord opt "asc" then geoOptions rest { range with sort := .asc }
    else if sameWord opt "desc" then geoOptions rest { range with sort := .desc }
    else some (.error .kSyntaxErr)

def checkUnit (unit : Bytes) : Bool :=
  unit == ascii "m" || unit == ascii "km" || unit == ascii "ft" || unit == ascii "mi"

/-- `DoInitial` of a radius query whose unit stands at an index and is followed
by the options. -/
def geoRadiusInitial (command : CommandName) (unitIndex : Nat)
    (argv : List Bytes) : Option (Except CmdRet GeoRange) :=
  if command.checkArg argv.length then
    if checkUnit (argument argv unitIndex) then
      (geoOptions (argv.drop (unitIndex + 1)) GeoRange.clear).map fun parsed =>
        parsed.bind fun range =>
          if range.store && (range.withdist || range.withcoord || range.withhash) then
            .error (.kErrOther ("STORE option in GEORADIUS is not compatible " ++
              "with WITHDIST, WITHHASH and WITHCOORDS options"))
          else .ok range
    else some (.error (.kErrOther "unsupported unit provided. please use m, km, ft, mi"))
  -- Both classes report the name of GEORADIUS.
  else some (.error (.kWrongNum "georadius"))

/-- The options of an accepted radius query, for both classes. -/
def acceptedRange (command : CommandName) (argv : List Bytes) : Option GeoRange :=
  match command with
  | .geoRadiusCmd => (geoRadiusInitial .geoRadiusCmd 5 argv).bind Except.toOption
  | .geoRadiusByMemberCmd => (geoRadiusInitial .geoRadiusByMemberCmd 4 argv).bind Except.toOption
  | _ => none

/-- The functions `GetAllNeighbors` calls. -/
def getAllNeighborsCalls (range : GeoRange) : List EngineFunction :=
  if range.store || range.storedist then [.zRangebyscore, .zAdd]
  else [.zRangebyscore]

/-! ## What each command calls -/

/-- The functions the `Do` of an accepted command can call. -/
def doCalls (command : CommandName) (argv : List Bytes) : List EngineFunction :=
  match command with
  | .geoRadiusCmd =>
    match acceptedRange .geoRadiusCmd argv with
    | some range => getAllNeighborsCalls range
    | none => []
  | .geoRadiusByMemberCmd =>
    match acceptedRange .geoRadiusByMemberCmd argv with
    | some range => .zScore :: getAllNeighborsCalls range
    | none => []
  | .flushallCmd => [.flushDB]
  | .flushdbCmd => [.flushDB, .flushSubDB]
  | .infoCmd => [.getUsage, .getRocksDBInfo]
  | .pkPatternMatchDelCmd => [.pkPatternMatchDel]
  | .setCmd => [.set, .setex, .setnx, .setvx, .setxx]
  | .getCmd => [.get]
  | .delCmd => [.del]
  | .incrCmd => [.incrby]
  | .incrbyCmd => [.incrby]
  | .incrbyfloatCmd => [.incrbyfloat]
  | .decrCmd => [.decrby]
  | .decrbyCmd => [.decrby]
  | .getsetCmd => [.getSet]
  | .appendCmd => [.append]
  | .mgetCmd => [.mGet]
  | .keysCmd => [.scan]
  | .setnxCmd => [.setnx]
  | .setexCmd => [.setex]
  | .psetexCmd => [.setex]
  | .delvxCmd => [.delvx]
  | .msetCmd => [.mSet]
  | .msetnxCmd => [.mSetnx]
  | .getrangeCmd => [.getrange]
  | .setrangeCmd => [.setrange]
  | .strlenCmd => [.strlen]
  | .existsCmd => [.existsKeys]
  | .expireCmd => [.expire]
  | .pexpireCmd => [.expire]
  | .expireatCmd => [.expireat]
  | .pexpireatCmd => [.expireat]
  | .ttlCmd => [.ttl]
  | .pttlCmd => [.ttl]
  | .persistCmd => [.persist]
  | .typeCmd => [.type]
  | .scanCmd => [.scan]
  | .scanxCmd => [.scanx]
  | .pkSetexAtCmd => [.pkSetexAt]
  | .pkScanRangeCmd => [.pkScanRange]
  | .pkrScanRangeCmd => [.pkrScanRange]
  | .hDelCmd => [.hDel]
  | .hSetCmd => [.hSet]
  | .hGetCmd => [.hGet]
  | .hGetallCmd => [.hScan]
  | .hExistsCmd => [.hExists]
  | .hIncrbyCmd => [.hIncrby]
  | .hIncrbyfloatCmd => [.hIncrbyfloat]
  | .hKeysCmd => [.hKeys]
  | .hLenCmd => [.hLen]
  | .hMgetCmd => [.hMGet]
  | .hMsetCmd => [.hMSet]
  | .hSetnxCmd => [.hSetnx]
  | .hStrlenCmd => [.hStrlen]
  | .hValsCmd => [.hVals]
  | .hScanCmd => [.hScan]
  | .hScanxCmd => [.hScanx]
  | .pkhScanRangeCmd => [.pkhScanRange]
  | .pkhrScanRangeCmd => [.pkhrScanRange]
  | .lIndexCmd => [.lIndex]
  | .lInsertCmd => [.lInsert]
  | .lLenCmd => [.lLen]
  | .lPopCmd => [.lPop]
  | .lPushCmd => [.lPush]
  | .lPushxCmd => [.lPushx]
  | .lRangeCmd => [.lRange]
  | .lRemCmd => [.lRem]
  | .lSetCmd => [.lSet]
  | .lTrimCmd => [.lTrim]
  | .rPopCmd => [.rPop]
  | .rPopLPushCmd => [.rPoplpush]
  | .rPushCmd => [.rPush]
  | .rPushxCmd => [.rPushx]
  | .zAddCmd => [.zAdd]
  | .zCardCmd => [.zCard]
  | .zScanCmd => [.zScan]
  | .zIncrbyCmd => [.zIncrby]
  | .zRangeCmd => [.zRange]
  | .zRevrangeCmd => [.zRevrange]
  | .zRangebyscoreCmd => [.zRangebyscore]
  | .zRevrangebyscoreCmd => [.zRevrangebyscore]
  | .zCountCmd => [.zCount]
  | .zRemCmd => [.zRem]
  | .zUnionstoreCmd => [.zUnionstore]
  | .zInterstoreCmd => [.zInterstore]
  | .zRankCmd => [.zRank]
  | .zRevrankCmd => [.zRevrank]
  | .zScoreCmd => [.zScore]
  | .zRangebylexCmd => [.zRangebylex]
  | .zRevrangebylexCmd => [.zRangebylex]
  | .zLexcountCmd => [.zLexcount]
  | .zRemrangebyrankCmd => [.zRemrangebyrank]
  | .zRemrangebyscoreCmd => [.zRemrangebyscore]
  | .zRemrangebylexCmd => [.zRemrangebylex]
  | .zPopmaxCmd => [.zPopMax]
  | .zPopminCmd => [.zPopMin]
  | .sAddCmd => [.sAdd]
  | .sPopCmd => [.sPop]
  | .sCardCmd => [.sCard]
  | .sMembersCmd => [.sMembers]
  | .sScanCmd => [.sScan]
  | .sRemCmd => [.sRem]
  | .sUnionCmd => [.sUnion]
  | .sUnionstoreCmd => [.sUnionstore]
  | .sInterCmd => [.sInter]
  | .sInterstoreCmd => [.sInterstore]
  | .sIsmemberCmd => [.sIsmember]
  | .sDiffCmd => [.sDiff]
  | .sDiffstoreCmd => [.sDiffstore]
  | .sMoveCmd => [.sMove]
  | .sRandmemberCmd => [.sRandmember]
  | .bitSetCmd => [.setBit]
  | .bitGetCmd => [.getBit]
  | .bitCountCmd => [.bitCount]
  | .bitPosCmd => [.bitPos]
  | .bitOpCmd => [.bitOp]
  | .pfAddCmd => [.pfAdd]
  | .pfCountCmd => [.pfCount]
  | .pfMergeCmd => [.pfMerge]
  | .geoAddCmd => [.zAdd]
  | .geoPosCmd => [.zScore]
  | .geoDistCmd => [.zScore]
  | .geoHashCmd => [.zScore]
  | .slaveofCmd | .dbSlaveofCmd | .authCmd | .bgsaveCmd | .compactCmd
  | .purgelogstoCmd | .pingCmd | .selectCmd | .clientCmd | .shutdownCmd
  | .configCmd | .monitorCmd | .dbsizeCmd | .timeCmd | .delbackupCmd
  | .echoCmd | .scandbCmd | .slowlogCmd | .paddingCmd | .dummyCmd
  | .commandCmd | .quitCmd | .publishCmd | .subscribeCmd | .unSubscribeCmd
  | .pSubscribeCmd | .pUnSubscribeCmd | .pubSubCmd => []

/-- An engine whose reading functions leave the database as it is. -/
structure Engine (Db : Type) where
  /-- The database after a call. -/
  run : EngineFunction → Db → Db
  reads : ∀ function, function.mutates = false → ∀ db, run function db = db

/-- The database after some calls. -/
def Engine.perform (engine : Engine Db) (functions : List EngineFunction) (db : Db) : Db :=
  functions.foldl (fun db function => engine.run function db) db

/-- Some engine's database changes when the command runs. -/
def CanChange (command : CommandName) (argv : List Bytes) : Prop :=
  ∃ (Db : Type) (engine : Engine Db) (db : Db), engine.perform (doCalls command argv) db ≠ db

/-- Calls of reading functions leave the database as it is. -/
theorem Engine.perform_eq_self (engine : Engine Db)
    (reading : ∀ function ∈ functions, function.mutates = false) (db : Db) :
    engine.perform functions db = db := by
  induction functions with
  | nil => rfl
  | cons function functions ih =>
    obtain ⟨first, later⟩ := List.forall_mem_cons.mp reading
    rw [perform, List.foldl_cons, engine.reads function first]
    exact ih later

/-- The engine that counts the calls of mutating functions. -/
def countingEngine : Engine Nat where
  run function count := if function.mutates then count + 1 else count
  reads function reading count := by simp [reading]

theorem le_perform_countingEngine (functions : List EngineFunction) (count : Nat) :
    count ≤ countingEngine.perform functions count := by
  induction functions generalizing count with
  | nil => exact le_rfl
  | cons function functions ih =>
    refine le_trans ?_ (ih (countingEngine.run function count))
    simp only [countingEngine]
    split_ifs <;> omega

theorem lt_perform_countingEngine (member : function ∈ functions)
    (mutates : function.mutates = true) (count : Nat) :
    count < countingEngine.perform functions count := by
  induction functions generalizing count with
  | nil => cases member
  | cons first later ih =>
    have step : countingEngine.perform (first :: later) count =
        countingEngine.perform later (countingEngine.run first count) := rfl
    have grows : count ≤ countingEngine.run first count := by
      simp only [countingEngine]
      split_ifs <;> omega
    rw [step]
    rcases List.mem_cons.mp member with rfl | later
    · refine lt_of_lt_of_le ?_ (le_perform_countingEngine _ _)
      simp [countingEngine, mutates]
    · exact lt_of_le_of_lt grows (ih later _)

/-- A command can change the database exactly when it calls a mutating
function. -/
theorem canChange_iff (command : CommandName) (argv : List Bytes) :
    CanChange command argv ↔ ∃ function ∈ doCalls command argv, function.mutates = true := by
  constructor
  · rintro ⟨Db, engine, db, changes⟩
    by_contra reading
    refine changes (engine.perform_eq_self ?_ db)
    intro function member
    exact Bool.eq_false_iff.mpr fun mutates => reading ⟨function, member, mutates⟩
  · rintro ⟨function, member, mutates⟩
    exact ⟨Nat, countingEngine, 0, (lt_perform_countingEngine member mutates 0).ne'⟩

/-! ## Guards -/

/-- The error with which `DoCmd` refuses a command before it executes it. -/
def refusal (binlogIoError readonly : Bool) (command : CommandName)
    (argv : List Bytes) : Option CmdRet :=
  if command.isWrite then
    if binlogIoError then some (.kErrOther "Writing binlog failed, maybe no space left on device")
    else if (currentKey command argv).isEmpty then some (.kErrOther "Internal ERROR")
    else if readonly then some (.kErrOther "Server in read-only")
    else none
  else none

/-- The record locks of `InternalProcessCommand`, with the keys of the hint
where the command is split. -/
def recordLocks (hintKeys : Option (List Bytes)) (command : CommandName)
    (argv : List Bytes) : List Bytes :=
  if command.isWrite then hintKeys.getD (currentKey command argv) else []

/-- `DoBinlog` appends a record. -/
def appendsBinlog (succeeded writeBinlog : Bool) (command : CommandName) : Bool :=
  succeeded && command.isWrite && writeBinlog

/-- A command that can change the database is a write: it is refused on a
read-only slave, locks its records, and is appended when it succeeds. -/
def ChangesAreGuarded (command : CommandName) (argv : List Bytes) : Prop :=
  CanChange command argv → command.isWrite = true ∧
      (∀ binlogIoError, (refusal binlogIoError true command argv).isSome) ∧
      (∀ hintKeys, recordLocks hintKeys command argv = hintKeys.getD (currentKey command argv)) ∧
      ∀ writeBinlog, appendsBinlog true writeBinlog command = writeBinlog

/-- An accepted radius query with STORE or STOREDIST. -/
def StoresResult (command : CommandName) (argv : List Bytes) : Prop :=
  ∃ range, acceptedRange command argv = some range ∧ (range.store || range.storedist) = true

theorem changesAreGuarded_of_isWrite (write : command.isWrite = true) (argv : List Bytes) :
    ChangesAreGuarded command argv := by
  intro _
  refine ⟨write, ?_, fun hintKeys => if_pos write, ?_⟩
  · intro binlogIoError
    rw [refusal, if_pos write, if_pos rfl]
    split_ifs <;> rfl
  · intro writeBinlog
    simp [appendsBinlog, write]

/-- Every command but the radius queries that calls a mutating function is
registered as a write. -/
theorem isWrite_of_mutates (noQuery : command ≠ .geoRadiusCmd)
    (noMemberQuery : command ≠ .geoRadiusByMemberCmd)
    (changes : ∃ function ∈ doCalls command argv, function.mutates = true) :
    command.isWrite = true := by
  have called : (doCalls command argv).any EngineFunction.mutates = true :=
    List.any_eq_true.mpr changes
  -- Of the remaining commands the reads have a list of calls without a mutation.
  cases command <;> first
    | rfl
    | exact absurd rfl noQuery
    | exact absurd rfl noMemberQuery
    | exact absurd called Bool.false_ne_true

/-- The two radius queries store with a mutating function. -/
theorem mutates_getAllNeighborsCalls_iff (range : GeoRange) :
    (∃ function ∈ getAllNeighborsCalls range, function.mutates = true) ↔
      (range.store || range.storedist) = true := by
  have reads : EngineFunction.mutates .zRangebyscore = false := rfl
  have adds : EngineFunction.mutates .zAdd = true := rfl
  unfold getAllNeighborsCalls
  split_ifs with stores
  · simp [stores, adds]
  · simp [stores, reads]

theorem canChange_iff_storesResult
    (query : command = .geoRadiusCmd ∨ command = .geoRadiusByMemberCmd) (argv : List Bytes) :
    CanChange command argv ↔ StoresResult command argv := by
  rw [canChange_iff, StoresResult]
  rcases query with rfl | rfl
  · cases accepted : acceptedRange .geoRadiusCmd argv with
    | none => simp [doCalls, accepted]
    | some range => simpa [doCalls, accepted] using mutates_getAllNeighborsCalls_iff range
  · cases accepted : acceptedRange .geoRadiusByMemberCmd argv with
    | none => simp [doCalls, accepted]
    | some range =>
      have reads : EngineFunction.mutates .zScore = false := rfl
      simpa [doCalls, accepted, reads] using mutates_getAllNeighborsCalls_iff range

/-- What a command changes is guarded, unless it is a radius query that stores
its result. -/
theorem changesAreGuarded_iff (command : CommandName) (argv : List Bytes) :
    ChangesAreGuarded command argv ↔ ¬StoresResult command argv := by
  by_cases query : command = .geoRadiusCmd ∨ command = .geoRadiusByMemberCmd
  · rw [← canChange_iff_storesResult query argv]
    constructor
    · intro guarded changes
      have write := (guarded changes).1
      rcases query with rfl | rfl <;> cases write
    · intro unchanging changes
      exact absurd changes unchanging
  · obtain ⟨noQuery, noMemberQuery⟩ := not_or.mp query
    refine iff_of_true ?_ ?_
    · intro changes
      have write := isWrite_of_mutates noQuery noMemberQuery
        ((canChange_iff command argv).mp changes)
      exact changesAreGuarded_of_isWrite write argv changes
    · rintro ⟨range, accepted, -⟩
      cases command <;> first
        | cases accepted
        | exact absurd rfl noQuery
        | exact absurd rfl noMemberQuery

/-- `GEORADIUS g 15 37 200 km STORE d` writes the key `d` without being a
write. -/
theorem not_changesAreGuarded_store :
    ¬ChangesAreGuarded .geoRadiusCmd
      [ascii "georadius", ascii "g", ascii "15", ascii "37", ascii "200",
        ascii "km", ascii "STORE", ascii "d"] := by
  intro guarded
  have changes : CanChange .geoRadiusCmd
      [ascii "georadius", ascii "g", ascii "15", ascii "37", ascii "200",
        ascii "km", ascii "STORE", ascii "d"] := by
    refine (canChange_iff_storesResult (.inl rfl) _).mpr ⟨_, rfl, ?_⟩
    decide +kernel
  have write := (guarded changes).1
  cases write

end Pika.Command
