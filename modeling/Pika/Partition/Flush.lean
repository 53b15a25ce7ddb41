import Pika.Partition.Lookup
import Pika.Replication.Ingest

/-!
# FLUSHDB and FLUSHALL

A flush goes through the partitions of one or all tables, runs `Do` on each and
appends its binlog record.  `Do` drops what `FlushDB` and `FlushSubDB` return,
and the loop ends with the reply OK.  A follower appends the record of a
replicated flush and runs `Do` later.  What a flush finds at each partition it
targets decides whether the reply and the records say what was done.
-/

namespace Pika.Partition

open Foundation Option
open Binlog (BinlogItem Bytes Status)
open Command (Cmd)
open Replication (Intake PutSucceeds tryPut tryPut_isSome_iff tryPut_ok_iff)

/-- What `FlushDB` or `FlushSubDB` finds. -/
structure FlushView where
  bgsaving : Bool
  /-- The directories outside of `db_path_` can be removed. -/
  removes : Bool
  /-- The sub-database's `_deleting` directory of an earlier flush still has
  files. -/
  leftover : Bool
  /-- `rename` has no other reason to fail. -/
  renames : Bool
  deriving DecidableEq, Repr

/-- What `FlushDB` and `FlushSubDB` return, and whether the data is gone. -/
structure Flushed where
  /-- The result, which `Do` drops. -/
  returned : Bool
  /-- The database is opened without the old data. -/
  cleared : Bool
  deriving DecidableEq, Repr

/-- `FlushDB`.  A directory that cannot be removed or renamed is only logged. -/
def flushDB (view : FlushView) : Flushed :=
  if view.bgsaving then { returned := false, cleared := false }
  else { returned := true, cleared := view.removes && view.renames }

/-- `FlushSubDB`.  A directory cannot be renamed to one that has files, and the
result of `RenameFile` is not looked at. -/
def flushSubDB (view : FlushView) : Flushed :=
  if view.bgsaving then { returned := false, cleared := false }
  else { returned := true, cleared := !view.leftover && view.renames }

/-- `FlushallCmd::Do` and `FlushdbCmd::Do` on a partition. -/
def doFlush (cmd : Cmd) (view : FlushView) : Flushed :=
  match cmd with
  | .flushdb _ dbName => if dbName = "all" then flushDB view else flushSubDB view
  | _ => flushDB view

/-- Nothing stands in the way of a flush: no bgsave runs, and what it removes or
renames can be removed or renamed. -/
def FlushView.Clearable (cmd : Cmd) (view : FlushView) : Prop :=
  view.bgsaving = false ∧ view.renames = true ∧
    match cmd with
    | .flushdb _ dbName => if dbName = "all" then view.removes = true else view.leftover = false
    | _ => view.removes = true

theorem doFlush_cleared_iff (cmd : Cmd) (view : FlushView) :
    (doFlush cmd view).cleared = true ↔ view.Clearable cmd := by
  have whole : (flushDB view).cleared = true ↔
      view.bgsaving = false ∧ view.renames = true ∧ view.removes = true := by
    cases running : view.bgsaving
    · simp [flushDB, running, and_comm]
    · simp [flushDB, running]
  cases cmd with
  | flushdb argv dbName =>
    simp only [doFlush, FlushView.Clearable]
    split_ifs
    · exact whole
    · cases running : view.bgsaving
      · simp [flushSubDB, running, and_comm]
      · simp [flushSubDB, running]
  | _ => exact whole

/-- What an append finds in a binlog, with its clocks and the file operation
that fails. -/
structure AppendView where
  log : Binlog
  execTime : Nat
  now : Nat → Nat
  failure : Option Nat

/-- `ToBinlog` of a flush, with the item of `ProposeLog`. -/
def AppendView.record (cmd : Cmd) (view : AppendView) : Bytes :=
  cmd.toBinlog view.execTime
    { execTime := view.execTime
      termId := view.log.version.term
      logicId := view.log.version.logicId + 1
      filenum := view.log.version.proNum
      offset := view.log.version.proOffset }

/-- The results a flush can have. -/
inductive FlushRes where
  | kNone
  | kOk
  | kInvalidTable
  | kErrOther (message : String)
  | kErrStatus (status : Status)
  deriving DecidableEq

/-- `CmdRes::ok`. -/
def FlushRes.ok : FlushRes → Bool
  | kNone | kOk => true
  | _ => false

/-- `DoBinlog` of a client's flush: the result, and whether a record was
appended. -/
def doBinlog (writeBinlog : Bool) (cmd : Cmd) (view : AppendView)
    (res : FlushRes) : Option (FlushRes × Bool) :=
  if res.ok && writeBinlog then
    (tryPut view.now view.failure (view.record cmd) view.log).map fun put =>
      if put.1 = .ok then (res, true) else (.kErrStatus put.1, false)
  else some (res, false)

/-- A partition as a flush finds it on coming to it. -/
structure FlushPartition where
  info : PartitionInfo
  /-- There is a sync partition of this name. -/
  synced : Bool
  flush : FlushView
  append : AppendView

/-- A table as a flush finds it. -/
structure FlushTable where
  keyScaning : Bool
  partitions : List FlushPartition

/-- What a flush did to a partition. -/
structure FlushOutcome where
  info : PartitionInfo
  cleared : Bool
  /-- The binlog received a record. -/
  logged : Bool
  deriving DecidableEq

/-- What a flush did to the partitions it targets, and its reply; a replicated
flush has none. -/
structure FlushDone where
  reply : Option FlushRes
  outcomes : List FlushOutcome
  deriving DecidableEq

namespace FlushPartition

/-- The partition is not reached. -/
def untouched (partition : FlushPartition) : FlushOutcome where
  info := partition.info
  cleared := false
  logged := false

/-- The loop of `ProcessFlushDBCmd` and `ProcessFlushAllCmd` over the partitions
of a table or of all tables, with `ProcessCommand` at each and the last `SetRes`
behind them. -/
def processAll (writeBinlog : Bool) (cmd : Cmd) :
    FlushRes → List FlushPartition → Option (FlushRes × List FlushOutcome)
  | _, [] => some (.kOk, [])
  | res, partition :: rest =>
    if partition.synced then
      (doBinlog writeBinlog cmd partition.append res).bind fun (res, logged) =>
        (processAll writeBinlog cmd res rest).map fun (final, outcomes) =>
          (final,
            { info := partition.info
              cleared := (doFlush cmd partition.flush).cleared
              logged := logged } :: outcomes)
    else some (.kErrOther "Partition not found", (partition :: rest).map untouched)

/-- The record of a flush can be appended. -/
def Appends (writeBinlog : Bool) (cmd : Cmd) (partition : FlushPartition) : Prop :=
  writeBinlog = true ∧
    PutSucceeds partition.append.now partition.append.failure (partition.append.record cmd)
      partition.append.log

/-- The partitions in front of the first that has no sync partition. -/
def reached (targets : List FlushPartition) : List FlushPartition := targets.takeWhile synced

/-- Where every partition is reached, each can be cleared and its record
appended.  Otherwise a reached partition can be cleared exactly if its record
and those of all partitions in front of it can be appended. -/
def Performs (writeBinlog : Bool) (cmd : Cmd) (targets : List FlushPartition) : Prop :=
  if ∀ target ∈ targets, target.synced = true then
    ∀ target ∈ targets, target.flush.Clearable cmd ∧ target.Appends writeBinlog cmd
  else
    ∀ front target, front ++ [target] <+: reached targets →
      (target.flush.Clearable cmd ↔ ∀ other ∈ front ++ [target], other.Appends writeBinlog cmd)

end FlushPartition

/-- The text of a refusal during a key scan. -/
def keyScanText : String := "The keyscan operation is executing, Try again later"

/-- A flush of its master that a follower takes in, and what its `Do` finds. -/
structure FlushReplay where
  info : PartitionInfo
  argv : List Bytes
  dbName : String
  item : BinlogItem
  intake : Intake
  now : Nat → Nat
  failure : Option Nat
  /-- There is a partition. -/
  found : Bool
  flush : FlushView

namespace FlushReplay

def cmd (replay : FlushReplay) : Cmd := .flushdb replay.argv replay.dbName

/-- Its record. -/
def record (replay : FlushReplay) : Bytes := replay.cmd.toBinlog replay.item.execTime replay.item

/-- `ProcessLeaderLog`, and `Do` on a database worker if the command was
scheduled. -/
def process (replay : FlushReplay) : Option FlushDone :=
  (replay.intake.processLeaderLog replay.item.execTime replay.now replay.failure replay.item
    replay.cmd).map fun (_, next) =>
    { reply := none
      outcomes :=
        [{ info := replay.info
           cleared :=
             replay.intake.scheduled.length < next.scheduled.length &&
               replay.found && (doFlush replay.cmd replay.flush).cleared
           logged := replay.intake.appended.length < next.appended.length }] }

/-- The partition can be cleared exactly if the record can be appended, where the
item is not dropped as old. -/
def Performs (replay : FlushReplay) : Prop :=
  ¬replay.item.logicId < replay.intake.lastOffset.lOffset.index →
    (replay.found = true ∧ replay.flush.Clearable replay.cmd ↔
      PutSucceeds replay.now replay.failure replay.record replay.intake.log)

end FlushReplay

/-- A flush by a client, or one that a follower takes in. -/
inductive FlushRequest where
  /-- FLUSHDB of a table, whole or by type. -/
  | processFlushDBCmd (argv : List Bytes) (dbName : String) (table : Option FlushTable)
  /-- FLUSHALL, with the slots of the tables. -/
  | processFlushAllCmd (tables : List (Option FlushTable))
  | replay (replayed : FlushReplay)

namespace FlushRequest

/-- The partitions of the tables there are. -/
def allPartitions (tables : List (Option FlushTable)) : List FlushPartition :=
  tables.reduceOption.flatMap FlushTable.partitions

/-- A key scan runs in a table. -/
def anyKeyScaning (tables : List (Option FlushTable)) : Bool :=
  tables.reduceOption.any FlushTable.keyScaning

/-- A flush that is answered before its loop. -/
def refuse (res : FlushRes) (targets : List FlushPartition) : FlushDone where
  reply := some res
  outcomes := targets.map FlushPartition.untouched

/-- The loop over the partitions, with the reply behind it. -/
def processTargets (writeBinlog : Bool) (cmd : Cmd) (targets : List FlushPartition) :
    Option FlushDone :=
  (FlushPartition.processAll writeBinlog cmd .kNone targets).map fun (res, outcomes) =>
    { reply := some res, outcomes := outcomes }

/-- `ProcessFlushDBCmd`. -/
def processFlushDB (writeBinlog : Bool) (cmd : Cmd) (table : Option FlushTable) :
    Option FlushDone :=
  match table with
  | none => some (refuse .kInvalidTable [])
  | some table =>
    if table.keyScaning then some (refuse (.kErrOther keyScanText) table.partitions)
    else processTargets writeBinlog cmd table.partitions

/-- `ProcessFlushAllCmd`. -/
def processFlushAll (writeBinlog : Bool) (tables : List (Option FlushTable)) : Option FlushDone :=
  if anyKeyScaning tables then some (refuse (.kErrOther keyScanText) (allPartitions tables))
  else processTargets writeBinlog .flushall (allPartitions tables)

/-- What a flush does, with `write-binlog` as it is set. -/
def process (writeBinlog : Bool) : FlushRequest → Option FlushDone
  | processFlushDBCmd argv dbName table => processFlushDB writeBinlog (.flushdb argv dbName) table
  | processFlushAllCmd tables => processFlushAll writeBinlog tables
  | replay replayed => replayed.process

/-- The partitions that a flush is for: those of the named table, those of every
table, or the one whose item is taken in. -/
def targets : FlushRequest → List PartitionInfo
  | processFlushDBCmd _ _ table =>
    (allPartitions [table]).map FlushPartition.info
  | processFlushAllCmd tables => (allPartitions tables).map FlushPartition.info
  | replay replayed => [replayed.info]

/-- The table that a flush names exists. -/
def Present : FlushRequest → Prop
  | processFlushDBCmd _ _ table => table.isSome = true
  | processFlushAllCmd _ | replay _ => True

/-- Each targeted partition has its outcome, the reply is OK exactly if the
table exists and every targeted partition was cleared, and a targeted
partition's binlog receives a record exactly if the partition was cleared. -/
structure Exact (request : FlushRequest) (done : FlushDone) : Prop where
  covers : done.outcomes.map FlushOutcome.info = request.targets
  replies : ∀ res ∈ done.reply, res = .kOk ↔
      request.Present ∧ ∀ outcome ∈ done.outcomes, outcome.cleared = true
  records : ∀ outcome ∈ done.outcomes, outcome.logged = true ↔ outcome.cleared = true

/-- A refused flush has partitions it is for, and one that is not refused finds
its partitions as it should. -/
def Performs (writeBinlog : Bool) : FlushRequest → Prop
  | processFlushDBCmd argv dbName table =>
    ∀ found ∈ table,
      if found.keyScaning = true then found.partitions ≠ []
      else FlushPartition.Performs writeBinlog (.flushdb argv dbName) found.partitions
  | processFlushAllCmd tables =>
    if anyKeyScaning tables = true then allPartitions tables ≠ []
    else FlushPartition.Performs writeBinlog .flushall (allPartitions tables)
  | replay replayed => replayed.Performs

/-- The records are shorter than what one `Put` has an outcome for. -/
def Fits : FlushRequest → Prop
  | processFlushDBCmd argv dbName table =>
    ∀ target ∈ allPartitions [table],
      (target.append.record (.flushdb argv dbName)).length < 2 ^ 31
  | processFlushAllCmd tables =>
    ∀ target ∈ allPartitions tables, (target.append.record .flushall).length < 2 ^ 31
  | replay replayed => replayed.record.length < 2 ^ 31

end FlushRequest

/-! ## The loop over the partitions -/

section

variable {writeBinlog : Bool} {cmd : Cmd} {res final : FlushRes}

/-- `DoBinlog` returns unless a record that could be appended is too long. -/
theorem doBinlog_isSome (writeBinlog : Bool) (res : FlushRes) {append : AppendView}
    (fits : (append.record cmd).length < 2 ^ 31) :
    ∃ after logged, doBinlog writeBinlog cmd append res = some (after, logged) := by
  unfold doBinlog
  split_ifs with logs
  · have returns := (tryPut_isSome_iff append.now append.failure (append.record cmd)
      append.log).mpr fun _ => fits
    obtain ⟨put, putEq⟩ := isSome_iff_exists.mp returns
    rw [putEq]
    exact ⟨_, _, rfl⟩
  · exact ⟨_, _, rfl⟩

/-- A record is appended exactly if no error is left and the append succeeds;
an append that fails leaves an error. -/
theorem doBinlog_eq_some {partition : FlushPartition} {after : FlushRes} {logged : Bool}
    (returned : doBinlog writeBinlog cmd partition.append res = some (after, logged)) :
    (logged = true ↔ res.ok = true ∧ partition.Appends writeBinlog cmd) ∧
      (writeBinlog = true → (after.ok = true ↔
        res.ok = true ∧ partition.Appends writeBinlog cmd)) := by
  unfold doBinlog at returned
  split_ifs at returned with logs
  · obtain ⟨okay, writes⟩ := Bool.and_eq_true_iff.mp logs
    obtain ⟨⟨status, log⟩, putEq, same⟩ := map_eq_some_iff.mp returned
    have outcome := tryPut_ok_iff putEq
    simp only [FlushPartition.Appends, okay, writes, true_and, ← outcome]
    by_cases succeeded : status = .ok
    · simp only [succeeded, if_true] at same
      cases same
      simp [succeeded, okay]
    · simp only [succeeded, if_false] at same
      cases same
      simp [succeeded, FlushRes.ok]
  · cases returned
    cases okay : res.ok
    · simp
    · have off : writeBinlog = false := by
        simpa [okay] using logs
      simp [off, FlushPartition.Appends]

namespace FlushPartition

variable {targets : List FlushPartition} {outcomes : List FlushOutcome}

/-- The loop returns where the records are not too long. -/
theorem processAll_isSome (writeBinlog : Bool) (res : FlushRes)
    (fits : ∀ target ∈ targets, (target.append.record cmd).length < 2 ^ 31) :
    (processAll writeBinlog cmd res targets).isSome = true := by
  induction targets generalizing res with
  | nil => rfl
  | cons target rest ih =>
    unfold processAll
    split_ifs
    · obtain ⟨after, logged, returned⟩ :=
        doBinlog_isSome writeBinlog res (fits target List.mem_cons_self)
      rw [returned, bind_some, isSome_map]
      exact ih after fun other member => fits other (List.mem_cons_of_mem _ member)
    · rfl

/-- The loop at a partition that it reaches. -/
theorem processAll_cons {target : FlushPartition} {rest : List FlushPartition}
    (synced : target.synced = true)
    (ran : processAll writeBinlog cmd res (target :: rest) = some (final, outcomes)) :
    ∃ after logged later, doBinlog writeBinlog cmd target.append res = some (after, logged) ∧
      processAll writeBinlog cmd after rest = some (final, later) ∧
      outcomes =
        { info := target.info
          cleared := (doFlush cmd target.flush).cleared
          logged := logged } :: later := by
  unfold processAll at ran
  rw [if_pos synced] at ran
  obtain ⟨⟨after, logged⟩, returned, continued⟩ := bind_eq_some_iff.mp ran
  obtain ⟨⟨last, later⟩, behind, ⟨⟩⟩ := map_eq_some_iff.mp continued
  exact ⟨after, logged, later, returned, behind, rfl⟩

/-- The loop at a partition without a sync partition. -/
theorem processAll_of_not_synced {target : FlushPartition} {rest : List FlushPartition}
    (missing : ¬target.synced = true)
    (ran : processAll writeBinlog cmd res (target :: rest) = some (final, outcomes)) :
    final = .kErrOther "Partition not found" ∧ outcomes = (target :: rest).map untouched := by
  unfold processAll at ran
  rw [if_neg missing] at ran
  cases ran
  exact ⟨rfl, rfl⟩

/-- Every targeted partition has its outcome, and the reply is OK if every
partition is reached, whatever was done to them.  All are cleared if all are
reached and can be cleared. -/
theorem processAll_spec (ran : processAll writeBinlog cmd res targets = some (final, outcomes)) :
    outcomes.map FlushOutcome.info = targets.map info ∧
      (final = .kOk ↔ ∀ target ∈ targets, target.synced = true) ∧
      ((∀ outcome ∈ outcomes, outcome.cleared = true) ↔
        ∀ target ∈ targets, target.synced = true ∧ target.flush.Clearable cmd) := by
  induction targets generalizing res outcomes with
  | nil =>
    cases ran
    simp
  | cons target rest ih =>
    by_cases synced : target.synced = true
    · obtain ⟨after, logged, later, -, behind, rfl⟩ := processAll_cons synced ran
      obtain ⟨covers, replies, cleared⟩ := ih behind
      simp [covers, replies, cleared, synced, doFlush_cleared_iff]
    · obtain ⟨rfl, rfl⟩ := processAll_of_not_synced synced ran
      simp [synced, untouched]

/-- A record behind another is appended if both can be: an append that fails
leaves an error. -/
theorem ok_and_appends_iff {target : FlushPartition} {after : FlushRes} {logged : Bool}
    (returned : doBinlog writeBinlog cmd target.append res = some (after, logged))
    {others : List FlushPartition} (some : others ≠ []) :
    (after.ok = true ∧ ∀ other ∈ others, other.Appends writeBinlog cmd) ↔
      res.ok = true ∧ ∀ other ∈ target :: others, other.Appends writeBinlog cmd := by
  obtain ⟨first, member⟩ := List.exists_mem_of_ne_nil others some
  have later := (doBinlog_eq_some returned).2
  rw [List.forall_mem_cons]
  constructor
  · rintro ⟨okay, appends⟩
    obtain ⟨before, here⟩ := (later (appends first member).1).mp okay
    exact ⟨before, here, appends⟩
  · rintro ⟨okay, here, appends⟩
    exact ⟨(later here.1).mpr ⟨okay, here⟩, appends⟩

/-- The records are those of the partitions that were cleared exactly if each
reached partition can be cleared where its record and all in front of it can be
appended. -/
theorem processAll_logged_iff
    (ran : processAll writeBinlog cmd res targets = some (final, outcomes)) :
    (∀ outcome ∈ outcomes, outcome.logged = true ↔ outcome.cleared = true) ↔
      ∀ front target, front ++ [target] <+: reached targets → (target.flush.Clearable cmd ↔
        res.ok = true ∧ ∀ other ∈ front ++ [target], other.Appends writeBinlog cmd) := by
  -- The induction follows the loop; the error left so far is part of the state.
  induction targets generalizing res outcomes with
  | nil =>
    cases ran
    simp [reached]
  | cons target rest ih =>
    by_cases synced : target.synced = true
    · obtain ⟨after, logged, later, returned, behind, rfl⟩ := processAll_cons synced ran
      have visited : reached (target :: rest) = target :: reached rest :=
        List.takeWhile_cons_of_pos synced
      rw [List.forall_mem_cons, ih behind, visited]
      dsimp only
      rw [(doBinlog_eq_some returned).1, doFlush_cleared_iff]
      constructor
      · rintro ⟨here, others⟩ front other inside
        cases front with
        | nil =>
          rw [List.nil_append, List.cons_prefix_cons] at inside
          rw [inside.1]
          simpa using here.symm
        | cons first front =>
          rw [List.cons_append, List.cons_prefix_cons] at inside
          rw [others front other inside.2, ok_and_appends_iff returned (by simp), inside.1]
          rfl
      · intro all
        constructor
        · have here := all [] target (by simp)
          simpa using here.symm
        · intro front other inside
          rw [ok_and_appends_iff returned (by simp)]
          exact all (target :: front) other (List.cons_prefix_cons.mpr ⟨rfl, inside⟩)
    · obtain ⟨-, rfl⟩ := processAll_of_not_synced synced ran
      have visited : reached (target :: rest) = [] := List.takeWhile_cons_of_neg synced
      simp [visited, untouched]

/-- The reply and the records are right exactly if the partitions are as they
should be. -/
theorem performs_iff (ran : processAll writeBinlog cmd .kNone targets = some (final, outcomes)) :
    ((final = .kOk ↔ ∀ outcome ∈ outcomes, outcome.cleared = true) ∧
        ∀ outcome ∈ outcomes, outcome.logged = true ↔ outcome.cleared = true) ↔
      Performs writeBinlog cmd targets := by
  obtain ⟨-, replies, cleared⟩ := processAll_spec ran
  rw [replies, cleared, processAll_logged_iff ran]
  have okay : FlushRes.kNone.ok = true := rfl
  simp only [okay, true_and, Performs]
  split_ifs with all
  · have visited : reached targets = targets := List.takeWhile_eq_self_iff.mpr all
    rw [visited]
    constructor
    · rintro ⟨clears, records⟩ target member
      have clearable := (clears.mp all target member).2
      obtain ⟨front, rest, rfl⟩ := List.append_of_mem member
      have appends := (records front target ⟨rest, by simp⟩).mp clearable
      exact ⟨clearable, appends target (by simp)⟩
    · intro both
      refine ⟨iff_of_true all fun target member => ⟨all target member, (both target member).1⟩, ?_⟩
      intro front target inside
      have members := inside.subset
      refine iff_of_true (both target (members (by simp))).1 ?_
      intro other member
      exact (both other (members member)).2
  · rw [and_iff_right]
    refine iff_of_false all ?_
    intro cleared
    exact all fun target member => (cleared target member).1

end FlushPartition

end

/-! ## Flushes -/

namespace FlushRequest

variable {writeBinlog : Bool} {request : FlushRequest}

/-- A refused flush is right if there is something that it leaves alone. -/
theorem exact_refuse_iff {refusal : FlushRes} {partitions : List FlushPartition}
    (refused : refusal ≠ .kOk) (covers : request.targets = partitions.map FlushPartition.info) :
    request.Exact (refuse refusal partitions) ↔ (request.Present → partitions ≠ []) := by
  constructor
  · rintro exactly present rfl
    have said := exactly.replies refusal rfl
    exact refused (said.mpr ⟨present, nofun⟩)
  · intro some
    refine ⟨?_, ?_, ?_⟩
    · rw [covers, refuse, List.map_map]
      rfl
    · rintro res ⟨⟩
      refine iff_of_false refused ?_
      rintro ⟨present, cleared⟩
      obtain ⟨target, member⟩ := List.exists_mem_of_ne_nil _ (some present)
      exact absurd (cleared _ (List.mem_map_of_mem member)) nofun
    · intro outcome member
      obtain ⟨target, -, rfl⟩ := List.mem_map.mp member
      rfl

/-- A flush that goes through its loop is right exactly if its partitions are as
they should be. -/
theorem exact_processTargets_iff {cmd : Cmd} {partitions : List FlushPartition}
    (present : request.Present) (covers : request.targets = partitions.map FlushPartition.info)
    (fits : ∀ target ∈ partitions, (target.append.record cmd).length < 2 ^ 31) :
    ∃ done, processTargets writeBinlog cmd partitions = some done ∧
      (request.Exact done ↔ FlushPartition.Performs writeBinlog cmd partitions) := by
  obtain ⟨⟨final, outcomes⟩, ran⟩ :=
    isSome_iff_exists.mp (FlushPartition.processAll_isSome writeBinlog .kNone fits)
  refine ⟨_, congrArg (Option.map _) ran, ?_⟩
  rw [← FlushPartition.performs_iff ran]
  constructor
  · intro exactly
    have said := exactly.replies final rfl
    exact ⟨said.trans (and_iff_right present), exactly.records⟩
  · rintro ⟨replies, records⟩
    refine ⟨(FlushPartition.processAll_spec ran).1.trans covers.symm, ?_, records⟩
    rintro res ⟨⟩
    exact replies.trans (and_iff_right present).symm

/-- A replicated flush is right exactly if the partition can be cleared where
the record can be appended. -/
theorem exact_replay_iff {replay : FlushReplay} (covers : request.targets = [replay.info])
    (fits : replay.record.length < 2 ^ 31) :
    ∃ done, replay.process = some done ∧ (request.Exact done ↔ replay.Performs) := by
  have returns : (replay.intake.processLeaderLog replay.item.execTime replay.now replay.failure
      replay.item replay.cmd).isSome := Intake.processLeaderLog_isSome_iff.mpr fun _ _ => fits
  obtain ⟨⟨isLost, after⟩, processed⟩ := isSome_iff_exists.mp returns
  obtain ⟨scheduled, appended⟩ := Intake.processLeaderLog_effect processed
  unfold FlushReplay.process
  rw [processed]
  refine ⟨_, rfl, ?_⟩
  have single : ∀ outcome : FlushOutcome, outcome.info = replay.info →
      (request.Exact { reply := none, outcomes := [outcome] } ↔
        (outcome.logged = true ↔ outcome.cleared = true)) := by
    intro outcome same
    constructor
    · intro exactly
      exact exactly.records outcome (List.mem_singleton_self outcome)
    · intro record
      refine ⟨?_, nofun, ?_⟩
      · rw [covers, ← same]
        rfl
      · intro other member
        rw [List.mem_singleton.mp member]
        exact record
  rw [single _ rfl]
  simp only [Bool.and_eq_true, decide_eq_true_eq, scheduled, appended, doFlush_cleared_iff]
  by_cases old : replay.item.logicId < replay.intake.lastOffset.lOffset.index
  · simp [FlushReplay.Performs, old]
  · simp [FlushReplay.Performs, FlushReplay.record, old, iff_comm]

/-- Every flush, by a client or taken in from a master, is answered OK exactly
if every partition it targets was cleared, and logged at exactly the targeted
partitions that were cleared, if and only if what it finds at them is as it
should be. -/
theorem exact_iff_performs (writeBinlog : Bool) (request : FlushRequest) (fits : request.Fits) :
    ∃ done, request.process writeBinlog = some done ∧
      (request.Exact done ↔ request.Performs writeBinlog) := by
  cases request with
  | processFlushDBCmd argv dbName table =>
    cases table with
    | none =>
      refine ⟨_, rfl, (exact_refuse_iff (by decide) rfl).trans ?_⟩
      exact iff_of_true nofun nofun
    | some table =>
      have covers : allPartitions [some table] = table.partitions := List.append_nil _
      have named : targets (.processFlushDBCmd argv dbName (some table)) =
          table.partitions.map FlushPartition.info := by
        rw [targets, covers]
      simp only [process, processFlushDB, Performs, mem_some_iff, forall_eq']
      split_ifs with scanning
      · refine ⟨_, rfl, (exact_refuse_iff (by decide) named).trans ?_⟩
        exact forall_prop_of_true rfl
      · refine exact_processTargets_iff rfl named ?_
        rw [← covers]
        exact fits
  | processFlushAllCmd tables =>
    simp only [process, processFlushAll, Performs]
    split_ifs with scanning
    · refine ⟨_, rfl, (exact_refuse_iff (by decide) rfl).trans ?_⟩
      exact forall_prop_of_true trivial
    · exact exact_processTargets_iff trivial rfl fits
  | replay replayed => exact exact_replay_iff rfl fits

/-! ## A flush during a bgsave -/

/-- The partition of a table, with a fresh binlog, on which a bgsave runs or
not. -/
def freshPartition (table : String) (bgsaving : Bool) : FlushPartition where
  info := { tableName := ascii table, partitionId := 0 }
  synced := true
  flush := { bgsaving := bgsaving, removes := true, leftover := false, renames := true }
  append :=
    { log := Binlog.fresh 104857600 0
      execTime := 0
      now := fun _ => 0
      failure := none }

/-- FLUSHALL of two tables, with a slot without table behind them; a bgsave runs
in the second or not. -/
def flushTwo (bgsaving : Bool) : FlushRequest :=
  .processFlushAllCmd
    [some { keyScaning := false, partitions := [freshPartition "db0" false] },
      some { keyScaning := false, partitions := [freshPartition "db1" bgsaving] }, none]

/-- Without a bgsave, both tables are cleared and logged. -/
theorem exact_flushTwo :
    ∃ done, (flushTwo false).process true = some done ∧ (flushTwo false).Exact done := by
  have fits : (flushTwo false).Fits := by
    unfold flushTwo Fits
    decide +kernel
  obtain ⟨done, ran, exactly⟩ := exact_iff_performs true (flushTwo false) fits
  refine ⟨done, ran, exactly.mpr ?_⟩
  have each : ∀ table, (freshPartition table false).flush.Clearable .flushall ∧
      (freshPartition table false).Appends true .flushall := by
    intro table
    exact ⟨⟨rfl, rfl, rfl⟩, rfl, rfl, nofun⟩
  have performs : FlushPartition.Performs true .flushall
      [freshPartition "db0" false, freshPartition "db1" false] := by
    unfold FlushPartition.Performs
    rw [if_pos (by decide)]
    simp only [List.forall_mem_cons]
    exact ⟨each "db0", each "db1", nofun⟩
  exact performs

/-- What FLUSHALL does where a bgsave runs in the second table: it is logged and
not cleared. -/
def flushedOne : FlushDone where
  reply := some .kOk
  outcomes :=
    [{ info := { tableName := ascii "db0", partitionId := 0 }, cleared := true, logged := true },
      { info := { tableName := ascii "db1", partitionId := 0 }, cleared := false, logged := true }]

/-- A table with a bgsave is not cleared, is logged, and the reply is OK. -/
theorem not_exact_bgsaving :
    (flushTwo true).process true = some flushedOne ∧ ¬(flushTwo true).Exact flushedOne := by
  refine ⟨by decide +kernel, ?_⟩
  intro exactly
  have cleared := ((exactly.replies .kOk rfl).mp rfl).2
  exact absurd cleared (by decide)

end FlushRequest

end Pika.Partition
