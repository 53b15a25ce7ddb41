import Pika.Consensus.MemLog

/-!
# Applying committed logs

The committed index is raised under one mutex; the logs up to it are purged
from the log in memory and handed over under another.  A smaller index that
comes late finds nothing to purge.  The same holds for an index that comes
before its log is in memory, and such a log stays there.
-/

namespace Pika.Consensus

open Foundation List Option
open Binlog (BinlogOffset)
open Sync (LogOffset)

/-- What a thread has still to do. -/
inductive ApplyCall where
  /-- `InternalUpdateCommittedIndex` under `index_mu_`. -/
  | updateCommitted (offset : LogOffset)
  /-- `ScheduleApplyLog` or `ScheduleApplyFollowerLog`. -/
  | scheduleApply (offset : LogOffset)
  deriving DecidableEq

/-- What happens next at a coordinator. -/
inductive ApplyLabel (Task : Type) where
  | appendLog (item : LogItem Task)
  /-- `UpdateSlave` has computed an index of the current term. -/
  | updateSlave (committedIndex : LogOffset)
  | processLocalUpdate (leaderCommit : LogOffset)
  | proceed (call : ApplyCall)
  /-- The holder of `order_mu_` hands over the next log, or is done. -/
  | internalApply

/-- The logs of a coordinator and the threads that apply them. -/
structure Applier (Task : Type) where
  memLogger : MemLog Task
  committedIndex : LogOffset
  calls : List ApplyCall
  /-- What the holder of `order_mu_` has still to hand over. -/
  handing : Option (List (LogItem Task))
  /-- All logs, in the order of their `AppendLog`. -/
  appended : List (LogItem Task)
  /-- The logs handed to `InternalApply` or `InternalApplyFollower`. -/
  applied : List (LogItem Task)

namespace Applier

variable {Task : Type} {state next : Applier Task}

/-- A coordinator that has loaded a log. -/
def start (memLogger : MemLog Task) (committedIndex : LogOffset) : Applier Task where
  memLogger := memLogger
  committedIndex := committedIndex
  calls := []
  handing := none
  appended := memLogger.logs
  applied := []

/-- A call goes on; one that applies waits for `order_mu_`. -/
def proceed (state : Applier Task) : ApplyCall → Option (Applier Task)
  | .updateCommitted offset =>
    some (if state.committedIndex < offset then
      { state with committedIndex := offset, calls := .scheduleApply offset :: state.calls }
    else state)
  | .scheduleApply offset =>
    if state.handing.isSome then none
    else some ((state.memLogger.purgeLogs offset).toOption.elim state fun purged =>
        { state with handing := some purged.1, memLogger := purged.2 })

/-- One step of the threads. -/
def step (state : Applier Task) : ApplyLabel Task → Option (Applier Task)
  | .appendLog item =>
    some { state with
      memLogger := state.memLogger.appendLog item
      appended := state.appended ++ [item] }
  | .updateSlave committedIndex =>
    some { state with calls := .updateCommitted committedIndex :: state.calls }
  | .processLocalUpdate leaderCommit =>
    let lastIndex := state.memLogger.lastOffset
    some { state with
      calls := .updateCommitted (if lastIndex < leaderCommit then lastIndex else leaderCommit) ::
          state.calls }
  | .proceed call =>
    if call ∈ state.calls then proceed { state with calls := state.calls.erase call } call
    else none
  | .internalApply =>
    state.handing.map fun
      | [] => { state with handing := none }
      | log :: logs => { state with handing := some logs, applied := state.applied ++ [log] }

/-- A log is appended behind all others, and before it is committed. -/
def AppendsInTime (state : Applier Task) : ApplyLabel Task → Prop
  | .appendLog item =>
    (∀ other ∈ state.appended, MemLog.Before other item) ∧ state.committedIndex < item.offset
  | _ => True

/-- The logs handed over are the first ones appended, each once; and when no
thread is under way, they end at the committed index, if a log has it. -/
structure AppliesInOrder (state : Applier Task) : Prop where
  inOrder : state.applied <+: state.appended
  once : state.applied.Pairwise fun first second => first.offset < second.offset
  complete : state.calls = [] → state.handing = none → (∃ item ∈ state.appended,
      item.offset.same state.committedIndex = true) →
    ∃ last, state.applied.getLast? = some last ∧ last.offset.same state.committedIndex = true

/-- Where the appended logs are, and that nothing committed is forgotten. -/
structure Sound (state : Applier Task) : Prop where
  parts : state.appended = state.applied ++ (state.handing.getD [] ++ state.memLogger.logs)
  ascending : state.appended.Pairwise MemLog.Before
  scheduled : ∀ offset, .scheduleApply offset ∈ state.calls → ¬state.committedIndex < offset
  reached : ∀ item ∈ state.applied ++ state.handing.getD [], ¬state.committedIndex < item.offset
  covered : ∀ item ∈ state.memLogger.logs, item.offset.same state.committedIndex = true →
      ∃ offset, .scheduleApply offset ∈ state.calls ∧ offset.same state.committedIndex = true

/-- The logs that were loaded wait in order. -/
theorem sound_start {memLogger : MemLog Task} {committedIndex : LogOffset}
    (ascending : memLogger.logs.Pairwise MemLog.Before)
    (behind : ∀ item ∈ memLogger.logs, committedIndex < item.offset) :
    (start memLogger committedIndex).Sound where
  parts := rfl
  ascending := ascending
  scheduled offset member := by cases member
  reached item member := by cases member
  covered item member equal := by
    have later := behind item member
    change _ < item.offset.bOffset at later
    rw [LogOffset.same_iff.mp equal] at later
    exact absurd later (BinlogOffset.lt_irrefl _)

namespace Sound

section

variable (sound : state.Sound)
include sound

/-- The invariant gives the property. -/
theorem appliesInOrder : state.AppliesInOrder where
  inOrder := ⟨_, sound.parts.symm⟩
  once := by
    have ascending := sound.ascending
    rw [sound.parts] at ascending
    exact (pairwise_append.mp ascending).1.imp And.left
  complete idle released := by
    rintro ⟨item, member, equal⟩
    have parts := sound.parts
    have reached := sound.reached
    rw [released, getD_none, nil_append] at parts
    rw [released, getD_none, append_nil] at reached
    rw [parts] at member
    rcases mem_append.mp member with applied | waiting
    · obtain ⟨before, after, split⟩ := append_of_mem applied
      -- A log applied behind the committed one would be committed too.
      cases after with
      | nil => exact ⟨item, by simp [split], equal⟩
      | cons other after =>
        have ascending := sound.ascending
        rw [parts, split] at ascending
        have later : item.offset < other.offset := by
          have pair := (pairwise_append.mp (pairwise_append.mp ascending).1).2.1
          exact ((pairwise_cons.mp pair).1 other (by simp)).1
        refine absurd ?_ (reached other (by simp [split]))
        change _ < other.offset.bOffset
        rw [← LogOffset.same_iff.mp equal]
        exact later
    · obtain ⟨offset, call, -⟩ := sound.covered item waiting equal
      rw [idle] at call
      cases call

/-- A thread that has not yet raised the index changes nothing. -/
theorem call (offset : LogOffset) :
    Sound { state with calls := .updateCommitted offset :: state.calls } where
  __ := sound
  scheduled other member := sound.scheduled other (by simpa using member)
  covered item member equal := by simpa using sound.covered item member equal

theorem erase (offset : LogOffset) :
    Sound { state with calls := state.calls.erase (.updateCommitted offset) } where
  __ := sound
  scheduled other member := sound.scheduled other (mem_of_mem_erase member)
  covered item member equal := by
    obtain ⟨other, call, same⟩ := sound.covered item member equal
    exact ⟨other, (mem_erase_of_ne (by simp)).mpr call, same⟩

/-- A thread may raise the committed index. -/
theorem updateCommitted :
    Sound (if state.committedIndex < offset then
      { state with committedIndex := offset, calls := .scheduleApply offset :: state.calls }
    else state) := by
  split_ifs with larger
  · refine ⟨sound.parts, sound.ascending, ?_, ?_, ?_⟩
    · intro other member above
      rcases mem_cons.mp member with same | member
      · cases same
        exact BinlogOffset.lt_irrefl _ above
      · exact sound.scheduled other member (BinlogOffset.lt_trans larger above)
    · intro item member above
      exact sound.reached item member (BinlogOffset.lt_trans larger above)
    · intro item _ _
      exact ⟨offset, mem_cons_self, LogOffset.same_iff.mpr rfl⟩
  · exact sound

/-- Purging hands over what is committed. -/
theorem scheduleApply (called : .scheduleApply offset ∈ state.calls) (free : state.handing = none) :
    Sound ((state.memLogger.purgeLogs offset).toOption.elim
      { state with calls := state.calls.erase (.scheduleApply offset) }
      fun purged =>
        { state with
          calls := state.calls.erase (.scheduleApply offset)
          handing := some purged.1, memLogger := purged.2 }) := by
  have ascending : state.memLogger.logs.Pairwise MemLog.Before := by
    have whole := sound.ascending
    rw [sound.parts, ← append_assoc] at whole
    exact (pairwise_append.mp whole).2.1
  have parts := sound.parts
  have reached := sound.reached
  rw [free, getD_none, nil_append] at parts
  rw [free, getD_none, append_nil] at reached
  have scheduled : ∀ other, .scheduleApply other ∈ state.calls.erase (.scheduleApply offset) →
        ¬state.committedIndex < other := fun other member =>
    sound.scheduled other (mem_of_mem_erase member)
  -- The call of another index than the purged one is still there.
  have covered : ∀ item ∈ state.memLogger.logs,
      item.offset.same state.committedIndex = true → ¬item.offset.same offset = true →
      ∃ other, .scheduleApply other ∈ state.calls.erase (.scheduleApply offset) ∧
        other.same state.committedIndex = true := by
    intro item member equal unequal
    obtain ⟨other, call, otherEqual⟩ := sound.covered item member equal
    refine ⟨other, ?_, otherEqual⟩
    refine (mem_erase_of_ne ?_).mpr call
    intro same
    cases same
    rw [LogOffset.same_iff] at equal otherEqual unequal
    exact unequal (equal.trans otherEqual.symm)
  obtain ⟨below, item, above, divides, split, purged, -⟩ | ⟨absent, missed, -⟩ :=
    MemLog.cut_cases ascending offset
  · rw [purged]
    refine ⟨?_, sound.ascending, scheduled, ?_, ?_⟩
    · change state.appended = state.applied ++ (below ++ [item] ++ above)
      rw [parts, split, append_cons below]
    · intro other member
      rcases mem_append.mp member with applied | handed
      · exact reached other applied
      · have upTo : ¬offset < other.offset := by
          rw [← MemLog.byBinlogOffset_eq_gt_iff]
          rcases mem_append.mp handed with member | only
          · simp [divides.below_lt other member]
          · simp [mem_singleton.mp only, divides.here]
        exact fun later => upTo
          (BinlogOffset.lt_of_not_lt_of_lt (sound.scheduled offset called) later)
    · intro other member equal
      refine covered other (by simp [split, show other ∈ above from member]) equal fun same => ?_
      have compared := MemLog.byBinlogOffset_eq_eq_iff.mpr same
      rw [divides.above_gt other member] at compared
      cases compared
  · rw [missed]
    refine ⟨sound.parts, sound.ascending, scheduled, sound.reached, ?_⟩
    exact fun item member equal =>
      covered item member equal fun same => absent ⟨item, member, same⟩

/-- Every step in time keeps the invariant. -/
theorem step (inTime : state.AppendsInTime label) (stepped : state.step label = some next) :
    next.Sound := by
  cases label with
  | appendLog item =>
    cases stepped
    refine ⟨?_, ?_, sound.scheduled, sound.reached, ?_⟩
    · simp [MemLog.appendLog, sound.parts]
    · refine pairwise_append.mpr ⟨sound.ascending,
        pairwise_singleton _ _, fun other member last only => ?_⟩
      rw [mem_singleton.mp only]
      exact inTime.1 other member
    · intro other member equal
      rcases mem_append.mp member with member | only
      · exact sound.covered other member equal
      · have later : state.committedIndex.bOffset < item.offset.bOffset := inTime.2
        rw [mem_singleton.mp only, LogOffset.same_iff] at equal
        rw [equal] at later
        exact absurd later (BinlogOffset.lt_irrefl _)
  | updateSlave | processLocalUpdate =>
    cases stepped
    exact sound.call _
  | proceed call =>
    rw [Applier.step] at stepped
    split_ifs at stepped with called
    cases call with
    | updateCommitted offset =>
      cases stepped
      exact (sound.erase offset).updateCommitted
    | scheduleApply offset =>
      rw [proceed] at stepped
      split_ifs at stepped with held
      cases stepped
      exact sound.scheduleApply called (not_isSome_iff_eq_none.mp held)
  | internalApply =>
    obtain ⟨logs, handing, rfl⟩ := map_eq_some_iff.mp stepped
    have parts := sound.parts
    have reached := sound.reached
    rw [handing, getD_some] at parts reached
    cases logs with
    | nil => exact ⟨parts, sound.ascending, sound.scheduled, reached, sound.covered⟩
    | cons log logs =>
      refine ⟨?_, sound.ascending, sound.scheduled, ?_, sound.covered⟩
      · simpa using parts
      · simpa using reached

end

end Sound

/-- In every run that appends each log before it is committed, the logs are
applied once and in order, and up to the committed index. -/
theorem appliesInOrder_of_run {memLogger : MemLog Task}
    {committedIndex : LogOffset} {labels : List (ApplyLabel Task)}
    (ascending : memLogger.logs.Pairwise MemLog.Before)
    (behind : ∀ item ∈ memLogger.logs, committedIndex < item.offset)
    (inTime : RunAdmissible step AppendsInTime (start memLogger committedIndex) labels)
    (ran : run step (start memLogger committedIndex) labels = some state) :
    state.AppliesInOrder :=
  (invariant_of_run (fun _ _ _ sound inTime stepped =>
    sound.step inTime stepped) (sound_start ascending behind) inTime
    ran).appliesInOrder

/-- A log at offset 10. -/
def oneLog : LogItem Unit where
  offset := .inFile 10 1
  task := ()

/-- The log behind it. -/
def secondLog : LogItem Unit := { oneLog with offset := .inFile 20 2 }

/-- Two indexes are committed, and the smaller one comes to the log in memory
when both logs have been applied. -/
theorem appliesInOrder_lateIndex :
    ∃ state : Applier Unit, state.applied = [oneLog, secondLog] ∧ state.calls = [] ∧
      state.handing = none ∧ state.AppliesInOrder := by
  let labels : List (ApplyLabel Unit) :=
    [.appendLog oneLog, .appendLog secondLog, .updateSlave (.inFile 10 1),
      .updateSlave (.inFile 20 2), .proceed (.updateCommitted (.inFile 10 1)),
      .proceed (.updateCommitted (.inFile 20 2)), .proceed (.scheduleApply (.inFile 20 2)),
      .internalApply, .internalApply, .internalApply, .proceed (.scheduleApply (.inFile 10 1))]
  have inTime : RunAdmissible step AppendsInTime (start .create .zero)
      labels := by
    refine ⟨⟨forall_mem_nil _, by decide⟩, ?_⟩
    rintro _ ⟨⟩
    refine ⟨⟨forall_mem_singleton.mpr ⟨by decide, by decide⟩, by decide⟩, fun _ _ => ?_⟩
    iterate 9 refine ⟨trivial, fun _ _ => ?_⟩
    trivial
  have ran : run step (start .create .zero) labels = some
        { start { logs := [], lastOffset := .inFile 20 2 } (.inFile 20 2) with
          appended := [oneLog, secondLog], applied := [oneLog, secondLog] } :=
    rfl
  exact ⟨_, rfl, rfl, rfl,
    appliesInOrder_of_run List.Pairwise.nil (forall_mem_nil _) inTime ran⟩

/-- An index that is committed before its log is in memory: the log is never
applied. -/
theorem not_appliesInOrder_earlyCommit :
    ∃ state : Applier Unit, run step (start .create .zero)
          [.updateSlave (.inFile 10 1), .proceed (.updateCommitted (.inFile 10 1)),
            .proceed (.scheduleApply (.inFile 10 1)), .appendLog oneLog] = some state ∧
      ¬state.AppliesInOrder := by
  refine ⟨_, rfl, fun applies => ?_⟩
  obtain ⟨last, applied, -⟩ := applies.complete rfl rfl ⟨oneLog, mem_cons_self, rfl⟩
  cases applied

end Applier
end Pika.Consensus
