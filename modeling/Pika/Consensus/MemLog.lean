import Pika.Foundation.OrderedSearch
import Pika.Foundation.Transition
import Pika.Sync.Window

/-!
# The log in memory

`MemLog` keeps the items that are appended and not yet applied.  It is searched
for a binlog offset or for a logic index, item by item up to the first larger
one, and cut there on either side.
-/

namespace Pika.Consensus

open Foundation
open Binlog (BinlogOffset Status)
open Sync (LogOffset)

/-- `LogItem`.  The task stands for the command, the connection and the
response. -/
structure LogItem (Task : Type) where
  offset : LogOffset
  task : Task
  deriving DecidableEq

/-- `MemLog`. -/
structure MemLog (Task : Type) where
  logs : List (LogItem Task)
  lastOffset : LogOffset

namespace MemLog

variable {Task : Type} {log next : MemLog Task} {offset : LogOffset}

/-- The constructor. -/
def create : MemLog Task where
  logs := []
  lastOffset := .zero

/-- `AppendLog`. -/
def appendLog (item : LogItem Task) (log : MemLog Task) : MemLog Task where
  logs := log.logs ++ [item]
  lastOffset := item.offset

/-- An item compared with a binlog offset. -/
def byBinlogOffset (offset : LogOffset) (item : LogItem Task) : Ordering :=
  if offset < item.offset then .gt
  else if item.offset.same offset then .eq
  else .lt

/-- An item compared with a logic index. -/
def byLogicIndex (offset : LogOffset) (item : LogItem Task) : Ordering :=
  if offset.lOffset.index < item.offset.lOffset.index then .gt
  else if item.offset.lOffset.index = offset.lOffset.index then .eq
  else .lt

/-- `InternalFindLogByBinlogOffset`. -/
def internalFindLogByBinlogOffset (offset : LogOffset) (log : MemLog Task) : Option Nat :=
  searchOrdered (byBinlogOffset offset) log.logs

/-- `InternalFindLogByLogicIndex`. -/
def internalFindLogByLogicIndex (offset : LogOffset) (log : MemLog Task) : Option Nat :=
  searchOrdered (byLogicIndex offset) log.logs

/-- `PurgeLogs`: the purged logs and what stays. -/
def purgeLogs (offset : LogOffset) (log : MemLog Task) :
    Except Status (List (LogItem Task) × MemLog Task) :=
  match log.internalFindLogByBinlogOffset offset with
  | none => .error (.notFound "Cant find correct index")
  | some index =>
    .ok (log.logs.take (index + 1), { log with logs := log.logs.drop (index + 1) })

/-- `TruncateTo`. -/
def truncateTo (offset : LogOffset) (log : MemLog Task) : Except Status (MemLog Task) :=
  match log.internalFindLogByBinlogOffset offset with
  | none => .error (.corruption "Cant find correct index")
  | some index =>
    .ok
      { logs := log.logs.take (index + 1)
        lastOffset := log.logs[index]?.elim log.lastOffset LogItem.offset }

/-- `Reset`. -/
def reset (offset : LogOffset) (_ : MemLog Task) : MemLog Task where
  logs := []
  lastOffset := offset

/-- `FindLogItem`: `*found_offset`, if an item is found. -/
def findLogItem (offset : LogOffset) (log : MemLog Task) : Option LogOffset :=
  (log.internalFindLogByLogicIndex offset).bind fun index => log.logs[index]?.map LogItem.offset

/-- A call of the log. -/
inductive Call (Task : Type) where
  | appendLog (item : LogItem Task)
  | purgeLogs (offset : LogOffset)
  | truncateTo (offset : LogOffset)
  | reset (offset : LogOffset)
  | findLogItem (offset : LogOffset)

/-- What a call leaves; one that fails changes nothing. -/
def step (log : MemLog Task) : Call Task → Option (MemLog Task)
  | .appendLog item => some (log.appendLog item)
  | .purgeLogs offset => some ((log.purgeLogs offset).toOption.elim log Prod.snd)
  | .truncateTo offset => some ((log.truncateTo offset).toOption.getD log)
  | .reset offset => some (log.reset offset)
  | .findLogItem _ => some log

/-- An item may stand behind another one: both parts of the offset grow. -/
def Before (first second : LogItem Task) : Prop :=
  first.offset < second.offset ∧ first.offset.lOffset.index < second.offset.lOffset.index

/-- Items are appended with strictly increasing offsets. -/
def Increasing (log : MemLog Task) : Call Task → Prop
  | .appendLog item => ∀ other ∈ log.logs, Before other item
  | _ => True

/-- An offset is the one of an item. -/
def Holds (offset : LogOffset) (log : MemLog Task) : Prop :=
  ∃ item ∈ log.logs, item.offset.same offset = true

/-- The items up to an offset. -/
def upTo (offset : LogOffset) (log : MemLog Task) : List (LogItem Task) :=
  log.logs.filter fun item => !decide (offset < item.offset)

/-- The items behind an offset. -/
def behind (offset : LogOffset) (log : MemLog Task) : List (LogItem Task) :=
  log.logs.filter fun item => offset < item.offset

/-- The log does what an ordered log does. -/
structure RefinesOrdered (log : MemLog Task) : Prop where
  ascending : log.logs.Pairwise fun first second => first.offset < second.offset
  purges : ∀ offset, log.Holds offset → log.purgeLogs offset =
      .ok (log.upTo offset, { log with logs := log.behind offset })
  purgesNothing : ∀ offset, ¬log.Holds offset →
    log.purgeLogs offset = .error (.notFound "Cant find correct index")
  truncates : ∀ offset, log.Holds offset → ∃ next, log.truncateTo offset = .ok next ∧
      next.logs = log.upTo offset ∧ next.lastOffset.same offset = true
  truncatesNothing : ∀ offset, ¬log.Holds offset →
    log.truncateTo offset = .error (.corruption "Cant find correct index")
  finds : ∀ offset found, log.findLogItem offset = some found ↔
    ∃ item ∈ log.logs, item.offset = found ∧ found.lOffset.index = offset.lOffset.index
  last : ∀ item ∈ log.logs.getLast?, log.lastOffset = item.offset

/-! ## Ordered logs -/

/-- The items stand in the order of both parts of their offsets, and the last
offset is the one of the last item. -/
structure Ordered (log : MemLog Task) : Prop where
  ascending : log.logs.Pairwise Before
  last : ∀ item ∈ log.logs.getLast?, log.lastOffset = item.offset

theorem byBinlogOffset_eq_gt_iff : byBinlogOffset offset item = .gt ↔ offset < item.offset := by
  unfold byBinlogOffset
  split_ifs with above <;> simp [above]

theorem byBinlogOffset_eq_eq_iff :
    byBinlogOffset offset item = .eq ↔ item.offset.same offset = true := by
  unfold byBinlogOffset
  split_ifs with above equal
  · apply iff_of_false (by simp)
    intro equal
    change offset.bOffset < item.offset.bOffset at above
    rw [LogOffset.same_iff.mp equal] at above
    exact BinlogOffset.lt_irrefl _ above
  · simp [equal]
  · simp [equal]

theorem byLogicIndex_eq_eq_iff :
    byLogicIndex offset item = .eq ↔ item.offset.lOffset.index = offset.lOffset.index := by
  unfold byLogicIndex
  split_ifs with above equal
  · exact iff_of_false (by simp) (by omega)
  · simp [equal]
  · simp [equal]

/-- Increasing items are ordered for the search by offset. -/
theorem orderedBy_binlogOffset (ascending : items.Pairwise Before) (offset : LogOffset) :
    OrderedBy (byBinlogOffset offset) items := by
  apply ascending.imp
  intro first second before reached
  rw [byBinlogOffset_eq_gt_iff]
  apply BinlogOffset.lt_of_not_lt_of_lt _ before.1
  intro below
  apply reached
  unfold byBinlogOffset
  have notAbove : ¬offset < first.offset := fun above =>
    BinlogOffset.lt_irrefl _ (BinlogOffset.lt_trans below above)
  have notEqual : ¬first.offset.same offset = true := fun equal =>
    BinlogOffset.lt_irrefl _ (LogOffset.same_iff.mp equal ▸ below)
  rw [if_neg notAbove, if_neg notEqual]

/-- And for the search by index. -/
theorem orderedBy_logicIndex (ascending : items.Pairwise Before) (offset : LogOffset) :
    OrderedBy (byLogicIndex offset) items := by
  apply ascending.imp
  intro first second before reached
  have later := before.2
  unfold byLogicIndex at reached ⊢
  split_ifs at reached ⊢ <;> first | rfl | omega | simp at reached

/-- An offset that an item has divides the log, and both cuts are made there;
another offset changes nothing. -/
theorem cut_cases (ascending : log.logs.Pairwise Before) (offset : LogOffset) :
    (∃ below item above, Divides (byBinlogOffset offset) below item above ∧
      log.logs = below ++ item :: above ∧
        log.purgeLogs offset = .ok (below ++ [item], { log with logs := above }) ∧
          log.truncateTo offset = .ok { logs := below ++ [item], lastOffset := item.offset }) ∨
      ¬log.Holds offset ∧ log.purgeLogs offset = .error (.notFound "Cant find correct index") ∧
          log.truncateTo offset = .error (.corruption "Cant find correct index") := by
  have cases := searchOrdered_cases (orderedBy_binlogOffset ascending offset)
  obtain ⟨below, item, above, divides, split, found⟩ | ⟨absent, missed⟩ := cases
  · have kept : log.logs.take (below.length + 1) = below ++ [item] := by
      rw [split, List.append_cons]
      exact List.take_left' (by simp)
    have left : log.logs.drop (below.length + 1) = above := by
      rw [split, List.append_cons]
      exact List.drop_left' (by simp)
    refine .inl ⟨below, item, above, divides, split, ?_, ?_⟩
    · rw [purgeLogs, internalFindLogByBinlogOffset, found]
      simp only [kept, left]
    · rw [truncateTo, internalFindLogByBinlogOffset, found]
      simp only [kept]
      simp [split]
  · refine .inr ⟨?_, ?_, ?_⟩
    · rintro ⟨item, member, equal⟩
      exact absent item member (byBinlogOffset_eq_eq_iff.mpr equal)
    · rw [purgeLogs, internalFindLogByBinlogOffset, missed]
    · rw [truncateTo, internalFindLogByBinlogOffset, missed]

theorem holds_of_divides (split : log.logs = below ++ item :: above)
    (divides : Divides (byBinlogOffset offset) below item above) :
    log.Holds offset :=
  ⟨item, by simp [split], byBinlogOffset_eq_eq_iff.mp divides.here⟩

/-- What is up to an offset that was found. -/
theorem upTo_of_divides (split : log.logs = below ++ item :: above)
    (divides : Divides (byBinlogOffset offset) below item above) :
    log.upTo offset = below ++ [item] := by
  rw [upTo, split]
  exact divides.filter_upTo fun other => by simp [byBinlogOffset_eq_gt_iff]

theorem behind_of_divides (split : log.logs = below ++ item :: above)
    (divides : Divides (byBinlogOffset offset) below item above) :
    log.behind offset = above := by
  rw [behind, split]
  exact divides.filter_behind fun other => by simp [byBinlogOffset_eq_gt_iff]

namespace Ordered

section

variable (ordered : log.Ordered)
include ordered

theorem appendLog (later : ∀ other ∈ log.logs, Before other item) :
    (log.appendLog item).Ordered where
  ascending := by
    refine List.pairwise_append.mpr ⟨ordered.ascending,
      List.pairwise_singleton _ _, fun other member last only => ?_⟩
    rw [List.mem_singleton.mp only]
    exact later other member
  last := by simp [MemLog.appendLog]

/-- What stays behind a cut is ordered. -/
theorem of_suffix (split : log.logs = below ++ above) :
    Ordered { log with logs := above } where
  ascending := (List.pairwise_append.mp (split ▸ ordered.ascending)).2.1
  last item member := by
    apply ordered.last item
    rw [split, List.getLast?_append_of_ne_nil]
    · exact member
    · rintro rfl
      cases member

/-- What is kept in front of a cut is ordered. -/
theorem of_prefix (split : log.logs = below ++ item :: above) :
    Ordered { logs := below ++ [item], lastOffset := item.offset } where
  ascending := by
    have kept : (below ++ [item]).Sublist log.logs := by simp [split]
    exact ordered.ascending.sublist kept
  last := by simp

/-- Every call with growing offsets keeps the order. -/
theorem step (increasing : log.Increasing call) (stepped : log.step call = some next) :
    next.Ordered := by
  cases call with
  | appendLog item =>
    cases stepped
    exact ordered.appendLog increasing
  | purgeLogs offset =>
    cases stepped
    obtain ⟨below, item, above, -, split, purged, -⟩ | ⟨-, missed, -⟩ :=
      cut_cases ordered.ascending offset
    · rw [purged]
      exact ordered.of_suffix (by rw [split, List.append_cons])
    · rw [missed]
      exact ordered
  | truncateTo offset =>
    cases stepped
    obtain ⟨below, item, above, -, split, -, truncated⟩ | ⟨-, -, missed⟩ :=
      cut_cases ordered.ascending offset
    · rw [truncated]
      exact ordered.of_prefix split
    · rw [missed]
      exact ordered
  | reset offset =>
    cases stepped
    exact ⟨List.Pairwise.nil, fun item member => by cases member⟩
  | findLogItem offset =>
    cases stepped
    exact ordered

/-- An index is found exactly if an item has it. -/
theorem findLogItem_eq_some_iff (offset found : LogOffset) :
    log.findLogItem offset = some found ↔ ∃ item ∈ log.logs, item.offset = found ∧
        found.lOffset.index = offset.lOffset.index := by
  unfold findLogItem internalFindLogByLogicIndex
  obtain ⟨below, item, above, divides, split, place⟩ | ⟨absent, missed⟩ :=
    searchOrdered_cases (orderedBy_logicIndex ordered.ascending offset)
  · have here := byLogicIndex_eq_eq_iff.mp divides.here
    rw [place, Option.bind_some, split]
    simp only [List.getElem?_append_right le_rfl, Nat.sub_self,
      List.getElem?_cons_zero, Option.map_some, Option.some.injEq]
    constructor
    · rintro rfl
      exact ⟨item, by simp, rfl, here⟩
    · rintro ⟨other, member, rfl, equal⟩
      -- Only the item that divides the log compares equal.
      have compared := byLogicIndex_eq_eq_iff.mpr equal
      rcases List.mem_append.mp member with member | member
      · rw [divides.below_lt other member] at compared
        cases compared
      · rcases List.mem_cons.mp member with rfl | member
        · rfl
        · rw [divides.above_gt other member] at compared
          cases compared
  · rw [missed, Option.bind_none]
    apply iff_of_false (Option.some_ne_none _).symm
    rintro ⟨item, member, rfl, equal⟩
    exact absent item member (byLogicIndex_eq_eq_iff.mpr equal)

/-- An ordered log does what an abstract one does. -/
theorem refinesOrdered : log.RefinesOrdered where
  ascending := ordered.ascending.imp And.left
  purges offset holds := by
    obtain ⟨below, item, above, divides, split, purged, -⟩ | ⟨absent, -⟩ :=
      cut_cases ordered.ascending offset
    · rw [purged, upTo_of_divides split divides, behind_of_divides split divides]
    · exact absurd holds absent
  purgesNothing offset absent := by
    obtain ⟨below, item, above, divides, split, -⟩ | ⟨-, missed, -⟩ :=
      cut_cases ordered.ascending offset
    · exact absurd (holds_of_divides split divides) absent
    · exact missed
  truncates offset holds := by
    obtain ⟨below, item, above, divides, split, -, truncated⟩ | ⟨absent, -⟩ :=
      cut_cases ordered.ascending offset
    · exact ⟨_, truncated, (upTo_of_divides split divides).symm,
        byBinlogOffset_eq_eq_iff.mp divides.here⟩
    · exact absurd holds absent
  truncatesNothing offset absent := by
    obtain ⟨below, item, above, divides, split, -⟩ | ⟨-, -, missed⟩ :=
      cut_cases ordered.ascending offset
    · exact absurd (holds_of_divides split divides) absent
    · exact missed
  finds := ordered.findLogItem_eq_some_iff
  last := ordered.last

end

end Ordered

theorem ordered_create : (create : MemLog Task).Ordered :=
  ⟨List.Pairwise.nil, fun item member => by cases member⟩

/-- After every sequence of calls that appends increasing offsets, the log does
what an ordered log does. -/
theorem refinesOrdered_of_run {calls : List (Call Task)}
    (increasing : RunAdmissible step Increasing create calls)
    (ran : run step create calls = some log) :
    log.RefinesOrdered :=
  (invariant_of_run (fun _ _ _ ordered later stepped =>
    ordered.step later stepped) ordered_create increasing ran).refinesOrdered

/-- Two items, of which the first is purged. -/
theorem refinesOrdered_afterPurge :
    RefinesOrdered
      { logs := [{ offset := .inFile 20 2, task := () }], lastOffset := .inFile 20 2 } := by
  apply @refinesOrdered_of_run Unit _ [.appendLog { offset := .inFile 10 1, task := () },
      .appendLog { offset := .inFile 20 2, task := () }, .purgeLogs (.inFile 10 1)]
  · refine ⟨List.forall_mem_nil _, ?_⟩
    rintro first ⟨⟩
    refine ⟨by simp [Increasing, appendLog, create, Before]; decide, ?_⟩
    rintro second ⟨⟩
    exact ⟨trivial, fun _ _ => trivial⟩
  · rfl

end MemLog
end Pika.Consensus
