import Mathlib.Data.List.Induction
import Pika.Sync.Window

/-!
# Cumulative acknowledgement

Items are pushed to the window in increasing order and acknowledged in ranges
that arrive in any order.  After every acknowledgement the offset of the node
is behind the longest prefix of the pushed items that accepted ranges cover,
and the window holds the items behind that prefix.
-/

namespace Pika.Sync

open Foundation
open List hiding range

/-- What happens to the window of a node. -/
inductive WindowEvent where
  | push (offset : LogOffset) (binlogSize : Nat)
  | ack (start stop : LogOffset)
  deriving DecidableEq, Repr

/-- A node with the offsets pushed to its window and the ranges it
accepted. -/
structure Acking where
  node : SlaveNode
  pushed : List LogOffset
  /-- The ends of the ranges accepted. -/
  accepted : List (LogOffset × LogOffset)

namespace Acking

/-- A node whose binlog sync has been activated at an offset. -/
def activated (sessionId : Int) (base : LogOffset) : Acking where
  node :=
    { SlaveNode.create sessionId with
      slaveState := .binlogSync
      sentOffset := base
      ackedOffset := base }
  pushed := []
  accepted := []

def step (state : Acking) : WindowEvent → Acking
  | .push offset binlogSize =>
    { state with
      node := { state.node with syncWin := state.node.syncWin.push (.create offset binlogSize) }
      pushed := state.pushed ++ [offset] }
  | .ack start stop =>
    let result := state.node.update start stop .zero
    { state with
      node := result.2.2
      accepted :=
        if result.1 = .ok then state.accepted ++ [(start, stop)]
        else state.accepted }

/-- The state after some events. -/
def after (sessionId : Int) (base : LogOffset) (events : List WindowEvent) : Acking :=
  events.foldl step (activated sessionId base)

/-- An offset lies in an accepted range. -/
def covered (state : Acking) (offset : LogOffset) : Bool :=
  state.accepted.any fun range => decide (¬offset < range.1 ∧ ¬range.2 < offset)

/-- The longest prefix of the pushed items that accepted ranges cover. -/
def ackedPrefix (state : Acking) : List LogOffset := state.pushed.takeWhile state.covered

/-- Acknowledgement is cumulative: the node's offset is behind the covered
prefix and its window holds the rest. -/
structure Cumulative (base : LogOffset) (state : Acking) : Prop where
  acked_same : state.node.ackedOffset.same (state.ackedPrefix.getLast?.getD base) = true
  win_eq : state.node.syncWin.win.map SyncWinItem.offset =
    state.pushed.drop state.ackedPrefix.length

end Acking

/-- The offsets that events push. -/
def pushes : List WindowEvent → List LogOffset
  | [] => []
  | .push offset _ :: events => offset :: pushes events
  | .ack _ _ :: events => pushes events

/-- Items are pushed in strictly increasing order, none below an offset. -/
def Increasing (base : LogOffset) (events : List WindowEvent) : Prop :=
  (pushes events).Pairwise (· < ·) ∧ ∀ offset ∈ pushes events, ¬offset < base

instance (base : LogOffset) (events : List WindowEvent) : Decidable (Increasing base events) :=
  inferInstanceAs (Decidable (_ ∧ _))

namespace LogOffset

theorem lt_iff {first second : LogOffset} :
    first < second ↔ first.bOffset.filenum < second.bOffset.filenum ∨
        first.bOffset.filenum = second.bOffset.filenum ∧
          first.bOffset.offset < second.bOffset.offset :=
  Iff.rfl

theorem bOffset_eq_iff {first second : LogOffset} :
    first.bOffset = second.bOffset ↔ first.bOffset.filenum = second.bOffset.filenum ∧
        first.bOffset.offset = second.bOffset.offset :=
  Binlog.BinlogOffset.ext_iff

/-- Nothing lies below the zero offset. -/
theorem same_zero_of_not_lt {offset base : LogOffset}
    (zero : offset.same .zero = true) (notBelow : ¬offset < base) :
    offset.bOffset = base.bOffset := by
  rw [same_iff, bOffset_eq_iff] at zero
  rw [lt_iff] at notBelow
  rw [bOffset_eq_iff]
  simp only [LogOffset.zero] at zero
  omega

theorem not_lt_of_same_zero {offset : LogOffset}
    (zero : offset.same .zero = true) (other : LogOffset) :
    ¬other < offset := by
  rw [same_iff, bOffset_eq_iff] at zero
  rw [lt_iff]
  simp only [LogOffset.zero] at zero
  omega

end LogOffset

theorem pushes_append (first second : List WindowEvent) :
    pushes (first ++ second) = pushes first ++ pushes second := by
  induction first with
  | nil => rfl
  | cons event first ih => cases event <;> simp [pushes, ih]

/-! ## Marking a range -/

namespace SyncWindow

variable {window : SyncWindow}

theorem map_offset_marked (found : window.Range start stop before range behind) :
    (marked before range behind).map SyncWinItem.offset = window.win.map SyncWinItem.offset := by
  have unchanged : SyncWinItem.offset ∘ SyncWinItem.acknowledge = SyncWinItem.offset := by
    funext item
    rfl
  rw [found.split, marked]
  simp only [map_append, map_map, unchanged]

/-- In an increasing window, a range marks the items between its ends. -/
theorem acked_marked (found : window.Range start stop before range behind)
    (ascending : (window.win.map SyncWinItem.offset).Pairwise (· < ·)) {acked : LogOffset → Bool}
    (ackedEq : ∀ item ∈ window.win, item.acked = acked item.offset) :
    ∀ item ∈ marked before range behind, item.acked = (acked item.offset ||
        decide (¬item.offset < start ∧ ¬stop < item.offset)) := by
  rw [pairwise_map] at ascending
  have memberOf : ∀ item, item ∈ before ∨ item ∈ range ∨ item ∈ behind → item ∈ window.win := by
    intro item member
    simpa [found.split] using member
  intro item member
  simp only [marked, mem_append, mem_map] at member
  rcases member with first | ⟨original, inRange, rfl⟩ | later
  · obtain ⟨head, starts, below⟩ := found.before_related ascending first
    rw [LogOffset.same_iff, LogOffset.bOffset_eq_iff] at starts
    have notIn : item.offset < start := by
      rw [LogOffset.lt_iff] at below ⊢
      omega
    rw [ackedEq item (memberOf item (.inl first))]
    simp [notIn]
  · have fromStart := found.start_related ascending inRange
    have toStop := found.stop_related ascending inRange
    simp only [LogOffset.same_iff, LogOffset.bOffset_eq_iff, LogOffset.lt_iff] at fromStart toStop
    have inside : ¬original.offset < start ∧ ¬stop < original.offset := by
      simp only [LogOffset.lt_iff]
      constructor
      · obtain here | ⟨head, starts, below⟩ := fromStart <;> omega
      · obtain here | ⟨last, stops, above⟩ := toStop <;> omega
    simp [inside]
  · obtain ⟨last, stops, above⟩ := found.behind_related ascending later
    rw [LogOffset.same_iff, LogOffset.bOffset_eq_iff] at stops
    have notIn : stop < item.offset := by
      rw [LogOffset.lt_iff] at above ⊢
      omega
    rw [ackedEq item (memberOf item (.inr (.inr later)))]
    simp [notIn]

end SyncWindow

/-- `SlaveNode::Update` of a syncing node: rejected without a change, or a
range marked and the front popped. -/
theorem SlaveNode.update_cases {node : SlaveNode} (syncing : node.slaveState = .binlogSync)
    (start stop updatedOffset : LogOffset) :
    node.update start stop updatedOffset = (.corruption "UpdateAckedInfo failed", .zero, node) ∨
      ∃ before range behind popped rest, node.syncWin.Range start stop before range behind ∧
          SyncWindow.marked before range behind = popped ++ rest ∧
          (∀ item ∈ popped, item.acked = true) ∧
          (∀ item ∈ rest.head?, item.acked = false) ∧
          (node.update start stop updatedOffset).1 = .ok ∧
          (node.update start stop updatedOffset).2.2 =
            { node with
              syncWin :=
                { win := rest, totalSize := SyncWindow.subtract node.syncWin.totalSize range }
              ackedOffset :=
                let reached := (popped.getLast?.map SyncWinItem.offset).getD .zero
                if reached.same .zero then node.ackedOffset else reached } := by
  have proceeds : ¬node.slaveState ≠ .binlogSync := not_not.mpr syncing
  cases parts : node.syncWin.cut start stop with
  | none =>
    left
    simp [update, proceeds, SyncWindow.update_of_none parts]
  | some found =>
    obtain ⟨before, range, behind⟩ := found
    obtain ⟨popped, rest, split, allAcked, headUnacked, accepted⟩ :=
      SyncWindow.update_of_cut parts .zero
    right
    refine ⟨before, range, behind, popped, rest,
      SyncWindow.range_of_cut parts, split, allAcked, headUnacked, ?_⟩
    simp only [update, if_neg proceeds, accepted, Bool.true_eq_false, if_false]
    split_ifs <;> exact ⟨rfl, rfl⟩

namespace Acking

variable {base : LogOffset} {state : Acking} {popped : List LogOffset}

/-- What a run with increasing pushes keeps; `popped` are the offsets that
have left the window. -/
structure Tracks (base : LogOffset) (state : Acking) (popped : List LogOffset) : Prop where
  syncing : state.node.slaveState = .binlogSync
  split : state.pushed = popped ++ state.node.syncWin.win.map SyncWinItem.offset
  ascending : state.pushed.Pairwise (· < ·)
  notBelow : ∀ offset ∈ state.pushed, ¬offset < base
  poppedCovered : ∀ offset ∈ popped, state.covered offset = true
  ackedEq : ∀ item ∈ state.node.syncWin.win, item.acked = state.covered item.offset
  headUnacked : ∀ item ∈ state.node.syncWin.win.head?, item.acked = false
  ackedOffset : state.node.ackedOffset.bOffset = (popped.getLast?.getD base).bOffset
  acceptedPushed : ∀ range ∈ state.accepted,
    ∃ offset ∈ state.pushed, offset.bOffset = range.2.bOffset

theorem tracks_activated (sessionId : Int) (base : LogOffset) :
    Tracks base (activated sessionId base) [] where
  syncing := rfl
  split := rfl
  ascending := List.Pairwise.nil
  notBelow := by simp [activated]
  poppedCovered := by simp
  ackedEq := by simp [activated, SlaveNode.create, SyncWindow.create]
  headUnacked := by simp [activated, SlaveNode.create, SyncWindow.create]
  ackedOffset := rfl
  acceptedPushed := by simp [activated]

namespace Tracks

section

variable (tracks : Tracks base state popped)
include tracks

theorem ackedPrefix_eq : state.ackedPrefix = popped := by
  rw [ackedPrefix, tracks.split]
  apply takeWhile_append_of_head tracks.poppedCovered
  rw [List.head?_map]
  intro offset member
  obtain ⟨item, atHead, rfl⟩ := Option.mem_map.mp member
  rw [← tracks.ackedEq item (mem_of_mem_head? atHead)]
  exact tracks.headUnacked item atHead

theorem cumulative : Cumulative base state where
  acked_same := by
    rw [tracks.ackedPrefix_eq, LogOffset.same_iff]
    exact tracks.ackedOffset
  win_eq := by
    rw [tracks.ackedPrefix_eq, tracks.split, drop_left]

theorem covered_eq_false {offset : LogOffset} (above : ∀ other ∈ state.pushed, other < offset) :
    state.covered offset = false := by
  rw [covered, any_eq_false]
  intro range member
  obtain ⟨last, lastPushed, same⟩ := tracks.acceptedPushed range member
  have lastBelow := above last lastPushed
  have stopBelow : range.2 < offset := by
    rw [LogOffset.lt_iff] at lastBelow ⊢
    rwa [← same]
  simp [stopBelow]

theorem push (above : ∀ other ∈ state.pushed, other < offset) (notBelow : ¬offset < base)
    (binlogSize : Nat) :
    Tracks base (state.step (.push offset binlogSize)) popped where
  __ := tracks
  split := by
    simp only [step, SyncWindow.push, map_append, tracks.split]
    simp
  ascending := by
    simp only [step, pairwise_append, pairwise_singleton, mem_singleton]
    refine ⟨tracks.ascending, trivial, ?_⟩
    rintro other member _ rfl
    exact above other member
  notBelow := by
    simp only [step, forall_mem_append, forall_mem_singleton]
    exact ⟨tracks.notBelow, notBelow⟩
  ackedEq := by
    simp only [step, SyncWindow.push, forall_mem_append, forall_mem_singleton]
    exact ⟨tracks.ackedEq, (tracks.covered_eq_false above).symm⟩
  headUnacked := by
    have front := tracks.headUnacked
    simp only [step, SyncWindow.push]
    cases items : state.node.syncWin.win with
    | nil => simp
    | cons item rest => simpa [items] using front
  acceptedPushed := by
    intro range member
    obtain ⟨last, lastPushed, same⟩ := tracks.acceptedPushed range member
    exact ⟨last, mem_append_left _ lastPushed, same⟩

/-- The last offset of a longer list of popped items is not below the node's
offset. -/
theorem not_lt_ackedOffset {more behind : List LogOffset}
    (pushed : state.pushed = popped ++ (more ++ behind)) (atEnd : last ∈ more.getLast?) :
    ¬last < (popped.getLast?.getD base) := by
  have lastMore : last ∈ more ++ behind := mem_append_left _ (mem_of_mem_getLast? atEnd)
  cases final : popped.getLast? with
  | none =>
    apply tracks.notBelow last
    rw [pushed]
    exact mem_append_right _ lastMore
  | some previous =>
    have ascending := tracks.ascending
    rw [pushed, pairwise_append] at ascending
    have above := ascending.2.2 previous (mem_of_getLast? final) last lastMore
    rw [LogOffset.lt_iff] at above
    rw [Option.getD_some, LogOffset.lt_iff]
    omega

theorem ackedOffset_append {more behind : List LogOffset}
    (pushed : state.pushed = popped ++ (more ++ behind)) :
    (if (more.getLast?.getD .zero).same .zero then state.node.ackedOffset
        else more.getLast?.getD .zero).bOffset = ((popped ++ more).getLast?.getD base).bOffset := by
  rw [List.getLast?_append]
  cases atEnd : more.getLast? with
  | none =>
    -- Nothing has left, which `LogOffset()` stands for.
    rw [Option.getD_none, if_pos (by simp), Option.none_or]
    exact tracks.ackedOffset
  | some last =>
    rw [Option.getD_some, Option.some_or, Option.getD_some]
    split_ifs with zero
    · have notBelow := tracks.not_lt_ackedOffset pushed atEnd
      rw [tracks.ackedOffset, LogOffset.same_zero_of_not_lt zero notBelow]
    · rfl

theorem pushed_eq (found : state.node.syncWin.Range start stop before range behind)
    (cut : SyncWindow.marked before range behind = gone ++ rest) :
    state.pushed = popped ++ (gone.map SyncWinItem.offset ++ rest.map SyncWinItem.offset) := by
  rw [tracks.split, ← SyncWindow.map_offset_marked found, cut, map_append]

theorem accept {next : Acking} {before range behind gone rest : List SyncWinItem}
    (found : state.node.syncWin.Range start stop before range behind)
    (cut : SyncWindow.marked before range behind = gone ++ rest)
    (goneAcked : ∀ item ∈ gone, item.acked = true)
    (restUnacked : ∀ item ∈ rest.head?, item.acked = false) (totalSize : Nat) (nextEq : next =
      { node := { state.node with
          syncWin := { win := rest, totalSize := totalSize }
          ackedOffset :=
            let reached := (gone.getLast?.map SyncWinItem.offset).getD .zero
            if reached.same .zero then state.node.ackedOffset else reached }
        pushed := state.pushed
        accepted := state.accepted ++ [(start, stop)] }) :
    Tracks base next (popped ++ gone.map SyncWinItem.offset) := by
  have pushedEq := tracks.pushed_eq found cut
  have coveredEq : ∀ offset, next.covered offset = (state.covered offset ||
        decide (¬offset < start ∧ ¬stop < offset)) := by
    intro offset
    simp [nextEq, covered, any_append]
  have windowAscending : (state.node.syncWin.win.map SyncWinItem.offset).Pairwise (· < ·) := by
    have ascending := tracks.ascending
    rw [tracks.split, pairwise_append] at ascending
    exact ascending.2.1
  have markedEq : ∀ item ∈ gone ++ rest, item.acked = next.covered item.offset := by
    intro item member
    rw [coveredEq]
    rw [← cut] at member
    exact SyncWindow.acked_marked found windowAscending tracks.ackedEq item member
  have nextPushed : next.pushed = state.pushed := by rw [nextEq]
  refine ⟨?_, ?_, ?_, ?_, ?_, ?_, ?_, ?_, ?_⟩
  · rw [nextEq]
    exact tracks.syncing
  · rw [nextPushed, pushedEq, append_assoc, nextEq]
  · rw [nextPushed]
    exact tracks.ascending
  · rw [nextPushed]
    exact tracks.notBelow
  · intro offset member
    rcases mem_append.mp member with earlier | later
    · rw [coveredEq, tracks.poppedCovered offset earlier, Bool.true_or]
    · obtain ⟨item, inGone, rfl⟩ := mem_map.mp later
      rw [← markedEq item (mem_append_left _ inGone)]
      exact goneAcked item inGone
  · intro item member
    apply markedEq item
    rw [nextEq] at member
    exact mem_append_right _ member
  · rw [nextEq]
    exact restUnacked
  · rw [nextEq, ← tracks.ackedOffset_append pushedEq, List.getLast?_map]
  · rw [nextPushed]
    intro ends member
    rw [nextEq] at member
    rcases mem_append.mp member with earlier | latest
    · exact tracks.acceptedPushed ends earlier
    · cases mem_singleton.mp latest
      obtain ⟨item, atLast, same⟩ := found.last
      refine ⟨item.offset, ?_, LogOffset.same_iff.mp same⟩
      have inWindow : item ∈ state.node.syncWin.win := by
        rw [found.split]
        exact mem_append_right _ (mem_append_left _ (mem_of_mem_getLast? atLast))
      rw [tracks.split]
      exact mem_append_right _ (mem_map_of_mem inWindow)

/-- An acknowledgement keeps the invariant, does not lower the node's offset
and changes nothing when it is rejected. -/
theorem ack (start stop : LogOffset) :
    (∃ more, Tracks base (state.step (.ack start stop)) (popped ++ more)) ∧
      ¬(state.step (.ack start stop)).node.ackedOffset < state.node.ackedOffset ∧
      ((state.node.update start stop .zero).1 ≠ .ok → state.step (.ack start stop) = state) := by
  obtain rejected | ⟨before, range, behind, gone, rest, found, cut,
    goneAcked, restUnacked, isOk, nodeEq⟩ :=
      SlaveNode.update_cases tracks.syncing start stop .zero
  · have same : state.step (.ack start stop) = state := by simp [step, rejected]
    rw [same]
    refine ⟨⟨[], ?_⟩, ?_, fun _ => rfl⟩
    · rwa [append_nil]
    · exact Binlog.BinlogOffset.lt_irrefl _
  · have tracksNext : Tracks base (state.step (.ack start stop))
        (popped ++ gone.map SyncWinItem.offset) := by
      apply tracks.accept found cut goneAcked restUnacked
        (SyncWindow.subtract state.node.syncWin.totalSize range)
      simp only [step, isOk, if_true, nodeEq]
    refine ⟨⟨_, tracksNext⟩, ?_, fun failed => (failed isOk).elim⟩
    change ¬(state.step (.ack start stop)).node.ackedOffset.bOffset < state.node.ackedOffset.bOffset
    rw [tracksNext.ackedOffset, tracks.ackedOffset, List.getLast?_append]
    cases atEnd : (gone.map SyncWinItem.offset).getLast? with
    | none =>
      rw [Option.none_or]
      exact Binlog.BinlogOffset.lt_irrefl _
    | some last => exact tracks.not_lt_ackedOffset (tracks.pushed_eq found cut) atEnd

end

end Tracks

theorem after_append (sessionId : Int) (base : LogOffset)
    (events : List WindowEvent) (event : WindowEvent) :
    after sessionId base (events ++ [event]) = (after sessionId base events).step event := by
  simp [after]

theorem pushed_after (sessionId : Int) (base : LogOffset) (events : List WindowEvent) :
    (after sessionId base events).pushed = pushes events := by
  induction events using List.reverseRecOn with
  | nil => rfl
  | append_singleton events event ih =>
    rw [after_append, pushes_append]
    cases event with
    | push offset binlogSize => simp [step, pushes, ih]
    | ack start stop => simp [step, pushes, ih]

theorem tracks_after (sessionId : Int) (increasing : Increasing base events) :
    ∃ popped, Tracks base (after sessionId base events) popped := by
  induction events using List.reverseRecOn with
  | nil => exact ⟨[], tracks_activated sessionId base⟩
  | append_singleton events event ih =>
    obtain ⟨ascending, notBelow⟩ := increasing
    rw [pushes_append] at ascending notBelow
    rw [pairwise_append] at ascending
    obtain ⟨popped, tracks⟩ := ih ⟨ascending.1, fun offset member =>
      notBelow offset (mem_append_left _ member)⟩
    rw [after_append]
    cases event with
    | push offset binlogSize =>
      refine ⟨popped, tracks.push ?_ ?_ binlogSize⟩
      · rw [pushed_after]
        intro other member
        exact ascending.2.2 other member offset (by simp [pushes])
      · exact notBelow offset (mem_append_right _ (by simp [pushes]))
    | ack start stop =>
      obtain ⟨more, tracksNext⟩ := (tracks.ack start stop).1
      exact ⟨popped ++ more, tracksNext⟩

/-- For every sequence of increasing pushes and of acknowledgements in any
order: acknowledgement is cumulative, and a further acknowledgement neither
lowers the node's offset nor, when it is rejected, changes anything. -/
theorem cumulative_after (sessionId : Int) (base : LogOffset)
    (events : List WindowEvent) (increasing : Increasing base events) :
    Cumulative base (after sessionId base events) ∧ ∀ start stop,
        ¬(after sessionId base (events ++ [.ack start stop])).node.ackedOffset <
            (after sessionId base events).node.ackedOffset ∧
          (((after sessionId base events).node.update start stop .zero).1 ≠ .ok →
            after sessionId base (events ++ [.ack start stop]) = after sessionId base events) := by
  obtain ⟨popped, tracks⟩ := tracks_after sessionId increasing
  refine ⟨tracks.cumulative, fun start stop => ?_⟩
  rw [after_append]
  exact (tracks.ack start stop).2

/-- Three items: an acknowledgement behind a hole, one twice, one reversed, one
of an unknown item, and the one that fills the hole. -/
def outOfOrder : List WindowEvent :=
  [.push (.inFile 9 1) 1, .push (.inFile 20 2) 3, .ack (.inFile 20 2) (.inFile 20 2),
    .push (.inFile 31 3) 3, .ack (.inFile 20 2) (.inFile 20 2),
    .ack (.inFile 31 3) (.inFile 9 1), .ack (.inFile 5 0) (.inFile 9 1),
    .ack (.inFile 9 1) (.inFile 9 1)]

/-- The hole is filled: two items have left and the third one remains. -/
theorem cumulative_after_outOfOrder :
    (after 7 .zero outOfOrder).node.ackedOffset = .inFile 20 2 ∧
      (after 7 .zero outOfOrder).node.syncWin.win = [.create (.inFile 31 3) 3] ∧
      Cumulative .zero (after 7 .zero outOfOrder) :=
  ⟨by decide +kernel, by decide +kernel,
    (cumulative_after 7 .zero outOfOrder (by decide +kernel)).1⟩

end Acking
end Pika.Sync
