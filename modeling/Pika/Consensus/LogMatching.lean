import Mathlib.Data.List.Nodup
import Pika.Foundation.Transition
import Pika.Sync.Window

/-!
# Log matching on a follower

A message of the leader names the offset in front of its first item.  The
follower compares that offset with its last one once for the message, and the
index of every item with its last index; it does not look at what the append of
an item returns.  Items are known by their offsets in the leader's log.
-/

namespace Pika.Consensus

open Foundation
open Binlog (BinlogOffset)
open Sync (LogOffset)

/-- The log of a leader, whose indexes increase. -/
structure LeaderLog where
  items : List LogOffset
  increasing : items.Pairwise fun first second => first.lOffset.index < second.lOffset.index
  /-- `ProposeLog` counts from one. -/
  positive : ∀ item ∈ items, 0 < item.lOffset.index

/-- What `BuildBinlogSyncResp` sends: items that follow each other. -/
structure BinlogMessage (leader : LeaderLog) where
  term : Nat
  before : List LogOffset
  items : List LogOffset
  after : List LogOffset
  split : leader.items = before ++ (items ++ after)

/-- `log_offset` of the consensus meta. -/
def BinlogMessage.prevOffset (message : BinlogMessage leader) : LogOffset :=
  message.before.getLast?.getD .zero

/-- What becomes of the next item of a message. -/
inductive AppendOutcome where
  /-- A check in front of it fails: the rest of the message is dropped. -/
  | dropped
  /-- `Put` fails. -/
  | failed
  /-- `Put` leaves the producer at a position. -/
  | put (position : BinlogOffset)

/-- What can happen at a follower. -/
inductive MatchLabel (leader : LeaderLog) where
  | receive (message : BinlogMessage leader)
  | processLeaderLog (outcome : AppendOutcome)

/-- The log of a follower, with the items left of the message in hand. -/
structure FollowerLog where
  term : Nat
  lastOffset : LogOffset
  stored : List LogOffset
  batch : List LogOffset
  deriving DecidableEq

namespace FollowerLog

/-- A follower before its first item. -/
def initial (term : Nat) (lastOffset : LogOffset) : FollowerLog where
  term := term
  lastOffset := lastOffset
  stored := []
  batch := []

/-- `HandleBGWorkerWriteBinlog` up to its loop. -/
def receive (message : BinlogMessage leader) (log : FollowerLog) : FollowerLog :=
  if message.term < log.term then log
  else if message.items ≠ [] ∧ log.lastOffset.lOffset.index ≠ 0 ∧
      (log.lastOffset.lOffset ≠ message.prevOffset.lOffset ∨
        log.lastOffset.bOffset ≠ message.prevOffset.bOffset) then
    { log with term := message.term }
  else { log with term := message.term, batch := message.items }

/-- `ProcessLeaderLog` of the next item. -/
def processLeaderLog (outcome : AppendOutcome) (log : FollowerLog) : Option FollowerLog :=
  match log.batch, outcome with
  | [], _ => none
  | _ :: _, .dropped => some { log with batch := [] }
  | _ :: batch, .failed => some { log with batch := batch }
  | item :: batch, .put position =>
    if item.lOffset.index < log.lastOffset.lOffset.index then some { log with batch := batch }
    else some { log with
      lastOffset := { bOffset := position, lOffset := item.lOffset }
      stored := log.stored ++ [item]
      batch := batch }

/-- One step: a message comes while none is in hand, or an item is processed. -/
def step (log : FollowerLog) : MatchLabel leader → Option FollowerLog
  | .receive message => if log.batch = [] then some (log.receive message) else none
  | .processLeaderLog outcome => log.processLeaderLog outcome

/-- The stored items directly follow each other in the leader's log. -/
structure Matches (leader : LeaderLog) (log : FollowerLog) : Prop where
  increasing : log.stored.Pairwise fun first second => first.lOffset.index < second.lOffset.index
  contiguous : log.stored <:+: leader.items

/-- No `Put` fails in front of a further item of its message. -/
def FailsLast (log : FollowerLog) : MatchLabel leader → Prop
  | .processLeaderLog .failed => log.batch.length ≤ 1
  | _ => True

instance decidableFailsLast (log : FollowerLog) :
    ∀ label : MatchLabel leader, Decidable (FailsLast log label)
  | .processLeaderLog .failed => inferInstanceAs (Decidable (log.batch.length ≤ 1))
  | .processLeaderLog .dropped | .processLeaderLog (.put _) | .receive _ => .isTrue trivial

/-- The items in hand follow the stored ones, and the last offset is that of
the last stored one. -/
structure Sound (leader : LeaderLog) (log : FollowerLog) : Prop where
  split : ∃ before after, leader.items = before ++ (log.stored ++ (log.batch ++ after))
  last : ∀ item ∈ log.stored.getLast?, log.lastOffset.lOffset = item.lOffset
  ahead : ∀ item ∈ log.batch, log.lastOffset.lOffset.index < item.lOffset.index

theorem Sound.initial (term : Nat) (lastOffset : LogOffset) :
    Sound leader (initial term lastOffset) where
  split := ⟨[], leader.items, rfl⟩
  last := nofun
  ahead := nofun

/-- The invariant gives the property. -/
theorem Sound.matches (sound : Sound leader log) : Matches leader log := by
  obtain ⟨before, after, split⟩ := sound.split
  have contiguous : log.stored <:+: leader.items :=
    ⟨before, log.batch ++ after, by rw [split, List.append_assoc]⟩
  exact ⟨leader.increasing.sublist contiguous.sublist, contiguous⟩

/-- An index stands at one place of the leader's log. -/
theorem front_unique {leader : LeaderLog} {first second rest tail : List LogOffset}
    (split : leader.items = first ++ item :: rest) (again : leader.items = second ++ other :: tail)
    (same : item.lOffset.index = other.lOffset.index) : first = second ∧ item = other := by
  have distinct : (leader.items.map fun item => item.lOffset.index).Nodup :=
    List.pairwise_map.mpr (leader.increasing.imp Nat.ne_of_lt)
  have itemEq : item = other :=
    List.inj_on_of_nodup_map distinct (by simp [split]) (by simp [again]) same
  subst itemEq
  have nodup : (first ++ item :: rest).Nodup := split ▸ distinct.of_map
  rw [List.nodup_middle, List.nodup_cons, List.mem_append, not_or] at nodup
  have parts := (List.append_cons_inj_of_notMem nodup.1.1 nodup.1.2).mp (split.symm.trans again)
  exact ⟨parts.1, rfl⟩

theorem before_eq (message : BinlogMessage leader)
    (counted : message.prevOffset.lOffset.index ≠ 0) :
    ∃ front, message.before = front ++ [message.prevOffset] := by
  obtain empty | ⟨front, item, beforeEq⟩ := message.before.eq_nil_or_concat
  · exact absurd (by simp [BinlogMessage.prevOffset, empty]; rfl) counted
  · exact ⟨front, by simp [BinlogMessage.prevOffset, beforeEq]⟩

/-- A message that is taken in follows the last offset. -/
theorem Sound.take (sound : Sound leader log) (idle : log.batch = [])
    (message : BinlogMessage leader) (follows : log.lastOffset.lOffset.index ≠ 0 →
      log.lastOffset.lOffset = message.prevOffset.lOffset) :
    Sound leader { log with term := message.term, batch := message.items } := by
  refine ⟨?_, sound.last, ?_⟩
  · obtain empty | ⟨front, item, storedEq⟩ := log.stored.eq_nil_or_concat
    · exact ⟨message.before, message.after, by simpa [empty] using message.split⟩
    obtain ⟨before, after, split⟩ := sound.split
    have lastEq := sound.last item (by simp [storedEq])
    have known : leader.items = (before ++ front) ++ item :: after := by
      simp [split, storedEq, idle]
    have counted : log.lastOffset.lOffset.index ≠ 0 := by
      rw [lastEq]
      exact (leader.positive item (by simp [known])).ne'
    have prevEq := follows counted
    obtain ⟨start, beforeEq⟩ := before_eq message (prevEq ▸ counted)
    have sent : leader.items = start ++ message.prevOffset :: (message.items ++ message.after) := by
      rw [message.split, beforeEq, List.append_assoc, List.singleton_append]
    obtain ⟨startEq, itemEq⟩ := front_unique known sent (by rw [← lastEq, prevEq])
    refine ⟨before, message.after, ?_⟩
    rw [sent, ← startEq, ← itemEq, storedEq]
    simp
  · intro item mem
    by_cases counted : log.lastOffset.lOffset.index = 0
    · rw [counted]
      exact leader.positive item (by simp [message.split, show item ∈ message.items from mem])
    have prevEq := follows counted
    obtain ⟨start, beforeEq⟩ := before_eq message (prevEq ▸ counted)
    have increasing := message.split ▸ leader.increasing
    rw [prevEq]
    exact increasing.rel_of_mem_append (by simp [beforeEq]) (List.mem_append_left _ mem)

/-- The items of a message that passes the checks follow the stored ones. -/
theorem Sound.receive (sound : Sound leader log) (idle : log.batch = [])
    (message : BinlogMessage leader) : Sound leader (log.receive message) := by
  unfold FollowerLog.receive
  split_ifs with outdated mismatch
  · exact sound
  · exact ⟨sound.split, sound.last, sound.ahead⟩
  by_cases keepalive : message.items = []
  · have unchanged : message.items = log.batch := keepalive.trans idle.symm
    rw [unchanged]
    exact ⟨sound.split, sound.last, sound.ahead⟩
  · apply sound.take idle
    intro counted
    by_contra differs
    exact mismatch ⟨keepalive, counted, .inl differs⟩

/-- The item at the head of the message is stored, or nothing is left of it. -/
theorem Sound.processLeaderLog (sound : Sound leader log)
    (failsLast : FailsLast log (.processLeaderLog outcome : MatchLabel leader))
    (stepped : log.processLeaderLog outcome = some next) : Sound leader next := by
  obtain ⟨before, after, split⟩ := sound.split
  have emptied (rest : List LogOffset) (restEq : rest = []) :
      Sound leader { log with batch := rest } := by
    subst restEq
    exact ⟨⟨before, log.batch ++ after, split⟩, sound.last, nofun⟩
  unfold FollowerLog.processLeaderLog at stepped
  split at stepped
  · cases stepped
  · cases stepped
    exact emptied [] rfl
  · next batchEq =>
    cases stepped
    apply emptied
    simpa [FailsLast, batchEq] using failsLast
  next item batch position batchEq =>
    have increasing : (item :: batch).Pairwise fun first second =>
        first.lOffset.index < second.lOffset.index :=
      leader.increasing.sublist (List.IsInfix.sublist ⟨before ++ log.stored, after,
        by rw [split, batchEq]; simp⟩)
    have current : ¬item.lOffset.index < log.lastOffset.lOffset.index :=
      (sound.ahead item (by simp [batchEq])).not_gt
    rw [if_neg current] at stepped
    cases stepped
    refine ⟨⟨before, after, by simp [split, batchEq]⟩, by simp, ?_⟩
    exact fun later mem => List.rel_of_pairwise_cons increasing mem

/-- Where no `Put` fails in front of a further item of its message, a follower
stores items that directly follow each other in the leader's log, whatever
messages reach it. -/
theorem matches_of_run (leader : LeaderLog) (term : Nat) (lastOffset : LogOffset)
    (labels : List (MatchLabel leader)) (log : FollowerLog)
    (admitted : RunAdmissible step FailsLast (initial term lastOffset) labels)
    (ran : run step (initial term lastOffset) labels = some log) :
    Matches leader log := by
  have preserved : ∀ log (label : MatchLabel leader) next,
      Sound leader log → FailsLast log label → step log label = some next →
        Sound leader next := by
    intro log label next sound failsLast stepped
    cases label with
    | receive message =>
      obtain ⟨idle, ⟨⟩⟩ := Option.ite_none_right_eq_some.mp stepped
      exact sound.receive idle message
    | processLeaderLog outcome => exact sound.processLeaderLog failsLast stepped
  exact (invariant_of_run preserved (.initial term lastOffset) admitted ran).matches

/-- The leader's log of the run below. -/
def threeItems : LeaderLog where
  items := [.inFile 10 1, .inFile 20 2, .inFile 30 3]
  increasing := by decide
  positive := by decide

/-- All of it, in one message. -/
def oneMessage : BinlogMessage threeItems where
  term := 1
  before := []
  items := threeItems.items
  after := []
  split := rfl

/-- It is received, and its first item is stored. -/
def threeSteps (second third : AppendOutcome) : List (MatchLabel threeItems) :=
  [.receive oneMessage, .processLeaderLog (.put ⟨0, 10⟩), .processLeaderLog second,
    .processLeaderLog third]

theorem matches_twoItems :
    ∃ log, run step (initial 0 .zero) (threeSteps (.put ⟨0, 20⟩) .failed) = some log ∧
      Matches threeItems log :=
  ⟨_, rfl, matches_of_run threeItems 0 .zero (threeSteps (.put ⟨0, 20⟩) .failed) _
    (by decide) rfl⟩

/-- The `Put` of the second item fails, and the third one is appended behind
the first. -/
theorem not_matches_failed :
    ∃ log, run step (initial 0 .zero) (threeSteps .failed (.put ⟨0, 20⟩)) = some log ∧
      ¬Matches threeItems log :=
  ⟨_, rfl, fun matched => absurd matched.contiguous (by decide)⟩

end FollowerLog
end Pika.Consensus
