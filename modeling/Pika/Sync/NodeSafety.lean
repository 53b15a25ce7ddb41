import Pika.Sync.Acknowledge
import Pika.Sync.Node

/-!
# The sync window along runs

Offsets increase from the acknowledged to the sent one.  Reading extends them
at the end and acknowledging takes them from the front.  An activation that
finds items in the window, or a call that fails behind an item it has read,
breaks the invariant at once.
-/

namespace Pika.Sync

open Foundation
open List hiding count
open Binlog (BinlogOffset Record)
open Replication (binlogItemWithoutContentDecode)

/-! ## Offsets between the acknowledged and the sent one -/

/-- Offsets increase from the acknowledged to the sent one. -/
structure Pending (acked sent : LogOffset) (offsets : List LogOffset) : Prop where
  ascending : (acked :: offsets).Pairwise (· < ·)
  last_eq : ∀ offset ∈ offsets.getLast?, offset = sent
  same_of_nil : offsets = [] → sent.bOffset = acked.bOffset

namespace Pending

theorem le_sent (pending : Pending acked sent offsets) (member : offset ∈ acked :: offsets) :
    ¬sent < offset := by
  rw [LogOffset.lt_iff]
  cases final : offsets.getLast? with
  | none =>
    cases List.getLast?_eq_none_iff.mp final
    have same := LogOffset.bOffset_eq_iff.mp (pending.same_of_nil rfl)
    cases mem_singleton.mp member
    omega
  | some last =>
    cases pending.last_eq last final
    obtain ⟨front, rfl⟩ := List.getLast?_eq_some_iff.mp final
    have ascending := pending.ascending
    rw [← cons_append, pairwise_append] at ascending
    rw [← cons_append, mem_append, mem_singleton] at member
    rcases member with earlier | rfl
    · have below := ascending.2.2 offset earlier sent (by simp)
      rw [LogOffset.lt_iff] at below
      omega
    · omega

theorem append (pending : Pending acked sent offsets) (later : (sent :: more).Pairwise (· < ·)) :
    Pending acked (more.getLast?.getD sent) (offsets ++ more) where
  ascending := by
    obtain ⟨behind, ascending⟩ := pairwise_cons.mp later
    rw [← cons_append, pairwise_append]
    refine ⟨pending.ascending, ascending, ?_⟩
    intro offset member other isLater
    have notAbove := pending.le_sent member
    have above := behind other isLater
    rw [LogOffset.lt_iff] at notAbove above ⊢
    omega
  last_eq := by
    intro offset final
    rw [Option.mem_def, List.getLast?_append] at final
    cases last : more.getLast? with
    | none =>
      rw [last, Option.none_or] at final
      exact pending.last_eq offset final
    | some other =>
      rw [last, Option.some_or] at final
      exact (Option.some.inj final).symm
  same_of_nil := by
    intro nothing
    obtain ⟨rfl, rfl⟩ := append_eq_nil_iff.mp nothing
    exact pending.same_of_nil rfl

theorem drop (pending : Pending acked sent (gone ++ rest)) :
    Pending (gone.getLast?.getD acked) sent rest where
  ascending := by
    have ascending := pending.ascending
    cases final : gone.getLast? with
    | none =>
      cases List.getLast?_eq_none_iff.mp final
      exact ascending
    | some last =>
      obtain ⟨front, rfl⟩ := List.getLast?_eq_some_iff.mp final
      rw [append_assoc, ← cons_append, pairwise_append] at ascending
      exact ascending.2.1
  last_eq := by
    intro offset final
    apply pending.last_eq offset
    rw [Option.mem_def, List.getLast?_append, Option.mem_def.mp final]
    rfl
  same_of_nil := by
    rintro rfl
    cases final : gone.getLast? with
    | none =>
      cases List.getLast?_eq_none_iff.mp final
      exact pending.same_of_nil rfl
    | some last =>
      rw [append_nil] at pending
      rw [pending.last_eq last final]
      rfl

/-- The zero offset marks exactly that nothing has been acknowledged. -/
theorem reached_eq (pending : Pending acked sent (gone ++ rest)) :
    (if (gone.getLast?.getD .zero).same .zero then acked
      else gone.getLast?.getD .zero) = gone.getLast?.getD acked := by
  cases final : gone.getLast? with
  | none => exact if_pos (LogOffset.same_iff.mpr rfl)
  | some last =>
    have above := rel_of_pairwise_cons pending.ascending
      (mem_append_left _ (mem_of_getLast? final))
    rw [Option.getD_some, Option.getD_some, if_neg]
    exact fun zero => LogOffset.not_lt_of_same_zero zero acked above

/-- Where something is pending, more has been sent than acknowledged. -/
theorem not_same_of_ne_nil (pending : Pending acked sent offsets) (something : offsets ≠ []) :
    sent.bOffset ≠ acked.bOffset := by
  obtain ⟨last, final⟩ : ∃ last, offsets.getLast? = some last := Option.ne_none_iff_exists'.mp
      (fun nothing => something (List.getLast?_eq_none_iff.mp nothing))
  have above := rel_of_pairwise_cons pending.ascending (mem_of_getLast? final)
  rw [pending.last_eq last final, LogOffset.lt_iff] at above
  rw [ne_eq, LogOffset.bOffset_eq_iff]
  omega

end Pending

theorem inSync_iff :
    InSync handed node ↔ Pending node.ackedOffset node.sentOffset
          (node.syncWin.win.map SyncWinItem.offset) ∧
        ∀ offset ∈ node.syncWin.win.map SyncWinItem.offset, offset ∈ handed := by
  constructor
  · intro inSync
    refine ⟨⟨pairwise_cons.mpr ⟨inSync.above, inSync.ascending⟩,
      inSync.last_eq, fun nothing => ?_⟩, inSync.handedOver⟩
    exact LogOffset.same_iff.mp (inSync.empty_iff.mp (map_eq_nil_iff.mp nothing))
  · rintro ⟨pending, handedOver⟩
    obtain ⟨above, ascending⟩ := pairwise_cons.mp pending.ascending
    refine ⟨ascending, above, pending.last_eq, ?_, handedOver⟩
    rw [LogOffset.same_iff, ← map_eq_nil_iff]
    exact ⟨pending.same_of_nil, not_imp_not.mp pending.not_same_of_ne_nil⟩

/-! ## Reading items -/

/-- The reader of a node stands behind a record that is not beyond the sent
offset. -/
structure Ahead (log : BinlogRecords) (node : SlaveNode) (count : Nat) : Prop where
  reader_eq : node.binlogReader = some count
  sent_mem : node.sentOffset.bOffset ∈ log.start :: log.records.map Record.position
  ascending : (node.sentOffset.bOffset ::
    (log.records.drop count).map Record.position).Pairwise (· < ·)

/-- What reading does to a node. -/
structure ReadOn (log : BinlogRecords) (node last : SlaveNode)
    (tasks : List WriteTask) : Prop where
  slaveState_eq : last.slaveState = node.slaveState
  ackedOffset_eq : last.ackedOffset = node.ackedOffset
  win_eq : last.syncWin.win.map SyncWinItem.offset =
    node.syncWin.win.map SyncWinItem.offset ++ tasks.map WriteTask.offset
  ascending : (node.sentOffset :: tasks.map WriteTask.offset).Pairwise (· < ·)
  sentOffset_eq : last.sentOffset = (tasks.map WriteTask.offset).getLast?.getD node.sentOffset
  ahead : ∃ count, Ahead log last count

namespace ReadOn

variable {log : BinlogRecords} {node last : SlaveNode}
variable {tasks : List WriteTask}

theorem nothing (ahead : Ahead log node count) : ReadOn log node node [] where
  slaveState_eq := rfl
  ackedOffset_eq := rfl
  win_eq := (append_nil _).symm
  ascending := pairwise_singleton _ _
  sentOffset_eq := rfl
  ahead := ⟨count, ahead⟩

theorem cons (rest : ReadOn log (node.advance count record) last tasks)
    (behind : node.sentOffset.bOffset < record.position) :
    ReadOn log node last (node.writeTask record :: tasks) where
  __ := rest
  win_eq := by
    rw [rest.win_eq]
    simp [SlaveNode.advance, SyncWindow.push, SlaveNode.writeTask]
  ascending := by
    obtain ⟨above, ascending⟩ := pairwise_cons.mp rest.ascending
    rw [map_cons, pairwise_cons]
    refine ⟨forall_mem_cons.mpr ⟨behind, ?_⟩, rest.ascending⟩
    intro offset member
    exact BinlogOffset.lt_trans behind (above offset member)
  sentOffset_eq := by
    rw [rest.sentOffset_eq, map_cons, List.getLast?_cons]
    cases (tasks.map WriteTask.offset).getLast? <;> rfl

end ReadOn

namespace SlaveNode

/-- Behind a record that has been read, the reader is ahead again. -/
theorem ahead_of_cons (ahead : Ahead log node count)
    (next : log.records.drop count = record :: records)
    (reader : last.binlogReader = some (count + 1))
    (sent : last.sentOffset = node.sentOffset ∨ last.sentOffset = recordOffset record) :
    Ahead log last (count + 1) where
  reader_eq := reader
  sent_mem := by
    rcases sent with same | read
    · rw [same]
      exact ahead.sent_mem
    · have member : record ∈ log.records := by
        apply mem_of_mem_drop
        rw [next]
        exact mem_cons_self
      rw [read]
      exact mem_cons_of_mem _ (mem_map_of_mem member)
  ascending := by
    have ascending := ahead.ascending
    have behind : log.records.drop (count + 1) = records := by
      rw [← drop_drop, next, drop_one, tail_cons]
    rw [next, map_cons] at ascending
    rw [behind]
    obtain ⟨above, tail⟩ := pairwise_cons.mp ascending
    rcases sent with same | read
    · rw [same, pairwise_cons]
      exact ⟨fun position member =>
        above position (mem_cons_of_mem _ member), (pairwise_cons.mp tail).2⟩
    · rw [read]
      exact tail

theorem readLoop_spec (failure : Option Nat) (left iteration : Nat) (ahead : Ahead log node count)
    (inFront : log.records.drop count = records) :
    ReadOn log node (readLoop failure left iteration count records node).2.1
      (readLoop failure left iteration count records node).1 := by
  induction left generalizing iteration count records node with
  | zero => exact ReadOn.nothing ahead
  | succ left ih =>
    cases records with
    | nil =>
      simp only [readLoop]
      split_ifs <;> exact ReadOn.nothing ahead
    | cons record records =>
      have behind : log.records.drop (count + 1) = records := by
        rw [← drop_drop, inFront, drop_one, tail_cons]
      have above : node.sentOffset.bOffset < record.position := by
        have ascending := ahead.ascending
        rw [inFront] at ascending
        exact rel_of_pairwise_cons ascending mem_cons_self
      simp only [readLoop]
      split_ifs
      · exact ReadOn.nothing ahead
      · exact ReadOn.nothing ahead
      · exact ReadOn.cons (ih (iteration + 1)
          (ahead_of_cons ahead inFront rfl (.inr rfl)) behind) above
      · have skipped : Ahead log
            { node with binlogReader := some (count + 1) } (count + 1) :=
          ahead_of_cons ahead inFront rfl (.inl rfl)
        exact ⟨rfl, rfl, (append_nil _).symm,
          pairwise_singleton _ _, rfl, count + 1, skipped⟩

/-- A call reads some items and fails exactly if it meets an error behind
them. -/
theorem readLoop_fails_iff (failure : Option Nat)
    (read left iteration count : Nat) (records : List Record) (node : SlaveNode) :
    ((readLoop failure left iteration count records node).2.2 = false ∧
        (readLoop failure left iteration count records node).1.length = read) ↔
      FailsAfter failure read left iteration node.syncWin.totalSize
        records := by
  induction left generalizing read iteration count records node with
  | zero => cases read <;> simp [readLoop, FailsAfter]
  | succ left ih =>
    by_cases full : 2 * Replication.maxConnRbufHB < node.syncWin.totalSize
    · have stops : ¬node.syncWin.totalSize ≤ 2 * Replication.maxConnRbufHB := Nat.not_le.mpr full
      cases records <;> cases read <;> simp [readLoop, FailsAfter, full, stops]
    · have goesOn : node.syncWin.totalSize ≤ 2 * Replication.maxConnRbufHB := Nat.not_lt.mp full
      by_cases fails : failure = some iteration
      · cases records <;> cases read <;> simp [readLoop, FailsAfter, full, goesOn, fails]
      · cases records with
        | nil => cases read <;> simp [readLoop, FailsAfter, full, fails]
        | cons record records =>
          cases decodes : binlogItemWithoutContentDecode record.item with
          | false =>
            cases read <;> simp [readLoop, FailsAfter, full, goesOn, fails, decodes]
          | true =>
            cases read with
            | zero => simp [readLoop, FailsAfter, full, fails, decodes]
            | succ read =>
              have rest := ih read (iteration + 1) (count + 1) records (node.advance count record)
              simp only [readLoop, if_neg full, if_neg fails, decodes,
                if_true, length_cons, Nat.add_right_cancel_iff, rest]
              simp [FailsAfter, goesOn, fails, decodes, advance,
                SyncWindow.push, SyncWinItem.create]

end SlaveNode
/-! ## Runs -/

/-- What the operations keep of a node. -/
structure Keeps (log : BinlogRecords) (handed : List LogOffset) (node : SlaveNode) : Prop where
  idle : node.slaveState ≠ .binlogSync → node.binlogReader = none ∧ node.syncWin.win = []
  inSync : node.slaveState = .binlogSync → InSync handed node
  ahead : node.slaveState = .binlogSync → ∃ count, Ahead log node count
  handedLe : node.slaveState = .binlogSync → ∀ offset ∈ handed, ¬node.sentOffset < offset

namespace Keeps

variable {node : SlaveNode}

theorem create (log : BinlogRecords) (handed : List LogOffset)
    (sessionId : Int) : Keeps log handed (SlaveNode.create sessionId) where
  idle _ := ⟨rfl, rfl⟩
  inSync syncing := nomatch syncing
  ahead syncing := nomatch syncing
  handedLe syncing := nomatch syncing

theorem setSessionId (keeps : Keeps log handed node) (sessionId : Int) :
    Keeps log handed { node with sessionId := sessionId } where
  __ := keeps
  inSync syncing :=
    have inSync := keeps.inSync syncing
    ⟨inSync.ascending, inSync.above, inSync.last_eq, inSync.empty_iff, inSync.handedOver⟩
  ahead syncing :=
    have ⟨count, ahead⟩ := keeps.ahead syncing
    ⟨count, ahead.reader_eq, ahead.sent_mem, ahead.ascending⟩

theorem put (keeps : Keeps log handed node) (added : log.put record = some grown) :
    Keeps grown handed node where
  __ := keeps
  ahead syncing := by
    obtain ⟨count, reader, sentMember, ascending⟩ := keeps.ahead syncing
    rw [BinlogRecords.put] at added
    split_ifs at added with above
    cases added
    refine ⟨count, reader, ?_, ?_⟩
    · simp only [map_append, ← cons_append]
      exact mem_append_left _ sentMember
    · have earlier : ∀ position ∈ node.sentOffset.bOffset ::
          (log.records.drop count).map Record.position, position < record.position := by
        refine forall_mem_cons.mpr ⟨above _ sentMember, ?_⟩
        intro position member
        apply above position
        rw [map_drop] at member
        exact mem_cons_of_mem _ (mem_of_mem_drop member)
      rw [drop_append, map_append, ← cons_append, pairwise_append]
      refine ⟨ascending, ?_, ?_⟩
      · exact ((pairwise_singleton _ _).drop).map _ fun _ _ less => less
      · intro position member other isLast
        obtain ⟨last, lastMember, rfl⟩ := mem_map.mp isLast
        cases mem_singleton.mp (mem_of_mem_drop lastMember)
        exact earlier position member

theorem activate (empty : node.syncWin.win = []) (found : log.cursor offset.bOffset = some count) :
    Keeps log [] (node.activate offset count) where
  idle notSyncing := (notSyncing rfl).elim
  inSync _ := by
    have nothing : (node.activate offset count).syncWin.win = [] := empty
    rw [inSync_iff, nothing]
    exact ⟨⟨pairwise_singleton _ _, by simp, fun _ => rfl⟩, by simp⟩
  ahead _ := ⟨count, rfl, BinlogRecords.mem_of_cursor found,
    BinlogRecords.ascending_of_cursor found⟩
  handedLe _ := by simp

theorem read (keeps : Keeps log handed node) (syncing : node.slaveState = .binlogSync)
    (readOn : ReadOn log node last tasks) :
    Keeps log (handed ++ tasks.map WriteTask.offset) last := by
  obtain ⟨pending, handedOver⟩ := inSync_iff.mp (keeps.inSync syncing)
  have grown := pending.append readOn.ascending
  rw [← readOn.win_eq, ← readOn.sentOffset_eq, ← readOn.ackedOffset_eq] at grown
  have lastSyncing := readOn.slaveState_eq.trans syncing
  refine ⟨fun notSyncing => (notSyncing lastSyncing).elim, fun _ => ?_,
    fun _ => readOn.ahead, fun _ => ?_⟩
  · rw [inSync_iff]
    refine ⟨grown, ?_⟩
    rw [readOn.win_eq, forall_mem_append]
    exact ⟨fun offset member => mem_append_left _ (handedOver offset member),
      fun offset member => mem_append_right _ member⟩
  · rw [forall_mem_append]
    constructor
    · intro offset member
      have notAbove := keeps.handedLe syncing offset member
      have reached : ¬last.sentOffset < node.sentOffset := by
        cases final : (tasks.map WriteTask.offset).getLast? with
        | none =>
          rw [readOn.sentOffset_eq, final]
          exact BinlogOffset.lt_irrefl _
        | some task =>
          have above := rel_of_pairwise_cons readOn.ascending (mem_of_getLast? final)
          rw [readOn.sentOffset_eq, final, Option.getD_some, LogOffset.lt_iff]
          rw [LogOffset.lt_iff] at above
          omega
      rw [LogOffset.lt_iff] at notAbove reached ⊢
      omega
    · intro offset member
      apply grown.le_sent
      rw [readOn.win_eq]
      exact mem_cons_of_mem _ (mem_append_right _ member)

theorem update (keeps : Keeps log handed node) (start stop : LogOffset) :
    Keeps log handed (node.update start stop .zero).2.2 := by
  by_cases syncing : node.slaveState = .binlogSync
  · obtain rejected | ⟨before, range, behind, gone, rest, found, cut, -, -, -,
      nodeEq⟩ := SlaveNode.update_cases syncing start stop .zero
    · rwa [rejected]
    · obtain ⟨pending, handedOver⟩ := inSync_iff.mp (keeps.inSync syncing)
      have offsets := SyncWindow.map_offset_marked found
      rw [cut, map_append] at offsets
      rw [← offsets] at pending handedOver
      have ackedEq := pending.reached_eq
      rw [List.getLast?_map] at ackedEq
      rw [nodeEq, ackedEq]
      refine ⟨fun notSyncing => (notSyncing syncing).elim, fun _ => ?_,
        fun _ => ?_, fun _ => keeps.handedLe syncing⟩
      · rw [inSync_iff, ← List.getLast?_map]
        exact ⟨pending.drop, fun offset member =>
          handedOver offset (mem_append_right _ member)⟩
      · obtain ⟨count, ahead⟩ := keeps.ahead syncing
        exact ⟨count, ahead.reader_eq, ahead.sent_mem, ahead.ascending⟩
  · rw [SlaveNode.update, if_pos syncing]
    exact keeps

end Keeps
namespace Master

variable {syncWindowSize : Int} {master next : Master}

/-- The node of a master is kept. -/
def Sound (master : Master) : Prop := ∀ node ∈ master.node, Keeps master.log master.handed node

/-- `ReadBinlogFileToWq` on a node that is not syncing does nothing; on a
syncing one it is the loop from the node's reader. -/
theorem readBinlogFileToWq_cases {node : SlaveNode} {log : BinlogRecords}
    {handed : List LogOffset} (keeps : Keeps log handed node)
    (syncWindowSize : Int) (failure : Option Nat) :
    node.binlogReader = none ∧ node.readBinlogFileToWq syncWindowSize log failure =
          ([], node, true) ∨
      node.slaveState = .binlogSync ∧ ∃ count, Ahead log node count ∧
          node.readBinlogFileToWq syncWindowSize log failure = SlaveNode.readLoop failure
              (node.syncWin.remaining syncWindowSize).toNat 0 count
              (log.records.drop count) node := by
  by_cases syncing : node.slaveState = .binlogSync
  · obtain ⟨count, ahead⟩ := keeps.ahead syncing
    refine .inr ⟨syncing, count, ahead, ?_⟩
    rw [SlaveNode.readBinlogFileToWq, ahead.reader_eq]
  · refine .inl ⟨(keeps.idle syncing).1, ?_⟩
    rw [SlaveNode.readBinlogFileToWq, (keeps.idle syncing).1]

/-- A call that has read nothing or has not failed hands over what it read. -/
theorem Sound.read (sound : master.Sound) {failure : Option Nat}
    (safe : master.OperationSafe syncWindowSize (.readBinlogFileToWq failure))
    (stepped : master.step syncWindowSize (.readBinlogFileToWq failure) = some next) :
    next.Sound := by
  simp only [Master.step] at stepped
  cases present : master.node with
  | none =>
    rw [present] at stepped
    cases stepped
    exact sound
  | some node =>
    simp only [present] at stepped
    cases stepped
    intro last isLast
    cases isLast
    have keeps := sound node present
    obtain ⟨-, unread⟩ | ⟨syncing, count, ahead, loopEq⟩ :=
      readBinlogFileToWq_cases keeps syncWindowSize failure
    · simpa [unread] using keeps
    · have readOn := SlaveNode.readLoop_spec failure
        (node.syncWin.remaining syncWindowSize).toNat 0 ahead rfl
      have kept := keeps.read syncing readOn
      have fails := fun read => SlaveNode.readLoop_fails_iff failure read
        (node.syncWin.remaining syncWindowSize).toNat 0 count
        (master.log.records.drop count) node
      rw [loopEq]
      generalize SlaveNode.readLoop failure _ 0 count _ node = result at kept fails ⊢
      obtain ⟨tasks, last, ok⟩ := result
      cases ok with
      | true => exact kept
      | false =>
        -- The call failed, so by assumption it has read nothing.
        cases tasks with
        | nil => simpa using kept
        | cons task tasks =>
          have failed := (fails (tasks.length + 1)).mp ⟨rfl, rfl⟩
          exact (safe node present count ahead.reader_eq tasks.length failed).elim

theorem Sound.step (sound : master.Sound) {operation : NodeOperation}
    (safe : master.OperationSafe syncWindowSize operation)
    (stepped : master.step syncWindowSize operation = some next) :
    next.Sound := by
  cases operation with
  | put record =>
    obtain ⟨grown, added, rfl⟩ := Option.map_eq_some_iff.mp stepped
    intro node present
    exact (sound node present).put added
  | addSlaveNode sessionId =>
    cases stepped
    rintro node present
    cases before : master.node with
    | none =>
      simp only [before, Option.mem_some_iff] at present
      subst present
      exact Keeps.create master.log master.handed sessionId
    | some old =>
      simp only [before, Option.mem_some_iff] at present
      subst present
      exact (sound old before).setSessionId sessionId
  | activateSlaveBinlogSync offset =>
    simp only [Master.step] at stepped
    cases before : master.node with
    | none =>
      rw [before] at stepped
      cases stepped
      exact sound
    | some old =>
      simp only [before] at stepped
      obtain ⟨count, found, rfl⟩ := Option.map_eq_some_iff.mp stepped
      rintro node present
      cases present
      exact Keeps.activate (safe (by simp [found]) old before) found
  | readBinlogFileToWq failure => exact sound.read safe stepped
  | update start stop =>
    cases stepped
    intro node present
    obtain ⟨old, before, rfl⟩ := Option.map_eq_some_iff.mp present
    exact (sound old before).update start stop

theorem Sound.windowHolds (sound : master.Sound) : master.WindowHolds :=
  fun node present syncing => (sound node present).inSync syncing

/-- Items read by a call that fails are in the window and were never handed
over. -/
theorem Sound.not_windowHolds_read (sound : master.Sound) {failure : Option Nat}
    (breaks : ¬master.OperationSafe syncWindowSize (.readBinlogFileToWq failure)) :
    ∃ next, master.step syncWindowSize (.readBinlogFileToWq failure) = some next ∧
        ¬next.WindowHolds := by
  simp only [OperationSafe, not_forall, not_not] at breaks
  obtain ⟨node, present, count, reader, read, fails⟩ := breaks
  have keeps := sound node present
  obtain ⟨unset, -⟩ | ⟨syncing, other, ahead, loopEq⟩ :=
    readBinlogFileToWq_cases keeps syncWindowSize failure
  · cases reader.symm.trans unset
  · cases reader.symm.trans ahead.reader_eq
    obtain ⟨failed, length⟩ := (SlaveNode.readLoop_fails_iff failure
      (read + 1) _ 0 count _ node).mpr fails
    have readOn := SlaveNode.readLoop_spec failure
      (node.syncWin.remaining syncWindowSize).toNat 0 ahead rfl
    rw [← loopEq] at failed length readOn
    have stepped :
        master.step syncWindowSize (.readBinlogFileToWq failure) = some
          { master with
            node := some (node.readBinlogFileToWq syncWindowSize master.log failure).2.1
            handed := master.handed } := by
      simp only [Master.step, Option.mem_def.mp present, failed, Bool.false_eq_true, if_false]
    refine ⟨_, stepped, fun holds => ?_⟩
    obtain ⟨task, member⟩ := exists_mem_of_length_pos
      (Nat.lt_of_lt_of_eq (Nat.succ_pos read) length.symm)
    have inSync := holds _ rfl (readOn.slaveState_eq.trans syncing)
    have handed := inSync.handedOver task.offset (by
      rw [readOn.win_eq]
      exact mem_append_right _ (mem_map_of_mem member))
    exact keeps.handedLe syncing task.offset handed
      (rel_of_pairwise_cons readOn.ascending (mem_map_of_mem member))

/-- An operation that is not safe is noticed at once. -/
theorem Sound.not_windowHolds (sound : master.Sound) {operation : NodeOperation}
    (breaks : ¬master.OperationSafe syncWindowSize operation) :
    ∃ next, master.step syncWindowSize operation = some next ∧ ¬next.WindowHolds := by
  cases operation with
  | put _ | addSlaveNode _ | update _ _ => exact (breaks trivial).elim
  | readBinlogFileToWq failure => exact sound.not_windowHolds_read breaks
  | activateSlaveBinlogSync offset =>
    simp only [OperationSafe, not_forall] at breaks
    obtain ⟨enabled, node, present, nonempty⟩ := breaks
    obtain ⟨count, found⟩ := Option.isSome_iff_exists.mp enabled
    refine ⟨{ master with node := some (node.activate offset count), handed := [] },
      by simp only [Master.step, Option.mem_def.mp present, found,
        Option.map_some], fun holds => ?_⟩
    -- Everything sent counts as acknowledged, but the window has items.
    have inSync := holds (node.activate offset count) rfl rfl
    exact nonempty (inSync.empty_iff.mpr (LogOffset.same_iff.mpr rfl))

/-- Along every sequence of operations, the window is as it should be exactly
if every operation is safe. -/
theorem windowHolds_iff_operationsSafe (syncWindowSize : Int)
    (log : BinlogRecords) (operations : List NodeOperation) :
    RunSatisfies (step syncWindowSize) WindowHolds (initial log) operations ↔
      RunAdmissible (step syncWindowSize) (OperationSafe syncWindowSize)
        (initial log) operations :=
  have initially : Sound (initial log) := fun _ present => nomatch present
  runSatisfies_iff_runSafe Sound.windowHolds (fun sound => sound.step)
    (fun sound => sound.not_windowHolds) initially

/-- A binlog of one item of two bytes. -/
def oneItem : BinlogRecords where
  start := { filenum := 0, offset := 0 }
  records := [{ item := [1, 0], position := { filenum := 0, offset := 10 } }]
  ascending := by decide

/-- A slave that connects again before it has acknowledged an item: its window
still holds the item, though nothing has been sent since the activation. -/
theorem not_windowHolds_activated_again :
    ¬RunSatisfies (step 9000) WindowHolds (initial oneItem)
      [.addSlaveNode 1, .activateSlaveBinlogSync .zero,
        .readBinlogFileToWq none, .activateSlaveBinlogSync .zero] := by
  intro satisfied
  have added := satisfied.2 _ rfl
  have activated := added.2 _ rfl
  have read := activated.2 _ rfl
  have again := read.2 _ rfl
  have inSync := again _ rfl rfl
  exact absurd (inSync.empty_iff.mpr rfl) (cons_ne_nil _ _)

end Master
end Pika.Sync
