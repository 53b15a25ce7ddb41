import Mathlib.Data.List.Infix
import Mathlib.Data.List.Nodup
import Pika.Replication.Shipping

/-!
# The lane of one table

What the shipping of one table comes down to: the items read for it that wait
on the master or at the slave, those that were dropped, and what the slave has
accepted since its last `first_send`.  The invariant says that the items read
for that request wait in the order of the binlog, behind what was accepted, and
that each place between was dropped.
-/

namespace Pika.Replication

open Binlog (Bytes Record)
open Partition (PartitionInfo)
open Sync (BinlogRecords)

/-! ## Reading -/

/-- What reading gives: the records behind the reader, which moves over them,
and after an error perhaps over one more. -/
structure ReadOut (records : List Record) (count : Nat)
    (result : List Sync.WriteTask × Sync.SlaveNode × Bool) : Prop where
  item : ∀ (index : Nat) (task : Sync.WriteTask), result.1[index]? = some task →
    records[index]?.map Record.item = some task.binlog ∧ task.binlog ≠ []
  reader : ∃ behind, result.2.1.binlogReader = some behind ∧ count + result.1.length ≤ behind ∧
    (result.2.2 = true → behind = count + result.1.length)

theorem ReadOut.nothing {node : Sync.SlaveNode} (reader : node.binlogReader = some count)
    (records : List Record) (ok : Bool) : ReadOut records count ([], node, ok) where
  item _ _ found := nomatch found
  reader := ⟨count, reader, le_rfl, fun _ => rfl⟩

/-- The loop of `ReadBinlogFileToWq` reads on from the reader. -/
theorem readOut_readLoop {node : Sync.SlaveNode} (failure : Option Nat) (left iteration : Nat)
    (records : List Record) (reader : node.binlogReader = some count) :
    ReadOut records count (node.readLoop failure left iteration count records) := by
  induction left generalizing iteration count records node with
  | zero => exact .nothing reader records true
  | succ left ih =>
    unfold Sync.SlaveNode.readLoop
    split_ifs
    · exact .nothing reader records true
    · exact .nothing reader records false
    · cases records with
      | nil => exact .nothing reader [] true
      | cons record records =>
        dsimp only
        split_ifs with decodes
        · obtain ⟨item, behind, moved, least, exactly⟩ :=
            @ih (count + 1) (node.advance count record) (iteration + 1) records rfl
          refine ⟨?_, behind, moved, ?_, ?_⟩
          · intro index task found
            cases index with
            | zero =>
              cases found
              exact ⟨rfl, ne_nil_of_decode decodes⟩
            | succ index => exact item index task found
          · rw [List.length_cons]
            omega
          · intro ok
            rw [List.length_cons, exactly ok]
            omega
        · exact ⟨nofun, count + 1, rfl, Nat.le_succ _, nofun⟩

/-! ## The invariant -/

/-- A task carries an item that was read for the last `first_send`. -/
def Acceptance.Current (slave : Acceptance) (task : WriteTask) : Bool :=
  task.ticket = slave.ticket ∧ task.binlog ≠ []

/-- The place of the item that the slave has to accept next. -/
def Acceptance.next (slave : Acceptance) : Nat := slave.base + slave.accepted.length

/-- The shipping of one table. -/
structure Lane where
  log : BinlogRecords
  node : Option ShippingNode
  /-- The tasks that wait at the slave and on the master, the next one first. -/
  waiting : List WriteTask
  requests : List FirstSend
  slave : Acceptance
  lost : List Loss

namespace Lane

/-- The tasks that wait and were read for the last `first_send`. -/
def current (lane : Lane) : List WriteTask := lane.waiting.filter lane.slave.Current

/-- The item at a place waits or was dropped. -/
def Covered (lane : Lane) (place : Nat) : Prop :=
  (∃ task ∈ lane.current, task.place = place) ∨
    { ticket := lane.slave.ticket, place := place } ∈ lane.lost

/-- Everything between the items accepted and a place waits or was dropped. -/
def CoveredTo (lane : Lane) (stop : Nat) : Prop :=
  lane.slave.next ≤ stop ∧ ∀ place, lane.slave.next ≤ place → place < stop → lane.Covered place

/-- Nothing has been read for the last `first_send`. -/
structure Untouched (lane : Lane) : Prop where
  accepted : lane.slave.accepted = []
  current : lane.current = []
  node : ∀ node ∈ lane.node, node.ticket = lane.slave.ticket → node.binlogReader = none

/-- Requests are numbered, and what was read for the last one is in order. -/
structure Sound (lane : Lane) : Prop where
  accepted : lane.slave.accepted <+: (lane.log.records.drop lane.slave.base).map Record.item
  task_le : ∀ task ∈ lane.waiting, task.ticket ≤ lane.slave.ticket
  node_le : ∀ node ∈ lane.node, node.ticket ≤ lane.slave.ticket
  request_le : ∀ request ∈ lane.requests, request.ticket ≤ lane.slave.ticket
  distinct : (lane.requests.map FirstSend.ticket).Nodup
  untouched : ∀ request ∈ lane.requests, request.ticket = lane.slave.ticket →
    lane.log.cursor request.offset.bOffset = some lane.slave.base ∧ lane.Untouched
  sorted : lane.current.Pairwise fun first second => first.place < second.place
  task : ∀ task ∈ lane.current, lane.log.records[task.place]?.map Record.item = some task.binlog ∧
    lane.CoveredTo task.place
  reader : ∀ node ∈ lane.node, node.ticket = lane.slave.ticket → ∀ count ∈ node.binlogReader,
    (∀ task ∈ lane.current, task.place < count) ∧ lane.CoveredTo count

variable {lane : Lane}

/-! ## Binlog and node -/

theorem eq_of_put {log grown : BinlogRecords} (put : log.put record = some grown) :
    grown.start = log.start ∧ grown.records = log.records ++ [record] := by
  unfold BinlogRecords.put at put
  split_ifs at put
  cases put
  exact ⟨rfl, rfl⟩

/-- A position is found where it was before. -/
theorem cursor_of_put {log grown : BinlogRecords} (put : log.put record = some grown)
    (found : log.cursor position = some count) : grown.cursor position = some count := by
  obtain ⟨start, records⟩ := eq_of_put put
  unfold BinlogRecords.cursor at found ⊢
  rw [start, records, List.map_append, ← List.cons_append]
  obtain ⟨bound, here, first⟩ := List.idxOf?_eq_some_iff.mp found
  have inside : ∀ index ≤ count, index < (log.start :: log.records.map Record.position).length :=
    fun index le => lt_of_le_of_lt le bound
  refine List.idxOf?_eq_some_iff.mpr ⟨?_, ?_, ?_⟩
  · rw [List.length_append]
    exact Nat.lt_add_right _ bound
  · rw [List.getElem_append_left bound]
    exact here
  · intro index before
    rw [List.getElem_append_left (inside index before.le)]
    exact first index before

/-- A place stays covered where tasks are only added or dropped. -/
theorem CoveredTo.mono {next : Lane} (covered : lane.CoveredTo stop)
    (slave : next.slave = lane.slave)
    (kept : ∀ task ∈ lane.current, task ∈ next.current ∨ task.loss ∈ next.lost)
    (grows : lane.lost ⊆ next.lost) : next.CoveredTo stop := by
  unfold CoveredTo Covered
  rw [slave]
  refine ⟨covered.1, fun place lower upper => ?_⟩
  rcases covered.2 place lower upper with ⟨task, member, rfl⟩ | dropped
  · rcases kept task member with waits | gone
    · exact .inl ⟨task, waits, rfl⟩
    · have ticket := (of_decide_eq_true (List.mem_filter.mp member).2).1
      rw [WriteTask.loss, ticket] at gone
      exact .inr gone
  · exact .inr (grows dropped)

/-- Steps that neither read nor accept an item: records are added, tasks are
dropped and remembered, keepalives come and go, a node reads no more than before,
and no request comes. -/
structure Keeps (lane next : Lane) : Prop where
  slave : next.slave = lane.slave
  grows : lane.log.records <+: next.log.records
  cursor : ∀ {position count}, lane.log.cursor position = some count →
    next.log.cursor position = some count
  task_le : ∀ task ∈ next.waiting, task ∈ lane.waiting ∨ task.ticket = 0
  fewer : next.current.Sublist lane.current
  kept : ∀ task ∈ lane.current, task ∈ next.current ∨ task.loss ∈ next.lost
  lost : lane.lost ⊆ next.lost
  node : ∀ new ∈ next.node, new.ticket = 0 ∧ new.binlogReader = none ∨
    ∃ old ∈ lane.node, old.ticket = new.ticket ∧ old.binlogReader = new.binlogReader
  request : ∀ request ∈ next.requests, ∃ old ∈ lane.requests,
      old.ticket = request.ticket ∧ old.offset = request.offset

theorem Keeps.refl (lane : Lane) : lane.Keeps lane where
  slave := rfl
  grows := List.prefix_rfl
  cursor found := found
  task_le _ waits := .inl waits
  fewer := .refl _
  kept _ waits := .inl waits
  lost := List.Subset.refl _
  node new same := .inr ⟨new, same, rfl, rfl⟩
  request request waits := ⟨request, waits, rfl, rfl⟩

section

variable (sound : lane.Sound)
include sound

theorem Sound.keep {next : Lane} (keeps : lane.Keeps next)
    (distinct : (next.requests.map FirstSend.ticket).Nodup) : next.Sound := by
  obtain ⟨log, node, waiting, requests, slave, lost⟩ := next
  obtain rfl : slave = lane.slave := keeps.slave
  have covered : ∀ {stop}, lane.CoveredTo stop → CoveredTo
      { log, node, waiting, requests, slave := lane.slave, lost } stop :=
    fun covered => covered.mono rfl keeps.kept keeps.lost
  constructor
  case accepted => exact sound.accepted.trans ((keeps.grows.drop _).map Record.item)
  case task_le =>
    intro task member
    rcases keeps.task_le task member with waits | zero
    · exact sound.task_le task waits
    · exact zero ▸ Nat.zero_le _
  case node_le =>
    intro new present
    rcases keeps.node new present with ⟨zero, -⟩ | ⟨old, known, ticket, -⟩
    · exact zero ▸ Nat.zero_le _
    · exact ticket ▸ sound.node_le old known
  case request_le =>
    intro request member
    obtain ⟨old, present, ticket, -⟩ := keeps.request request member
    exact ticket ▸ sound.request_le old present
  case distinct => exact distinct
  case untouched =>
    intro request member same
    obtain ⟨old, present, ticket, offset⟩ := keeps.request request member
    obtain ⟨found, accepted, nothing, idle⟩ := sound.untouched old present (ticket.trans same)
    refine ⟨keeps.cursor (offset ▸ found), accepted, ?_, ?_⟩
    · exact List.sublist_nil.mp (nothing ▸ keeps.fewer)
    · intro new known current
      rcases keeps.node new known with ⟨-, none⟩ | ⟨old, before, ticket, reader⟩
      · exact none
      · rw [← reader]
        exact idle old before (ticket.trans current)
  case sorted => exact sound.sorted.sublist keeps.fewer
  case task =>
    intro task member
    obtain ⟨item, before⟩ := sound.task task (keeps.fewer.subset member)
    refine ⟨?_, covered before⟩
    obtain ⟨record, here, -⟩ := Option.map_eq_some_iff.mp item
    obtain ⟨bound, -⟩ := List.getElem?_eq_some_iff.mp here
    obtain ⟨more, split⟩ := keeps.grows
    rw [← split, List.getElem?_append_left bound]
    exact item
  case reader =>
    intro new present current count reads
    rcases keeps.node new present with ⟨-, none⟩ | ⟨old, before, ticket, reader⟩
    · cases none.symm.trans reads
    · obtain ⟨below, upTo⟩ := sound.reader old before (ticket.trans current) count
        (reader.trans reads)
      exact ⟨fun task member => below task (keeps.fewer.subset member), covered upTo⟩

/-- A record is added to the binlog. -/
theorem Sound.put {grown : BinlogRecords}
    (put : lane.log.put record = some grown) : { lane with log := grown }.Sound := by
  refine sound.keep { Keeps.refl lane with grows := ?_, cursor := cursor_of_put put } sound.distinct
  rw [(eq_of_put put).2]
  exact List.prefix_append _ _

/-- The node reads no more than before. -/
theorem Sound.setNode {node : Option ShippingNode} (reads : ∀ new ∈ node,
      new.ticket = 0 ∧ new.binlogReader = none ∨ ∃ old ∈ lane.node,
        old.ticket = new.ticket ∧ old.binlogReader = new.binlogReader) :
    { lane with node := node }.Sound :=
  sound.keep { Keeps.refl lane with node := reads } sound.distinct

/-- Tasks are dropped and remembered. -/
theorem Sound.lose {waiting : List WriteTask} {lost : List Loss}
    (fewer : waiting.Sublist lane.waiting) (grows : lane.lost ⊆ lost)
    (kept : ∀ task ∈ lane.waiting, task.loss ∈ lost ∨ task ∈ waiting) :
    { lane with waiting := waiting, lost := lost }.Sound := by
  refine sound.keep
    { Keeps.refl lane with
      task_le := fun task waits => .inl (fewer.subset waits)
      fewer := fewer.filter _
      lost := grows
      kept := ?_ } sound.distinct
  intro task member
  obtain ⟨waits, current⟩ := List.mem_filter.mp member
  rcases kept task waits with gone | stays
  · exact .inr gone
  · exact .inl (List.mem_filter.mpr ⟨stays, current⟩)

/-- Keepalives come and go. -/
theorem Sound.idle {waiting : List WriteTask}
    (same : waiting.filter lane.slave.Current = lane.current)
    (task_le : ∀ task ∈ waiting, task ∈ lane.waiting ∨ task.ticket = 0) :
    { lane with waiting := waiting }.Sound :=
  sound.keep
    { Keeps.refl lane with
      task_le
      fewer := same ▸ .refl _
      kept := fun task waits => .inl ((congrArg (task ∈ ·) same).mpr waits) } sound.distinct

/-! ## Requests -/

/-- A request is handled. -/
theorem Sound.eraseRequest (request : FirstSend) :
    { lane with requests := lane.requests.erase request }.Sound := by
  refine sound.keep { Keeps.refl lane with request := ?_ } ?_
  · exact fun other inside => ⟨other, List.mem_of_mem_erase inside, rfl, rfl⟩
  · exact sound.distinct.sublist (List.erase_sublist.map FirstSend.ticket)

/-- The node begins to read for a request, which is gone then. -/
theorem Sound.activate {request : FirstSend}
    (member : request ∈ lane.requests) {node : ShippingNode}
    (cursor : lane.log.cursor request.offset.bOffset = some count)
    (ticket : node.ticket = request.ticket) (reader : node.binlogReader = some count) :
    { lane with requests := lane.requests.erase request, node := some node }.Sound := by
  have others : ∀ other ∈ lane.requests.erase request, other.ticket ≠ request.ticket := by
    intro other inside same
    have equal := List.inj_on_of_nodup_map sound.distinct (List.mem_of_mem_erase inside) member same
    rw [equal] at inside
    exact sound.distinct.of_map.not_mem_erase inside
  have kept : ∀ other ∈ lane.requests.erase request, other ∈ lane.requests := fun _ inside =>
    List.mem_of_mem_erase inside
  exact
    { accepted := sound.accepted
      task_le := sound.task_le
      node_le := by
        rintro _ ⟨⟩
        rw [ticket]
        exact sound.request_le request member
      request_le := fun other inside => sound.request_le other (kept other inside)
      distinct := sound.distinct.sublist (List.erase_sublist.map FirstSend.ticket)
      untouched := by
        intro other inside same
        obtain ⟨found, accepted, nothing, -⟩ := sound.untouched other (kept other inside) same
        refine ⟨found, accepted, nothing, ?_⟩
        rintro _ ⟨⟩ current
        exact absurd (same.trans (current.symm.trans ticket)) (others other inside)
      sorted := sound.sorted
      task := sound.task
      reader := by
        rintro _ ⟨⟩ current other reads
        -- What is read for the last request begins at its offset.
        obtain ⟨found, accepted, nothing, -⟩ :=
          sound.untouched request member (ticket.symm.trans current)
        cases reader.symm.trans reads
        cases cursor.symm.trans found
        have start : lane.slave.next = lane.slave.base := by
          rw [Acceptance.next, accepted, List.length_nil, Nat.add_zero]
        refine ⟨?_, ?_, ?_⟩
        · intro task (inside : task ∈ lane.current)
          rw [nothing] at inside
          cases inside
        · exact start.le
        · intro place lower upper
          exact absurd (start ▸ lower) (Nat.not_le.mpr upper) }

/-- The slave sends a `first_send`, for which nothing has been read. -/
theorem Sound.firstSend {request : FirstSend}
    (cursor : lane.log.cursor request.offset.bOffset = some base)
    (ticket : request.ticket = lane.slave.ticket + 1) :
    { lane with
      requests := request :: lane.requests
      slave := { ticket := lane.slave.ticket + 1, base := base, accepted := [] } }.Sound := by
  have nothing : lane.waiting.filter (Acceptance.Current
      { ticket := lane.slave.ticket + 1, base := base, accepted := [] }) = [] := by
    refine List.filter_eq_nil_iff.mpr fun task member read => ?_
    have same : task.ticket = lane.slave.ticket + 1 := (of_decide_eq_true read).1
    have le := sound.task_le task member
    omega
  have idle : ∀ node ∈ lane.node, node.ticket ≠ lane.slave.ticket + 1 := by
    intro node present same
    have le := sound.node_le node present
    omega
  exact
    { accepted := List.nil_prefix
      task_le := fun task member => Nat.le_succ_of_le (sound.task_le task member)
      node_le := fun node present => Nat.le_succ_of_le (sound.node_le node present)
      request_le := List.forall_mem_cons.mpr ⟨ticket.le, fun other member =>
        Nat.le_succ_of_le (sound.request_le other member)⟩
      distinct := by
        rw [List.map_cons, List.nodup_cons]
        refine ⟨?_, sound.distinct⟩
        intro member
        obtain ⟨other, inside, same⟩ := List.mem_map.mp member
        have le := sound.request_le other inside
        omega
      untouched := by
        refine List.forall_mem_cons.mpr ⟨?_, ?_⟩
        · intro _
          exact ⟨cursor, rfl, nothing, fun node present same => absurd same (idle node present)⟩
        · intro other inside (same : other.ticket = lane.slave.ticket + 1)
          have le := sound.request_le other inside
          omega
      sorted := by
        rw [current, nothing]
        exact List.Pairwise.nil
      task := by
        rw [current, nothing]
        exact nofun
      reader := fun node present same => absurd same (idle node present) }

/-! ## Tasks -/

/-- Reading queues the items behind the reader, or drops them. -/
theorem Sound.read {node last : ShippingNode} {tasks : List WriteTask}
    {losses : List Loss} (present : lane.node = some node) (ticket : last.ticket = node.ticket)
    (reader : node.binlogReader = some count) (moved : last.binlogReader = some stop)
    (forwards : count ≤ stop) (own : ∀ task ∈ tasks, task.ticket = node.ticket)
    (ordered : tasks.Pairwise fun first second => first.place < second.place)
    (item : ∀ task ∈ tasks, lane.log.records[task.place]?.map Record.item = some task.binlog)
    (inside : ∀ task ∈ tasks, count ≤ task.place ∧ task.place < stop)
    (covers : ∀ place, count ≤ place → place < stop →
      (∃ task ∈ tasks, task.binlog ≠ [] ∧ task.place = place) ∨
        { ticket := node.ticket, place := place } ∈ losses) :
    { lane with
      node := some last
      waiting := lane.waiting ++ tasks
      lost := lane.lost ++ losses }.Sound := by
  have node_le := sound.node_le node present
  have behind := sound.reader node present
  have appended : (lane.waiting ++ tasks).filter lane.slave.Current =
      lane.current ++ tasks.filter lane.slave.Current := List.filter_append _ _
  have kept : ∀ {stop}, lane.CoveredTo stop → Lane.CoveredTo
      { lane with waiting := lane.waiting ++ tasks, lost := lane.lost ++ losses } stop :=
    fun covered => covered.mono rfl
      (fun _ member => .inl (((List.sublist_append_left _ _).filter _).subset member))
      (List.subset_append_left _ _)
  -- If they are read for the last request, the places up to the reader stay covered.
  have covered : node.ticket = lane.slave.ticket → ∀ upTo ≤ stop, count ≤ upTo → Lane.CoveredTo
      { lane with waiting := lane.waiting ++ tasks, lost := lane.lost ++ losses } upTo := by
    intro current upTo below above
    obtain ⟨least, old⟩ := kept (behind current count reader).2
    refine ⟨least.trans above, fun place lower upper => ?_⟩
    by_cases before : place < count
    · exact old place lower before
    · rcases covers place (Nat.not_lt.mp before) (lt_of_lt_of_le upper below) with
        ⟨task, member, filled, same⟩ | dropped
      · refine .inl ⟨task, List.mem_filter.mpr ⟨List.mem_append_right _ member, ?_⟩, same⟩
        exact decide_eq_true ⟨(own task member).trans current, filled⟩
      · rw [current] at dropped
        exact .inr (List.mem_append_right _ dropped)
  have current_of : ∀ task ∈ tasks.filter lane.slave.Current, task ∈ tasks ∧
      node.ticket = lane.slave.ticket := by
    intro task member
    obtain ⟨new, current⟩ := List.mem_filter.mp member
    rw [← own task new]
    exact ⟨new, (of_decide_eq_true current).1⟩
  exact
    { accepted := sound.accepted
      task_le := by
        refine List.forall_mem_append.mpr ⟨sound.task_le, ?_⟩
        intro task member
        rw [own task member]
        exact node_le
      node_le := by
        rintro _ ⟨⟩
        rw [ticket]
        exact node_le
      request_le := sound.request_le
      distinct := sound.distinct
      untouched := by
        intro request member same
        obtain ⟨found, accepted, nothing, idle⟩ := sound.untouched request member same
        have other : node.ticket ≠ lane.slave.ticket := by
          intro current
          cases reader.symm.trans (idle node present current)
        refine ⟨found, accepted, ?_, ?_⟩
        · rw [current, appended, nothing, List.nil_append]
          exact List.eq_nil_iff_forall_not_mem.mpr fun task member =>
            other (current_of task member).2
        · rintro _ ⟨⟩ current
          exact absurd (ticket.symm.trans current) other
      sorted := by
        rw [current, appended, List.pairwise_append]
        refine ⟨sound.sorted, ordered.filter _, ?_⟩
        intro first old second new
        obtain ⟨read, same⟩ := current_of second new
        exact lt_of_lt_of_le ((behind same count reader).1 first old) (inside second read).1
      task := by
        rw [current, appended]
        refine List.forall_mem_append.mpr ⟨?_, ?_⟩
        · intro task member
          obtain ⟨found, old⟩ := sound.task task member
          exact ⟨found, kept old⟩
        · intro task member
          obtain ⟨read, same⟩ := current_of task member
          obtain ⟨lower, upper⟩ := inside task read
          exact ⟨item task read, covered same task.place upper.le lower⟩
      reader := by
        rintro _ ⟨⟩ current other reads
        cases moved.symm.trans reads
        have same : node.ticket = lane.slave.ticket := ticket.symm.trans current
        rw [Lane.current, appended]
        refine ⟨List.forall_mem_append.mpr ⟨?_, ?_⟩, covered same stop le_rfl forwards⟩
        · intro task member
          exact lt_of_lt_of_le ((behind same count reader).1 task member) forwards
        · intro task member
          exact (inside task (current_of task member).1).2 }

end

/-- What a task that was read is made of. -/
theorem mem_place {tasks : List Sync.WriteTask} :
    task ∈ ShippingTable.place info ticket first tasks ↔ ∃ (index : Nat) (read : Sync.WriteTask),
      tasks[index]? = some read ∧ task =
        { toWriteTask := read, info := info, ticket := ticket, place := first + index } := by
  constructor
  · intro member
    obtain ⟨index, bound, same⟩ := List.mem_mapIdx.mp member
    exact ⟨index, tasks[index], List.getElem?_eq_getElem bound, same.symm⟩
  · rintro ⟨index, read, found, rfl⟩
    obtain ⟨bound, rfl⟩ := List.getElem?_eq_some_iff.mp found
    exact List.mem_mapIdx.mpr ⟨index, bound, rfl⟩

theorem place_sorted (info : PartitionInfo) (ticket first : Nat) (tasks : List Sync.WriteTask) :
    (ShippingTable.place info ticket first tasks).Pairwise fun first second =>
      first.place < second.place := by
  refine List.pairwise_iff_getElem.mpr fun low high _ _ below => ?_
  simp only [ShippingTable.place, List.getElem_mapIdx]
  exact Nat.add_lt_add_left below first

/-- `ReadBinlogFileToWq` queues the items it has read. -/
theorem Sound.readOut (sound : lane.Sound) {node : ShippingNode} {last : Sync.SlaveNode}
    {tasks : List Sync.WriteTask} (present : lane.node = some node)
    (reader : node.binlogReader = some count)
    (out : ReadOut (lane.log.records.drop count) count (tasks, last, true)) :
    { lane with
      node := some { node with toSlaveNode := last }
      waiting := lane.waiting ++ ShippingTable.place info node.ticket count tasks }.Sound := by
  obtain ⟨item, _, moved, -, exactly⟩ := out
  cases exactly rfl
  rw [← List.append_nil lane.lost]
  refine sound.read present rfl reader moved (Nat.le_add_right _ _) ?_ (place_sorted _ _ _ _)
    ?_ ?_ ?_
  · intro task member
    obtain ⟨_, _, -, rfl⟩ := mem_place.mp member
    rfl
  · intro task member
    obtain ⟨index, read, found, rfl⟩ := mem_place.mp member
    rw [← List.getElem?_drop]
    exact (item index read found).1
  · intro task member
    obtain ⟨index, read, found, rfl⟩ := mem_place.mp member
    have bound := (List.getElem?_eq_some_iff.mp found).1
    exact ⟨Nat.le_add_right _ _, Nat.add_lt_add_left bound count⟩
  · intro place lower upper
    have bound : place - count < tasks.length := by
      dsimp only at upper
      omega
    have found := List.getElem?_eq_getElem bound
    refine .inl ⟨_, mem_place.mpr ⟨place - count, _, found, rfl⟩, (item _ _ found).2, ?_⟩
    exact Nat.add_sub_of_le lower

/-- After an error nothing is queued, and the reader may have moved. -/
theorem Sound.readError (sound : lane.Sound) {node : ShippingNode} {last : Sync.SlaveNode}
    {tasks : List Sync.WriteTask} (present : lane.node = some node)
    (reader : node.binlogReader = some count)
    (out : ReadOut (lane.log.records.drop count) count (tasks, last, false)) :
    { lane with
      node := some { node with toSlaveNode := last }
      lost := lane.lost ++ (List.range' count (last.binlogReader.getD 0 - count)).map
        (Loss.mk node.ticket) }.Sound := by
  obtain ⟨-, stop, moved, least, -⟩ := out
  have forwards : count ≤ stop := (Nat.le_add_right _ _).trans least
  rw [← List.append_nil lane.waiting, moved, Option.getD_some]
  refine sound.read present rfl reader moved forwards nofun List.Pairwise.nil nofun nofun ?_
  intro place lower upper
  refine .inr (List.mem_map_of_mem (List.mem_range'_1.mpr ⟨lower, ?_⟩))
  omega

/-- A prefix of the items behind a place grows by the item that follows it. -/
theorem prefix_snoc {records : List Record} {items : List Bytes} {item : Bytes}
    (before : items <+: (records.drop base).map Record.item)
    (next : records[base + items.length]?.map Record.item = some item) :
    items ++ [item] <+: (records.drop base).map Record.item := by
  obtain ⟨rest, split⟩ := before
  have head : rest.head? = some item := by
    rw [← next, ← List.getElem?_drop, ← List.getElem?_map, ← split,
      List.getElem?_append_right le_rfl, Nat.sub_self, List.head?_eq_getElem?]
  obtain ⟨rest, rfl⟩ := List.head?_eq_some_iff.mp head
  exact ⟨rest, by rw [← split, List.append_assoc, List.singleton_append]⟩

/-- The slave accepts the first task, which was read for its last `first_send`
and has no dropped item in front of it. -/
theorem Sound.accept (sound : lane.Sound) {task : WriteTask} {tasks : List WriteTask}
    (first : lane.waiting = task :: tasks) (filled : task.binlog ≠ [])
    (ticket : task.ticket = lane.slave.ticket)
    (unharmed : ∀ dropped ∈ lane.lost, dropped.ticket = task.ticket → task.place < dropped.place) :
    { lane with
      waiting := tasks
      slave := { lane.slave with accepted := lane.slave.accepted ++ [task.binlog] } }.Sound := by
  have read : lane.slave.Current task = true := decide_eq_true ⟨ticket, filled⟩
  have front : lane.current = task :: tasks.filter lane.slave.Current := by
    rw [current, first, List.filter_cons_of_pos read]
  have later : ∀ other ∈ tasks.filter lane.slave.Current, task.place < other.place := by
    have sorted := sound.sorted
    rw [front, List.pairwise_cons] at sorted
    exact sorted.1
  have here : task ∈ lane.current := by
    rw [front]
    exact List.mem_cons_self
  obtain ⟨item, least, covered⟩ := sound.task task here
  -- A place in front of the task would be that of a task in front of it or of a
  -- dropped one.
  have next : lane.slave.next = task.place := by
    by_contra other
    rcases covered lane.slave.next le_rfl (lt_of_le_of_ne least other) with
      ⟨earlier, member, place⟩ | dropped
    · rw [front] at member
      rcases List.mem_cons.mp member with rfl | behind
      · exact other place.symm
      · have above := later earlier behind
        omega
    · have above := unharmed _ dropped ticket.symm
      dsimp only at above
      omega
  have found : lane.log.records[lane.slave.base + lane.slave.accepted.length]?.map Record.item =
      some task.binlog := by
    rw [← item, ← next, Acceptance.next]
  have kept : ∀ {stop}, task.place < stop → lane.CoveredTo stop → Lane.CoveredTo
      { lane with
        waiting := tasks
        slave := { lane.slave with accepted := lane.slave.accepted ++ [task.binlog] } } stop := by
    rintro stop above ⟨-, old⟩
    have moved : Acceptance.next
        { lane.slave with accepted := lane.slave.accepted ++ [task.binlog] } = task.place + 1 := by
      rw [← next, Acceptance.next, Acceptance.next, List.length_append, List.length_singleton,
        Nat.add_assoc]
    refine ⟨moved.trans_le above, fun place lower upper => ?_⟩
    have behind : task.place < place := moved.symm.trans_le lower
    rcases old place (next.trans_le behind.le) upper with ⟨other, member, rfl⟩ | dropped
    · rw [front] at member
      rcases List.mem_cons.mp member with rfl | later
      · exact absurd behind (lt_irrefl _)
      · exact .inl ⟨other, later, rfl⟩
    · exact .inr dropped
  exact
    { accepted := prefix_snoc sound.accepted found
      task_le := fun other member =>
        sound.task_le other (first ▸ List.mem_cons_of_mem _ member)
      node_le := sound.node_le
      request_le := sound.request_le
      distinct := sound.distinct
      untouched := by
        intro request member same
        obtain ⟨-, -, nothing, -⟩ := sound.untouched request member same
        cases front.symm.trans nothing
      sorted := by
        have sorted := sound.sorted
        rw [front, List.pairwise_cons] at sorted
        exact sorted.2
      task := by
        intro other member
        obtain ⟨item, before⟩ := sound.task other (front ▸ List.mem_cons_of_mem _ member)
        exact ⟨item, kept (later other member) before⟩
      reader := by
        intro node present current count reads
        obtain ⟨below, before⟩ := sound.reader node present current count reads
        rw [front] at below
        exact ⟨fun other member => below other (List.mem_cons_of_mem _ member),
          kept (below task List.mem_cons_self) before⟩ }

end Lane

end Pika.Replication
