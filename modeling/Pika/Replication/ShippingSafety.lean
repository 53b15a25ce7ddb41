import Pika.Foundation.Transition
import Pika.Replication.Lane

/-!
# Shipping without gaps

Every step of the shipping machine is one of a lane for each table.  As long as
the slave accepts no item behind a dropped one, nor one that was read for an
earlier request, what it accepts continues its `first_send`.
-/

namespace Pika.Replication

open Foundation
open Binlog (Bytes Record)
open Function (update update_of_ne update_self)
open Partition (PartitionInfo)
open Sync (BinlogRecords LogOffset)

namespace ShippingTable

/-- The lane of a table, with the tasks that are queued for it. -/
def lane (queued : List WriteTask) (table : ShippingTable) : Lane where
  log := table.log
  node := table.node
  waiting := table.worker.tasks ++ table.inbox.flatten ++ queued
  requests := table.requests
  slave := table.slave.toAcceptance
  lost := table.lost

/-- The item was read for the slave's last `first_send`, and no item in front of
it was dropped. -/
def InTurn (table : ShippingTable) (task : WriteTask) : Prop :=
  task.ticket = table.slave.ticket ∧
    ∀ dropped ∈ table.lost, dropped.ticket = task.ticket → task.place < dropped.place

/-- An item that the worker comes to write is in turn. -/
def Clean (table : ShippingTable) : Prop :=
  table.worker.phase = .write → ∀ task ∈ table.worker.tasks.head?, task.binlog ≠ [] →
    table.InTurn task

/-- What the slave has accepted since its last `first_send` is a run of the
master's binlog that starts right behind the offset of the request. -/
def Contiguous (table : ShippingTable) : Prop :=
  table.slave.accepted <+: (table.log.records.drop table.slave.base).map Record.item

instance (table : ShippingTable) (task : WriteTask) : Decidable (table.InTurn task) :=
  inferInstanceAs (Decidable (_ ∧ ∀ _ ∈ _, _))

instance (table : ShippingTable) : Decidable table.Clean :=
  inferInstanceAs (Decidable (_ → ∀ _ ∈ _, _ → _))

instance (table : ShippingTable) : Decidable table.Contiguous :=
  inferInstanceAs (Decidable (_ <+: _))

variable {table next : ShippingTable} {queued : List WriteTask}

/-! ## The master's side -/

section

variable (sound : (table.lane queued).Sound)
include sound

theorem lane_answer (handler : Int → List SlaveCall) :
    ((table.answer handler).lane queued).Sound := by
  unfold answer
  split
  · exact sound
  · dsimp only
    split_ifs
    · exact sound
    · refine sound.setNode ?_
      rintro _ ⟨⟩
      exact .inl ⟨rfl, rfl⟩

theorem lane_removeNode :
    (lane queued { table with node := none }).Sound :=
  sound.setNode nofun

/-- An acknowledgement leaves the reader where it was. -/
theorem lane_updateSlave (start stop : LogOffset) :
    (lane queued { table with node := table.node.map (.update start stop) }).Sound := by
  refine sound.setNode ?_
  intro new present
  obtain ⟨node, known, rfl⟩ := Option.map_eq_some_iff.mp present
  refine .inr ⟨node, known, rfl, ?_⟩
  unfold ShippingNode.update Sync.SlaveNode.update
  dsimp only
  split_ifs <;> rfl

theorem lane_checkSessionId
    (checked : table.checkSessionId request = some next) : (next.lane queued).Sound := by
  obtain ⟨member, ⟨⟩⟩ := Option.ite_none_right_eq_some.mp checked
  unfold lane
  split_ifs
  · refine sound.keep { Lane.Keeps.refl (table.lane queued) with request := ?_ } ?_
    · refine List.forall_mem_cons.mpr ⟨⟨request, member, rfl, rfl⟩, ?_⟩
      exact fun other inside => ⟨other, List.mem_of_mem_erase inside, rfl, rfl⟩
    · exact ((List.perm_cons_erase member).map FirstSend.ticket).nodup_iff.mp sound.distinct
  · exact sound.eraseRequest request

theorem lane_activate
    (activated : table.activate request = some next) : (next.lane queued).Sound := by
  obtain ⟨⟨member, -⟩, activated⟩ := Option.ite_none_right_eq_some.mp activated
  dsimp only at activated
  split at activated
  · cases activated
    exact sound.eraseRequest request
  · obtain ⟨count, cursor, rfl⟩ := Option.map_eq_some_iff.mp activated
    exact sound.activate member cursor rfl rfl

/-- Reading at the node. -/
theorem lane_readBinlogFileToWq {node : ShippingNode} {failure : Option Nat}
    (present : table.node = some node)
    (reads : table.readBinlogFileToWq config info failure node = (tasks, next, ok)) :
    (next.lane (queued ++ tasks)).Sound ∧ ∀ task ∈ tasks, task.info = info := by
  unfold readBinlogFileToWq at reads
  unfold lane
  rw [← List.append_assoc]
  cases reader : node.binlogReader with
  | none =>
    have nothing : node.toSlaveNode.readBinlogFileToWq config.windowSize table.log failure =
        ([], node.toSlaveNode, true) := by
      rw [Sync.SlaveNode.readBinlogFileToWq, reader]
    rw [nothing] at reads
    cases reads
    refine ⟨?_, List.forall_mem_nil _⟩
    rw [place, List.mapIdx_nil, List.append_nil]
    exact sound.setNode fun new same => .inr ⟨new, present.trans same, rfl, rfl⟩
  | some count =>
    have out : ReadOut (table.log.records.drop count) count
        (node.toSlaveNode.readBinlogFileToWq config.windowSize table.log failure) := by
      rw [Sync.SlaveNode.readBinlogFileToWq, reader]
      exact readOut_readLoop failure _ 0 _ reader
    generalize node.toSlaveNode.readBinlogFileToWq config.windowSize table.log
      failure = result at out reads
    obtain ⟨read, last, ok⟩ := result
    rw [reader] at reads
    cases ok with
    | true =>
      cases reads
      refine ⟨sound.readOut present reader out, ?_⟩
      intro task member
      obtain ⟨_, _, -, rfl⟩ := Lane.mem_place.mp member
      rfl
    | false =>
      cases reads
      rw [List.append_nil]
      exact ⟨sound.readError present reader out, List.forall_mem_nil _⟩

/-! ## The slave's side -/

theorem lane_call (called : table.call offset calls = some next) : (next.lane queued).Sound := by
  unfold call at called
  split at called
  · cases called
  · rename_i call calls
    obtain ⟨-, made⟩ := Option.ite_none_right_eq_some.mp called
    cases call with
    | setMasterSessionId session =>
      cases made
      exact sound
    | setReplState state =>
      cases made
      exact sound
    | sendFirstSend =>
      obtain ⟨base, cursor, rfl⟩ := Option.map_eq_some_iff.mp made
      exact sound.firstSend cursor rfl

theorem lane_takeMessage (taken : table.takeMessage = some next) : (next.lane queued).Sound := by
  unfold takeMessage at taken
  split at taken
  · rename_i message messages idle waiting
    cases taken
    simp only [lane, idle, waiting, List.flatten_cons, List.nil_append] at sound
    exact sound
  · cases taken

end

/-- What a step of the worker comes to. -/
inductive Outcome (slave : SlavePartition) (phase : WorkerPhase) (task : WriteTask)
    (tasks : List WriteTask) : Worked → Prop where
  | looks (next : WorkerPhase) : Outcome slave phase task tasks
      (Worker.goOn next (task :: tasks) slave)
  | drops (last : SlavePartition) (same : last.toAcceptance = slave.toAcceptance) :
    Outcome slave phase task tasks (Worker.drop (task :: tasks) last)
  | skips (empty : task.binlog = []) : Outcome slave phase task tasks
      (Worker.goOn .state tasks slave)
  | accepts (writes : phase = .write) (filled : task.binlog ≠ []) :
    Outcome slave phase task tasks
      (Worker.goOn .state tasks { slave with accepted := slave.accepted ++ [task.binlog] })

theorem outcome_work (config : ShippingConfig) (isSlave : Bool) (slave : SlavePartition)
    (phase : WorkerPhase) (task : WriteTask) (tasks : List WriteTask) :
    Outcome slave phase task tasks (Worker.work config isSlave slave phase task tasks) := by
  unfold Worker.work
  cases phase with
  | state =>
    dsimp only
    split_ifs
    · exact .drops slave rfl
    · exact .looks .session
    · exact .looks .stateAgain
  | stateAgain =>
    dsimp only
    split_ifs
    · exact .looks .session
    · exact .drops slave rfl
  | session =>
    dsimp only
    split_ifs
    · exact .drops _ rfl
    · exact .looks .write
  | write =>
    dsimp only
    split_ifs with empty
    · exact .skips empty
    · exact .accepts rfl empty
    · exact .drops _ rfl

/-- The worker leaves its tasks, those behind a keepalive or behind an item that
it accepts, or none. -/
theorem lane_work (sound : (table.lane queued).Sound) (clean : table.Clean)
    (works : table.work config isSlave = some next) : (next.lane queued).Sound := by
  unfold work at works
  split at works
  · cases works
  · rename_i task tasks front
    cases works
    have first : (table.lane queued).waiting =
        task :: (tasks ++ table.inbox.flatten ++ queued) := by
      rw [lane, front]
      rfl
    have outcome := outcome_work config isSlave table.slave table.worker.phase task tasks
    dsimp only [lane]
    generalize Worker.work config isSlave table.slave table.worker.phase task
      tasks = worked at outcome
    cases outcome with
    | looks phase =>
      rw [Worker.goOn, List.map_nil, List.append_nil, ← front]
      exact sound
    | drops last same =>
      rw [Worker.drop, same]
      have split : (table.lane queued).waiting =
          (task :: tasks) ++ (table.inbox.flatten ++ queued) := by
        rw [lane, front, List.append_assoc]
      refine sound.lose (split ▸ List.sublist_append_right _ _) (List.subset_append_left _ _) ?_
      intro other waits
      rw [split, List.mem_append] at waits
      exact waits.imp_left fun gone => List.mem_append_right _ (List.mem_map_of_mem gone)
    | skips empty =>
      rw [Worker.goOn, List.map_nil, List.append_nil]
      have idle : ¬(table.lane queued).slave.Current task = true :=
        fun current => (of_decide_eq_true current).2 empty
      have same : (tasks ++ table.inbox.flatten ++ queued).filter table.slave.Current =
          (table.lane queued).current := by
        rw [Lane.current, first, List.filter_cons_of_neg idle]
        rfl
      exact sound.idle same fun task waits => .inl (first ▸ List.mem_cons_of_mem _ waits)
    | accepts writes filled =>
      rw [Worker.goOn, List.map_nil, List.append_nil]
      have turn := clean writes
      rw [front] at turn
      obtain ⟨ticket, unharmed⟩ := turn task rfl filled
      exact sound.accept first filled ticket unharmed

end ShippingTable

namespace Shipping

open ShippingTable (lane)

/-! ## Tables -/

/-- The tasks that are queued for a table. -/
def queued (shipping : Shipping) (info : PartitionInfo) : List WriteTask :=
  ofTable info (shipping.outbox.flatten ++ shipping.queue info.partitionId)

/-- Tasks wait in the queue of their partition number. -/
def Routed (shipping : Shipping) : Prop :=
  ∀ partitionId, ∀ task ∈ shipping.queue partitionId, task.info.partitionId = partitionId

/-- The invariant of the machine. -/
structure Sound (shipping : Shipping) : Prop where
  routed : shipping.Routed
  lanes : ∀ info, ((shipping.table info).lane (shipping.queued info)).Sound

/-- The condition on a step: the worker writes items in turn. -/
def Clean (shipping : Shipping) : ShippingLabel → Prop
  | .work info _ => (shipping.table info).Clean
  | _ => True

instance (shipping : Shipping) (label : ShippingLabel) : Decidable (shipping.Clean label) :=
  match label with
  | .work info _ => inferInstanceAs (Decidable (shipping.table info).Clean)
  | .put _ _ | .trySync _ | .dbSync _ | .call _ _ _ | .setReplState _ _ | .checkSessionId _ _
  | .activate _ _ | .syncBinlogToWq _ _ | .updateSlave _ _ _ | .wakeUp _ _ | .removeSlaveNode _
  | .dropItemInWriteQueue | .ping _ _ | .collect _ | .send _ | .finishConsume
  | .takeMessage _ => .isTrue trivial

variable {config : ShippingConfig} {shipping : Shipping} {info : PartitionInfo}

theorem ofTable_append (info : PartitionInfo) (first second : List WriteTask) :
    ofTable info (first ++ second) = ofTable info first ++ ofTable info second :=
  List.filter_append ..

theorem ofTable_self (own : ∀ task ∈ tasks, task.info = info) : ofTable info tasks = tasks :=
  List.filter_eq_self.mpr fun task member => decide_eq_true (own task member)

theorem ofTable_eq_nil (foreign : ∀ task ∈ tasks, task.info ≠ info) : ofTable info tasks = [] :=
  List.filter_eq_nil_iff.mpr fun task member own => foreign task member (of_decide_eq_true own)

/-- A step of one table. -/
theorem Sound.set {table : ShippingTable} (sound : shipping.Sound)
    (here : (table.lane (shipping.queued info)).Sound) : (shipping.set info table).Sound where
  routed := sound.routed
  lanes other := by
    by_cases same : other = info
    · subst same
      simp only [Shipping.set, update_self]
      exact here
    · simp only [Shipping.set, update_of_ne same]
      exact sound.lanes other

theorem Sound.readBinlogFileToWq {node : ShippingNode} (sound : shipping.Sound)
    (present : (shipping.table info).node = some node) (failure : Option Nat) :
    (shipping.readBinlogFileToWq config info failure node).1.Sound := by
  unfold Shipping.readBinlogFileToWq
  rcases reads : (shipping.table info).readBinlogFileToWq config info failure node with
    ⟨tasks, table, ok⟩
  obtain ⟨here, own⟩ := ShippingTable.lane_readBinlogFileToWq (sound.lanes info) present reads
  constructor
  · intro partitionId task member
    by_cases same : partitionId = info.partitionId
    · subst same
      simp only [update_self, List.mem_append] at member
      rcases member with member | member
      · exact sound.routed _ task member
      · rw [own task member]
    · simp only [update_of_ne same] at member
      exact sound.routed partitionId task member
  · intro other
    by_cases same : other = info
    · subst same
      simp only [queued, Shipping.set, update_self, ← List.append_assoc, ofTable_append,
        ofTable_self own] at here ⊢
      exact here
    · have foreign : ofTable other tasks = [] :=
        ofTable_eq_nil fun task member => own task member ▸ Ne.symm same
      have before := sound.lanes other
      by_cases shared : other.partitionId = info.partitionId
      · simpa [queued, Shipping.set, shared, same, ofTable_append, foreign] using before
      · simpa [queued, Shipping.set, shared, same] using before

theorem Sound.wakeUp (sound : shipping.Sound) (info : PartitionInfo) (failure : Option Nat) :
    (shipping.wakeUp config info failure).Sound := by
  unfold Shipping.wakeUp
  split
  · exact sound
  · rename_i node present
    have read : (shipping.readBinlogFileToWq config info failure node).1.Sound :=
      sound.readBinlogFileToWq present failure
    split_ifs
    · dsimp only
      split_ifs
      · exact read
      · exact read.set (ShippingTable.lane_removeNode (read.lanes info))
    · exact sound

/-! ## Queues and messages -/

/-- Tasks that leave the queues of a table and are remembered. -/
theorem lane_lose {table : ShippingTable} {tasks queued rest : List WriteTask}
    (sound : (table.lane queued).Sound)
    (split : ∀ task ∈ queued, task ∈ ofTable info tasks ∨ task ∈ rest)
    (fewer : rest.Sublist queued) : ((lose info tasks table).lane rest).Sound := by
  refine sound.lose (fewer.append_left _) (List.subset_append_left _ _) ?_
  intro task waits
  rcases List.mem_append.mp waits with arrived | waits
  · exact .inr (List.mem_append_left _ arrived)
  · rcases split task waits with gone | stays
    · exact .inl (List.mem_append_right _ (List.mem_map_of_mem gone))
    · exact .inr (List.mem_append_right _ stays)

theorem Sound.eraseWriteQueues (sound : shipping.Sound) : shipping.eraseWriteQueues.Sound where
  routed _ _ member := nomatch member
  lanes info := by
    have before := sound.lanes info
    rw [queued, ofTable_append] at before
    rw [queued, Shipping.eraseWriteQueues, List.append_nil]
    refine lane_lose before ?_ (List.sublist_append_left _ _)
    intro task member
    exact (List.mem_append.mp member).symm

theorem routed_collectPartition (routed : shipping.Routed) (partitionId : Nat) :
    (shipping.collectPartition partitionId).Routed := by
  have taken := fillPackets_append kBinlogSendPacketNum (shipping.queue partitionId)
  intro other task member
  by_cases same : other = partitionId
  · subst same
    simp only [collectPartition, update_self] at member
    exact routed other task (taken ▸ List.mem_append_right _ member)
  · simp only [collectPartition, update_of_ne same] at member
    exact routed other task member

/-- Collecting moves tasks from the queue to the outbox, in order. -/
theorem queued_collectPartition (routed : shipping.Routed) (partitionId : Nat)
    (info : PartitionInfo) :
    (shipping.collectPartition partitionId).queued info = shipping.queued info := by
  have taken := fillPackets_append kBinlogSendPacketNum (shipping.queue partitionId)
  by_cases same : info.partitionId = partitionId
  · subst same
    simp only [queued, collectPartition, update_self, List.flatten_append, List.append_assoc, taken]
  · have foreign : ofTable info (fillPackets kBinlogSendPacketNum
        (shipping.queue partitionId)).1.flatten = [] := by
      refine ofTable_eq_nil ?_
      intro task member own
      have number := routed partitionId task (taken ▸ List.mem_append_left _ member)
      exact same (own ▸ number)
    simp only [queued, collectPartition, update_of_ne same, List.flatten_append, ofTable_append,
      foreign, List.append_nil]

theorem Sound.collect (sound : shipping.Sound) (order : List Nat) :
    (order.foldl Shipping.collectPartition shipping).Sound := by
  induction order generalizing shipping with
  | nil => exact sound
  | cons partitionId order ih =>
    refine ih ⟨routed_collectPartition sound.routed partitionId, fun info => ?_⟩
    rw [queued_collectPartition sound.routed partitionId info]
    exact sound.lanes info

/-- A batch arrives at its tables. -/
theorem flatten_inbox_deliver (batch : List WriteTask) (info : PartitionInfo) :
    (((shipping.deliver batch).table info).inbox).flatten =
      (shipping.table info).inbox.flatten ++ ofTable info batch := by
  simp only [deliver]
  split_ifs with empty
  · rw [List.isEmpty_iff.mp empty, List.append_nil]
  · rw [List.flatten_append, List.flatten_singleton]

theorem queued_of_outbox {outbox : List (List WriteTask)}
    (next : shipping.outbox = batch :: outbox) (info : PartitionInfo) :
    shipping.queued info = ofTable info batch ++
      ofTable info (outbox.flatten ++ shipping.queue info.partitionId) := by
  rw [queued, next, List.flatten_cons, List.append_assoc, ofTable_append]

/-- A batch that is sent waits at the slave. -/
theorem Sound.deliver {batch : List WriteTask} {outbox : List (List WriteTask)}
    (sound : shipping.Sound) (next : shipping.outbox = batch :: outbox) :
    (Shipping.deliver batch { shipping with outbox := outbox }).Sound where
  routed := sound.routed
  lanes info := by
    have before := sound.lanes info
    rw [queued_of_outbox next, lane, ← List.append_assoc,
      List.append_assoc (shipping.table info).worker.tasks] at before
    rw [lane, flatten_inbox_deliver]
    exact before

theorem Sound.fail {batch : List WriteTask} {outbox : List (List WriteTask)}
    (sound : shipping.Sound) (next : shipping.outbox = batch :: outbox) :
    (Shipping.fail batch { shipping with outbox := outbox }).Sound where
  routed := sound.routed
  lanes info := by
    have before := sound.lanes info
    rw [queued_of_outbox next] at before
    exact lane_lose before (fun _ => List.mem_append.mp) (List.sublist_append_right _ _)

/-- A keepalive has no item. -/
theorem Sound.ping (sound : shipping.Sound) (info : PartitionInfo) (session : Int) :
    (shipping.deliver [keepalive info session]).Sound where
  routed := sound.routed
  lanes other := by
    have alive : ∀ task ∈ ofTable other [keepalive info session], task = keepalive info session :=
      fun _ member => List.mem_singleton.mp (List.mem_of_mem_filter member)
    have before := sound.lanes other
    have none : (ofTable other [keepalive info session]).filter
        (shipping.table other).slave.Current = [] := by
      refine List.filter_eq_nil_iff.mpr fun task member current => ?_
      rw [alive task member] at current
      exact (of_decide_eq_true current).2 rfl
    have same : (lane (shipping.queued other)
        ((shipping.deliver [keepalive info session]).table other)).current =
          ((shipping.table other).lane (shipping.queued other)).current := by
      simp only [Lane.current, lane, flatten_inbox_deliver, List.filter_append]
      rw [show ((shipping.deliver [keepalive info session]).table other).slave =
        (shipping.table other).slave from rfl, none, List.append_nil]
      rfl
    refine before.idle same ?_
    intro task member
    simp only [lane, flatten_inbox_deliver, List.mem_append] at member ⊢
    rcases member with (arrived | arrived | new) | waits
    · exact .inl (.inl (.inl arrived))
    · exact .inl (.inl (.inr arrived))
    · rw [alive task new]
      exact .inr rfl
    · exact .inl (.inr waits)

/-! ## Runs -/

theorem sound_initial (log : PartitionInfo → BinlogRecords) : (initial log).Sound where
  routed _ _ member := nomatch member
  lanes _ :=
    { accepted := List.nil_prefix
      task_le := nofun
      node_le := nofun
      request_le := nofun
      distinct := List.Pairwise.nil
      untouched := nofun
      sorted := List.Pairwise.nil
      task := nofun
      reader := nofun }

theorem Sound.step {next : Shipping} {label : ShippingLabel}
    (sound : shipping.Sound) (clean : shipping.Clean label)
    (stepped : shipping.step config label = some next) :
    next.Sound := by
  cases label with
  | put info record =>
    obtain ⟨log, put, rfl⟩ := Option.map_eq_some_iff.mp stepped
    exact sound.set ((sound.lanes info).put put)
  | trySync info | dbSync info =>
    cases stepped
    exact sound.set (ShippingTable.lane_answer (sound.lanes info) _)
  | call info calls offset =>
    obtain ⟨table, called, rfl⟩ := Option.map_eq_some_iff.mp stepped
    exact sound.set (ShippingTable.lane_call (sound.lanes info) called)
  | setReplState info state =>
    cases stepped
    exact sound.set (sound.lanes info)
  | checkSessionId info request =>
    obtain ⟨table, checked, rfl⟩ := Option.map_eq_some_iff.mp stepped
    exact sound.set (ShippingTable.lane_checkSessionId (sound.lanes info) checked)
  | activate info request =>
    obtain ⟨table, activated, rfl⟩ := Option.map_eq_some_iff.mp stepped
    exact sound.set (ShippingTable.lane_activate (sound.lanes info) activated)
  | syncBinlogToWq info failure =>
    cases stepped
    unfold Shipping.syncBinlogToWq
    split
    · exact sound
    · exact sound.readBinlogFileToWq ‹_› failure
  | updateSlave info start stop =>
    cases stepped
    exact sound.set (ShippingTable.lane_updateSlave (sound.lanes info) start stop)
  | wakeUp info failure =>
    obtain ⟨-, ⟨⟩⟩ := Option.ite_none_left_eq_some.mp stepped
    exact sound.wakeUp info failure
  | removeSlaveNode info =>
    cases stepped
    have removed := sound.set (ShippingTable.lane_removeNode (sound.lanes info))
    exact ⟨removed.routed, removed.lanes⟩
  | dropItemInWriteQueue =>
    obtain ⟨-, ⟨⟩⟩ := Option.ite_none_right_eq_some.mp stepped
    have erased := sound.eraseWriteQueues
    exact ⟨erased.routed, erased.lanes⟩
  | ping info delivered =>
    obtain ⟨-, ⟨⟩⟩ := Option.ite_none_left_eq_some.mp stepped
    unfold Shipping.ping
    split
    · exact sound
    · split_ifs
      · exact sound.ping info _
      · exact sound
  | collect order =>
    obtain ⟨-, ⟨⟩⟩ := Option.ite_none_left_eq_some.mp stepped
    have collected := sound.collect order
    exact ⟨collected.routed, collected.lanes⟩
  | send delivered =>
    rw [Shipping.step] at stepped
    split at stepped
    · cases stepped
    · rename_i batch outbox front
      cases stepped
      cases delivered with
      | true => exact sound.deliver front
      | false => exact sound.fail front
  | finishConsume =>
    obtain ⟨-, ⟨⟩⟩ := Option.ite_none_right_eq_some.mp stepped
    dsimp only
    split_ifs
    · have erased := sound.eraseWriteQueues
      exact ⟨erased.routed, erased.lanes⟩
    · exact ⟨sound.routed, sound.lanes⟩
  | takeMessage info =>
    obtain ⟨table, taken, rfl⟩ := Option.map_eq_some_iff.mp stepped
    exact sound.set (ShippingTable.lane_takeMessage (sound.lanes info) taken)
  | work info isSlave =>
    obtain ⟨table, worked, rfl⟩ := Option.map_eq_some_iff.mp stepped
    exact sound.set (ShippingTable.lane_work (sound.lanes info) clean worked)

/-- In every run whose items are written in turn, what the slave accepts of a
table is contiguous. -/
theorem accepted_prefix_of_run {log : PartitionInfo → BinlogRecords} {labels : List ShippingLabel}
    (admitted : RunAdmissible (step config) Clean (initial log) labels)
    (ran : run (step config) (initial log) labels = some shipping) (info : PartitionInfo) :
    (shipping.table info).Contiguous := by
  have sound : shipping.Sound := invariant_of_run (fun _ _ _ sound clean stepped =>
    sound.step clean stepped) (sound_initial log) admitted ran
  exact (sound.lanes info).accepted

def db0 : PartitionInfo where
  tableName := ascii "db0"
  partitionId := 0

/-- The position behind the first items of a file. -/
def behind (number : Nat) : LogOffset where
  bOffset := { filenum := 0, offset := number }
  lOffset := LogOffset.zero.lOffset

/-- A binlog item with a number. -/
def numbered (number : Nat) : Record where
  item := [1, 0] ++ List.replicate 31 0 ++ [UInt8.ofNat number]
  position := (behind (number + 1)).bOffset

/-- Binlogs without records. -/
def emptyLogs : PartitionInfo → BinlogRecords := fun _ =>
  { start := (behind 0).bOffset
    records := []
    ascending := List.pairwise_singleton _ _ }

/-- The default window size and a slave that takes every command. -/
def defaultConfig : ShippingConfig where
  windowSize := 9000
  parses _ := true

/-- The master answers a TrySync, and the slave asks for the items behind an
offset. -/
def connects (session : Int) (offset : LogOffset) : List ShippingLabel :=
  [.trySync db0, .call db0 (handleTrySyncResponse session) offset,
    .call db0 ((handleTrySyncResponse session).drop 1) offset]

/-- The master handles the request of the slave. -/
def serves (session : Int) (offset : LogOffset) (ticket : Nat) : List ShippingLabel :=
  let request : FirstSend :=
    { session := session, offset := offset, ticket := ticket, checked := false }
  [.checkSessionId db0 request, .activate db0 { request with checked := true },
    .syncBinlogToWq db0 none, .collect [0]]

/-- The slave's handler ends. -/
def connected (session : Int) : ShippingLabel :=
  .call db0 ((handleTrySyncResponse session).drop 2) .zero

/-- The worker takes a message and writes its items. -/
def accepts (items : Nat) : List ShippingLabel :=
  .takeMessage db0 :: List.replicate (3 * items) (.work db0 true)

/-- A batch fails, the slave connects again in a new session, and gets the
items from its position on. -/
theorem accepted_prefix_after_failure :
    ∃ labels shipping, run (step defaultConfig) (initial emptyLogs) labels = some shipping ∧
      (shipping.table db0).slave.base = 1 ∧
      (shipping.table db0).slave.accepted = [(numbered 1).item, (numbered 2).item] ∧
      (shipping.table db0).Contiguous := by
  let labels : List ShippingLabel :=
    [.put db0 (numbered 0)] ++ connects 0 (behind 0) ++ [connected 0] ++ serves 0 (behind 0) 1 ++
      [.send true, .finishConsume] ++ accepts 1 ++
      [.put db0 (numbered 1), .put db0 (numbered 2), .updateSlave db0 (behind 1) (behind 1),
        .syncBinlogToWq db0 none, .collect [0], .send false, .finishConsume,
        .removeSlaveNode db0, .dropItemInWriteQueue, .setReplState db0 .kTryConnect] ++
      connects 1 (behind 1) ++ serves 1 (behind 1) 2 ++ [connected 1, .send true, .finishConsume] ++
      accepts 2
  have admitted : RunAdmissible (step defaultConfig) Clean (initial emptyLogs) labels := by
    decide +kernel
  have ends : (run (step defaultConfig) (initial emptyLogs) labels).map (fun shipping =>
      ((shipping.table db0).slave.base, (shipping.table db0).slave.accepted)) =
      some (1, [(numbered 1).item, (numbered 2).item]) := by
    decide +kernel
  obtain ⟨shipping, ran, ends⟩ := Option.map_eq_some_iff.mp ends
  obtain ⟨base, accepted⟩ := Prod.mk.inj ends
  exact ⟨labels, shipping, ran, base, accepted, accepted_prefix_of_run admitted ran db0⟩

/-- Of two batches the first fails and the second is delivered: the slave
accepts item 100 right behind position 0. -/
theorem not_accepted_prefix_failed_batch :
    ∃ labels shipping, run (step defaultConfig) (initial emptyLogs) labels = some shipping ∧
      (shipping.table db0).slave.base = 0 ∧
      (shipping.table db0).slave.accepted = [(numbered 100).item] ∧
      ¬(shipping.table db0).Contiguous := by
  let labels : List ShippingLabel :=
    (List.range 101).map (fun number => .put db0 (numbered number)) ++
      connects 0 (behind 0) ++ [connected 0] ++ serves 0 (behind 0) 1 ++
      [.send false, .send true] ++ accepts 1
  have ends : (run (step defaultConfig) (initial emptyLogs) labels).map (fun shipping =>
      ((shipping.table db0).slave.base, (shipping.table db0).slave.accepted,
        decide (shipping.table db0).Contiguous)) =
      some (0, [(numbered 100).item], false) := by
    decide +kernel
  obtain ⟨shipping, ran, ends⟩ := Option.map_eq_some_iff.mp ends
  obtain ⟨base, ends⟩ := Prod.mk.inj ends
  obtain ⟨accepted, gap⟩ := Prod.mk.inj ends
  exact ⟨labels, shipping, ran, base, accepted, of_decide_eq_false gap⟩

-- The request is sent before the state is set: a first batch that comes in
-- between is dropped, and the second one is accepted.
example :
    (run (step defaultConfig) (initial emptyLogs)
        ((List.range 101).map (fun number => .put db0 (numbered number)) ++
          [.setReplState db0 .kWaitReply] ++ connects 0 (behind 0) ++ serves 0 (behind 0) 1 ++
          [.send true, .send true, .takeMessage db0, .work db0 true, .work db0 true,
            connected 0] ++ accepts 1)).map (fun shipping => (shipping.table db0).slave.accepted) =
      some [(numbered 100).item] := by
  decide +kernel

end Shipping
end Pika.Replication
