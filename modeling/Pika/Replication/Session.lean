import Mathlib.Tactic.SplitIfs
import Pika.Foundation.Transition
import Pika.Replication.Terms

/-!
# Sessions of one slave of a table

The master numbers the nodes it creates; a slave learns the number of its node
from the answer to its TrySync.  Acknowledgements and binlog tasks carry the
number their sender knows, and the receiver drops those with another one.  The
numbers tell messages before and after a TrySync apart unless the node, and
with it the number, survives from an earlier one.
-/

namespace Pika.Replication

open Foundation List

/-- A message under way. -/
structure SessionMessage where
  session : BitVec 32
  /-- The number of TrySyncs accepted before the message was created. -/
  stamp : Nat
  deriving DecidableEq, Repr

/-- The master's and the slave's knowledge of a session, and the messages
between them. -/
structure SessionLink where
  /-- `session_id_` of the master partition. -/
  nextSession : BitVec 32
  node : Option (BitVec 32)
  /-- The number of TrySyncs accepted so far. -/
  accepted : Nat
  /-- The number of TrySync requests under way. -/
  requests : Nat
  /-- The sessions in the answers under way. -/
  replies : List (BitVec 32)
  replState : SlavePartitionState
  masterSession : BitVec 32
  /-- The acknowledgements under way, those of a `first_send` included. -/
  acks : List SessionMessage
  /-- The tasks in the write queue and under way, keepalives included. -/
  tasks : List SessionMessage
  deriving DecidableEq, Repr

inductive SessionLabel where
  /-- The slave partition is given a master. -/
  | activate
  /-- The slave loses its master. -/
  | deactivate
  /-- The slave is to connect again, after a timeout or an error. -/
  | retry
  | sendTrySync
  /-- The master handles a TrySync; the slave's position is valid or not. -/
  | trySync (valid : Bool)
  /-- The slave handles an answer and sends its `first_send`. -/
  | trySyncResponse
  | sendAck
  | createTask
  | handleAck (index : Nat)
  | handleTask (index : Nat)
  | dropTask (index : Nat)
  | removeSlaveNode
  /-- A session is generated for another slave of the table. -/
  | genSessionId
  deriving DecidableEq, Repr

namespace SessionLink

/-- Before the slave connects. -/
def initial : SessionLink where
  nextSession := 0
  node := none
  accepted := 0
  requests := 0
  replies := []
  replState := .kNoConnect
  masterSession := 0
  acks := []
  tasks := []

def checkSessionId (link : SessionLink) (session : BitVec 32) : Bool := link.node = some session

/-- The checks of `HandleBGWorkerWriteBinlog`. -/
def checkMasterSessionId (link : SessionLink) (session : BitVec 32) : Bool :=
  link.replState = .kConnected ∧ link.masterSession = session

/-- The session a TrySync is answered with, unless `GenSessionId` fails. -/
def answer (link : SessionLink) : Option (BitVec 32) :=
  match link.node with
  | some session => some session
  | none => if link.nextSession = -1 then none else some link.nextSession

/-- `TrySyncUpdateSlaveNode`: an existing node keeps its session. -/
def trySyncUpdateSlaveNode (link : SessionLink) : SessionLink :=
  let generated :=
    { link with nextSession := if link.node = none then link.nextSession + 1 else link.nextSession }
  match link.answer with
  | none => generated
  | some session =>
    { generated with
      node := some session
      accepted := link.accepted + 1
      replies := link.replies ++ [session] }

/-- A message created now. -/
def message (link : SessionLink) (session : BitVec 32) : SessionMessage where
  session := session
  stamp := link.accepted

def step (link : SessionLink) : SessionLabel → Option SessionLink
  | .activate => some { link with replState := .kTryConnect, masterSession := 0 }
  | .deactivate => some { link with replState := .kNoConnect, masterSession := 0 }
  | .retry => some { link with replState := .kTryConnect }
  | .sendTrySync =>
    if link.replState = .kTryConnect then
      some { link with replState := .kWaitReply, requests := link.requests + 1 }
    else none
  | .trySync valid =>
    if 0 < link.requests then
      let link := { link with requests := link.requests - 1 }
      some (if valid then link.trySyncUpdateSlaveNode else link)
    else none
  | .trySyncResponse =>
    match link.replies with
    | [] => none
    | session :: replies =>
      some { link with
        replies := replies
        masterSession := session
        replState := .kConnected
        acks := link.acks ++ [link.message session] }
  | .sendAck => some { link with acks := link.acks ++ [link.message link.masterSession] }
  | .createTask =>
    link.node.map fun session => { link with tasks := link.tasks ++ [link.message session] }
  | .handleAck index => some { link with acks := link.acks.eraseIdx index }
  | .handleTask index =>
    link.tasks[index]?.map fun task =>
      { link with
        tasks := link.tasks.eraseIdx index
        replState :=
          if link.replState = .kConnected ∧ link.masterSession ≠ task.session then .kTryConnect
          else link.replState }
  | .dropTask index => some { link with tasks := link.tasks.eraseIdx index }
  | .removeSlaveNode => some { link with node := none }
  | .genSessionId => some { link with nextSession := link.nextSession + 1 }

/-- The messages under way that pass the check of their receiver were created
after the last accepted TrySync. -/
structure ChecksCurrent (link : SessionLink) : Prop where
  /-- Acknowledgements at the master. -/
  acks : ∀ ack ∈ link.acks, link.checkSessionId ack.session = true → ack.stamp = link.accepted
  tasks : ∀ task ∈ link.tasks, link.checkMasterSessionId task.session = true →
      task.stamp = link.accepted

/-- No message created before the last accepted TrySync can pass a check, as
long as no other one is accepted. -/
def Isolated (link : SessionLink) : Prop :=
  ∀ labels, (∀ label ∈ labels, label ≠ .trySync true) →
    RunSatisfies step ChecksCurrent link labels

/-- A TrySync is answered with a session that no message under way carries,
and no task under way carries a session the slave has or is about to get. -/
def TrySyncSafe (link : SessionLink) : SessionLabel → Prop
  | .trySync true =>
    0 < link.requests → ∀ session ∈ link.answer,
      (∀ ack ∈ link.acks, ack.session ≠ session) ∧ ∀ task ∈ link.tasks,
          task.session ∉ link.replies ++ [session] ∧
            link.checkMasterSessionId task.session = false
  | _ => True

/-! ## Messages from before a TrySync -/

/-- Messages from before the last accepted TrySync carry no session that their
receiver has or is about to get. -/
structure Guarded (link : SessionLink) : Prop where
  acks : ∀ ack ∈ link.acks, ack.stamp ≠ link.accepted → link.checkSessionId ack.session = false
  tasks : ∀ task ∈ link.tasks, task.stamp ≠ link.accepted →
    task.session ∉ link.replies ∧ link.checkMasterSessionId task.session = false
  stamps : ∀ message ∈ link.acks ++ link.tasks, message.stamp ≤ link.accepted

variable {link next : SessionLink}

theorem guarded_initial : initial.Guarded where
  acks := by simp [initial]
  tasks := by simp [initial]
  stamps := by simp [initial]

theorem Guarded.checksCurrent (guarded : link.Guarded) : link.ChecksCurrent where
  acks ack member passes := by
    by_contra old
    exact Bool.false_ne_true ((guarded.acks ack member old).symm.trans passes)
  tasks task member passes := by
    by_contra old
    exact Bool.false_ne_true ((guarded.tasks task member old).2.symm.trans passes)

/-- What a step without an accepted TrySync can do: create messages with the
current stamp, lose messages, forget the node, and give the slave the session
of an answer. -/
structure Quiet (link next : SessionLink) : Prop where
  accepted_eq : next.accepted = link.accepted
  acks : ∀ ack ∈ next.acks, ack ∈ link.acks ∨ ack.stamp = link.accepted
  tasks : ∀ task ∈ next.tasks, task ∈ link.tasks ∨ task.stamp = link.accepted
  node : ∀ session, next.node = some session → link.node = some session
  replies : ∀ session ∈ next.replies, session ∈ link.replies
  master : ∀ session, next.checkMasterSessionId session = true →
    link.checkMasterSessionId session = true ∨ session ∈ link.replies

theorem mem_append_message (session : BitVec 32) :
    ∀ message ∈ messages ++ [link.message session],
      message ∈ messages ∨ message.stamp = link.accepted := by
  intro message member
  rcases mem_append.mp member with old | new
  · exact .inl old
  · rw [mem_singleton.mp new]
    exact .inr rfl

/-- A step that changes the slave's state to one in which it takes no tasks. -/
theorem quiet_of_not_connected (sameAccepted : next.accepted = link.accepted)
    (sameAcks : next.acks = link.acks) (fewerTasks : ∀ task ∈ next.tasks, task ∈ link.tasks)
    (sameNode : next.node = link.node) (sameReplies : next.replies = link.replies)
    (notConnected : next.replState ≠ .kConnected) :
    Quiet link next where
  accepted_eq := sameAccepted
  acks ack member := .inl (sameAcks ▸ member)
  tasks task member := .inl (fewerTasks task member)
  node session present := sameNode ▸ present
  replies session member := sameReplies ▸ member
  master session passes := by
    simp [checkMasterSessionId, notConnected] at passes

/-- The state after an accepted TrySync. -/
def accept (session : BitVec 32) (link : SessionLink) : SessionLink :=
  { link with
    requests := link.requests - 1
    nextSession := if link.node = none then link.nextSession + 1 else link.nextSession
    node := some session
    accepted := link.accepted + 1
    replies := link.replies ++ [session] }

theorem step_trySync (waiting : 0 < link.requests) (answered : link.answer = some session) :
    link.step (.trySync true) = some (link.accept session) := by
  have given : { link with requests := link.requests - 1 }.answer = some session := answered
  simp only [step, if_pos waiting, if_true, trySyncUpdateSlaveNode, given, accept]

/-- Every step is quiet unless it accepts a TrySync. -/
theorem step_cases (stepped : link.step label = some next) :
    Quiet link next ∨ label = .trySync true ∧ 0 < link.requests ∧
        ∃ session ∈ link.answer, next = link.accept session := by
  cases label with
  | activate | deactivate | retry =>
    cases stepped
    exact .inl (quiet_of_not_connected rfl rfl (fun _ => id) rfl rfl (by simp))
  | sendTrySync =>
    simp only [step, Option.ite_none_right_eq_some] at stepped
    cases stepped.2
    exact .inl (quiet_of_not_connected rfl rfl (fun _ => id) rfl rfl (by simp))
  | trySync valid =>
    simp only [step, Option.ite_none_right_eq_some] at stepped
    obtain ⟨waiting, stepped⟩ := stepped
    cases valid with
    | false =>
      cases stepped
      exact .inl ⟨rfl, fun _ => .inl, fun _ => .inl, fun _ => id, fun _ => id, fun _ => .inl⟩
    | true =>
      cases stepped
      cases answered : link.answer with
      | none =>
        left
        have refused : { link with requests := link.requests - 1 }.answer = none := answered
        simp only [if_true, trySyncUpdateSlaveNode, refused]
        exact ⟨rfl, fun _ => .inl, fun _ => .inl, fun _ => id, fun _ => id, fun _ => .inl⟩
      | some session =>
        have given := step_trySync waiting answered
        rw [step, if_pos waiting] at given
        exact .inr ⟨rfl, waiting, session, rfl, Option.some.inj given⟩
  | trySyncResponse =>
    simp only [step] at stepped
    cases replies : link.replies with
    | nil => simp [replies] at stepped
    | cons session later =>
      simp only [replies] at stepped
      cases stepped
      refine .inl ⟨rfl, mem_append_message session, fun _ => .inl, fun _ => id, ?_, ?_⟩
      · intro other member
        rw [replies]
        exact mem_cons_of_mem _ member
      · intro other passes
        simp only [checkMasterSessionId, true_and, decide_eq_true_eq] at passes
        rw [replies, ← passes]
        exact .inr mem_cons_self
  | sendAck =>
    cases stepped
    exact .inl ⟨rfl, mem_append_message link.masterSession, fun _ => .inl,
      fun _ => id, fun _ => id, fun _ => .inl⟩
  | createTask =>
    obtain ⟨session, -, rfl⟩ := Option.map_eq_some_iff.mp stepped
    exact .inl ⟨rfl, fun _ => .inl, mem_append_message session,
      fun _ => id, fun _ => id, fun _ => .inl⟩
  | handleAck index =>
    cases stepped
    exact .inl ⟨rfl, fun _ member => .inl (mem_of_mem_eraseIdx member),
      fun _ => .inl, fun _ => id, fun _ => id, fun _ => .inl⟩
  | handleTask index =>
    obtain ⟨task, -, rfl⟩ := Option.map_eq_some_iff.mp stepped
    refine .inl ⟨rfl, fun _ => .inl, fun _ member => .inl (mem_of_mem_eraseIdx member),
      fun _ => id, fun _ => id, ?_⟩
    intro session passes
    left
    simp only [checkMasterSessionId, decide_eq_true_eq] at passes ⊢
    obtain ⟨stillConnected, same⟩ := passes
    split_ifs at stillConnected
    exact ⟨stillConnected, same⟩
  | dropTask index =>
    cases stepped
    exact .inl ⟨rfl, fun _ => .inl, fun _ member => .inl (mem_of_mem_eraseIdx member),
      fun _ => id, fun _ => id, fun _ => .inl⟩
  | removeSlaveNode =>
    cases stepped
    exact .inl ⟨rfl, fun _ => .inl, fun _ => .inl, nofun, fun _ => id, fun _ => .inl⟩
  | genSessionId =>
    cases stepped
    exact .inl ⟨rfl, fun _ => .inl, fun _ => .inl, fun _ => id, fun _ => id, fun _ => .inl⟩

theorem Guarded.quiet (guarded : link.Guarded) (quiet : Quiet link next) : next.Guarded where
  acks ack member old := by
    rw [quiet.accepted_eq] at old
    obtain earlier | current := quiet.acks ack member
    · rw [checkSessionId, decide_eq_false_iff_not]
      intro present
      have refused := guarded.acks ack earlier old
      rw [checkSessionId, decide_eq_false_iff_not] at refused
      exact refused (quiet.node ack.session present)
    · exact (old current).elim
  tasks task member old := by
    rw [quiet.accepted_eq] at old
    obtain earlier | current := quiet.tasks task member
    · obtain ⟨notAnswered, refused⟩ := guarded.tasks task earlier old
      refine ⟨fun answered => notAnswered (quiet.replies _ answered), ?_⟩
      rw [Bool.eq_false_iff]
      intro passes
      obtain before | answered := quiet.master task.session passes
      · exact Bool.false_ne_true (refused.symm.trans before)
      · exact notAnswered answered
    · exact (old current).elim
  stamps message member := by
    rw [quiet.accepted_eq]
    rcases mem_append.mp member with isAck | isTask
    · obtain earlier | current := quiet.acks message isAck
      · exact guarded.stamps message (mem_append_left _ earlier)
      · exact Nat.le_of_eq current
    · obtain earlier | current := quiet.tasks message isTask
      · exact guarded.stamps message (mem_append_right _ earlier)
      · exact Nat.le_of_eq current

theorem Guarded.isolated (guarded : link.Guarded) : link.Isolated := by
  intro labels none
  have preserved : ∀ link label next,
      Guarded link → label ≠ .trySync true → step link label = some next → Guarded next := by
    intro link label next guarded other stepped
    obtain quiet | ⟨same, -⟩ := step_cases stepped
    · exact guarded.quiet quiet
    · exact (other same).elim
  exact runSatisfies_of_runAdmissible (fun _ => Guarded.checksCurrent) preserved guarded
    (runAdmissible_of_invariant preserved (fun _ _ _ => id) guarded none)

/-- After an accepted TrySync all messages under way are from before it. -/
theorem Guarded.accept (guarded : link.Guarded)
    (acksDiffer : ∀ ack ∈ link.acks, ack.session ≠ session)
    (tasksDiffer : ∀ task ∈ link.tasks, task.session ∉ link.replies ++ [session] ∧
        link.checkMasterSessionId task.session = false) :
    (link.accept session).Guarded where
  acks ack member _ := by
    rw [checkSessionId, decide_eq_false_iff_not]
    intro same
    exact acksDiffer ack member (Option.some.inj same).symm
  tasks task member _ := tasksDiffer task member
  stamps message member := Nat.le_succ_of_le (guarded.stamps message member)

theorem Isolated.checksCurrent (isolated : link.Isolated) : link.ChecksCurrent :=
  isolated [] (by simp)

theorem Isolated.step (isolated : link.Isolated) (other : label ≠ .trySync true)
    (stepped : link.step label = some next) :
    next.Isolated := by
  intro labels none
  exact (isolated (label :: labels) (forall_mem_cons.mpr ⟨other, none⟩)).2 next stepped

/-- A task from before the last TrySync passes once the slave handles an
answer with its session. -/
theorem Isolated.not_mem_replies (isolated : link.Isolated)
    (member : task ∈ link.tasks) (old : task.stamp ≠ link.accepted) :
    task.session ∉ link.replies := by
  generalize repliesEq : link.replies = replies
  induction replies generalizing link with
  | nil => exact not_mem_nil
  | cons session later ih =>
    have stepped : link.step .trySyncResponse = some
        { link with
          replies := later
          masterSession := session
          replState := .kConnected
          acks := link.acks ++ [link.message session] } := by
      simp only [SessionLink.step, repliesEq]
    have isolatedNext := isolated.step (by simp) stepped
    rw [mem_cons, not_or]
    refine ⟨?_, ih isolatedNext member old rfl⟩
    intro same
    apply old
    apply isolatedNext.checksCurrent.tasks task member
    simp [checkMasterSessionId, same]

theorem Guarded.trySyncSafe_of_isolated (guarded : link.Guarded)
    (isolated : (link.accept session).Isolated) :
    (∀ ack ∈ link.acks, ack.session ≠ session) ∧ ∀ task ∈ link.tasks,
        task.session ∉ link.replies ++ [session] ∧
          link.checkMasterSessionId task.session = false := by
  have old : ∀ message ∈ link.acks ++ link.tasks,
      message.stamp ≠ (link.accept session).accepted := by
    intro message member
    exact Nat.ne_of_lt (Nat.lt_succ_of_le (guarded.stamps message member))
  have current := isolated.checksCurrent
  constructor
  · intro ack member same
    apply old ack (mem_append_left _ member)
    apply current.acks ack member
    simp [checkSessionId, SessionLink.accept, same]
  · intro task member
    have isOld := old task (mem_append_right _ member)
    refine ⟨isolated.not_mem_replies member isOld, ?_⟩
    rw [Bool.eq_false_iff]
    intro passes
    exact isOld (current.tasks task member passes)

/-- Along every interleaving, no message from before the last accepted TrySync
can pass a session check exactly if every TrySync is safe. -/
theorem isolated_iff_trySyncsSafe (labels : List SessionLabel) :
    RunSatisfies step Isolated initial labels ↔ RunAdmissible step TrySyncSafe initial labels := by
  refine runSatisfies_iff_runSafe Guarded.isolated ?_ ?_ guarded_initial
  · intro link label next guarded safe stepped
    obtain quiet | ⟨rfl, waiting, session, answered, rfl⟩ := step_cases stepped
    · exact guarded.quiet quiet
    · obtain ⟨acksDiffer, tasksDiffer⟩ := safe waiting session answered
      exact guarded.accept acksDiffer tasksDiffer
  · intro link label guarded breaks
    cases label with
    | trySync valid =>
      cases valid with
      | false => exact (breaks trivial).elim
      | true =>
        simp only [TrySyncSafe, not_forall] at breaks
        obtain ⟨waiting, session, answered, reused⟩ := breaks
        exact ⟨link.accept session, step_trySync waiting answered,
          fun isolated => reused (guarded.trySyncSafe_of_isolated isolated)⟩
    | _ => exact (breaks trivial).elim

/-- A slave that connects again while its node still exists: the node keeps
its session, so the task queued before passes the slave's check. -/
theorem not_isolated_reconnected :
    ¬RunSatisfies step Isolated initial
      [.activate, .sendTrySync, .trySync true, .trySyncResponse, .createTask,
        .retry, .sendTrySync, .trySync true] := by
  intro satisfied
  have activated := satisfied.2 _ rfl
  have requested := activated.2 _ rfl
  have accepted := requested.2 _ rfl
  have connected := accepted.2 _ rfl
  have queued := connected.2 _ rfl
  have retried := queued.2 _ rfl
  have requestedAgain := retried.2 _ rfl
  have isolated : Isolated _ := requestedAgain.2 _ rfl
  have reconnected := isolated.step (by simp) (show step _ .trySyncResponse = _ from rfl)
  have stamps := reconnected.checksCurrent.tasks { session := 0, stamp := 1 }
    (mem_singleton_self _) rfl
  exact absurd stamps (by decide)

end SessionLink
end Pika.Replication
