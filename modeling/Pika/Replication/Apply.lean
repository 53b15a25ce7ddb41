import Pika.Command.Keys
import Pika.Foundation.Pool
import Pika.Foundation.Transition

/-!
# Applying a binlog stream on a follower

One worker handles the binlog stream of a partition; it appends each command to
the follower's binlog and schedules its `Do` on a write-DB worker, chosen by the
hash of `argv[1]` alone.
-/

namespace Pika.Replication

open Foundation
open Binlog (Bytes)
open Command (CommandName)

/-- The background workers of `PikaReplClient`. -/
structure ReplClient where
  strHash : Bytes → Nat
  syncThreadNum : Nat
  /-- A number below one is replaced when the configuration is loaded. -/
  positive : 0 < syncThreadNum

namespace ReplClient

/-- `bg_workers_.size()`. -/
def bgWorkers (client : ReplClient) : Nat := 2 * client.syncThreadNum

/-- The first half of the workers writes binlogs, the second half writes the
database. -/
def getHashIndex (client : ReplClient) (key : Bytes) (upperHalf : Bool) : Nat :=
  let hashBase := client.bgWorkers / 2
  client.strHash key % hashBase + if upperHalf then 0 else hashBase

theorem getHashIndex_lt (client : ReplClient) (key : Bytes) (upperHalf : Bool) :
    client.getHashIndex key upperHalf < client.bgWorkers := by
  have base : client.bgWorkers / 2 = client.syncThreadNum := Nat.mul_div_cancel_left _ (by decide)
  have residue := Nat.mod_lt (client.strHash key) client.positive
  rw [getHashIndex, base, bgWorkers]
  split_ifs <;> omega

end ReplClient

/-- A command of the stream, as `ReplClientWriteDBTaskArg` carries it. -/
structure WriteDBTask where
  command : CommandName
  /-- The arguments, the command name first. -/
  argv : List Bytes
  deriving DecidableEq

namespace WriteDBTask

/-- The argument whose hash selects the worker. -/
def dispatchKey (task : WriteDBTask) : Bytes :=
  if 2 ≤ task.argv.length then Command.argument task.argv 1
  else Command.argument task.argv 0

def worker (client : ReplClient) (task : WriteDBTask) : Nat :=
  client.getHashIndex task.dispatchKey false

/-- Two commands touch a common key. -/
def Overlaps (stringmatch : Bytes → Bytes → Bool) (first second : WriteDBTask) : Prop :=
  ∃ key, Command.touches stringmatch first.command first.argv key = true ∧
    Command.touches stringmatch second.command second.argv key = true

/-- The command touches its first key at most. -/
def TouchesFirst (task : WriteDBTask) : Prop :=
  Command.touchesFirst task.command = true ∧ 2 ≤ task.argv.length

theorem Overlaps.worker_eq {first second : WriteDBTask}
    (overlaps : first.Overlaps stringmatch second)
    (firstSingle : first.TouchesFirst) (secondSingle : second.TouchesFirst) (client : ReplClient) :
    first.worker client = second.worker client := by
  obtain ⟨key, inFirst, inSecond⟩ := overlaps
  have firstKey := Command.eq_argument_of_touches firstSingle.1 inFirst
  have secondKey := Command.eq_argument_of_touches secondSingle.1 inSecond
  rw [worker, worker, dispatchKey, dispatchKey, if_pos firstSingle.2,
    if_pos secondSingle.2, firstKey, secondKey]

end WriteDBTask

/-- The follower's side of a partition. -/
structure Follower (Db : Type*) where
  received : List WriteDBTask
  log : List WriteDBTask
  /-- The index of `mem_logger_->last_offset()`. -/
  lastIndex : Nat
  pool : Pool WriteDBTask Nat Db

/-- What happens next on the follower. -/
inductive ApplyLabel where
  | processLeaderLog (task : WriteDBTask) (logicId : Nat)
  | handleBGWorkerWriteDB (worker : Nat)

/-- A label whose command touches its first key at most. -/
def ApplyLabel.TouchesFirst : ApplyLabel → Prop
  | .processLeaderLog task _ => task.TouchesFirst
  | .handleBGWorkerWriteDB _ => True

namespace Follower

variable {Db : Type*}

/-- A follower before the stream.  `mem_logger_` keeps its default offset while
the consensus level is zero. -/
def initial (db : Db) : Follower Db where
  received := []
  log := []
  lastIndex := 0
  pool := Pool.idle db

/-- Append a command to the binlog and schedule it, unless it is old. -/
def processLeaderLog (client : ReplClient) (task : WriteDBTask) (logicId : Nat)
    (follower : Follower Db) : Follower Db :=
  if logicId < follower.lastIndex then { follower with received := follower.received ++ [task] }
  else
    { follower with
      received := follower.received ++ [task]
      log := follower.log ++ [task]
      pool := follower.pool.dispatch (WriteDBTask.worker client) task }

/-- One step.  `execute` is `Do` on the database. -/
def step (client : ReplClient) (execute : WriteDBTask → Db → Db) (follower : Follower Db) :
    ApplyLabel → Option (Follower Db)
  | .processLeaderLog task logicId => some (follower.processLeaderLog client task logicId)
  | .handleBGWorkerWriteDB worker =>
    (follower.pool.serve execute worker).map fun pool => { follower with pool := pool }

/-- The workers have nothing to do. -/
def Drained (client : ReplClient) (follower : Follower Db) : Prop :=
  ∀ worker < client.bgWorkers, follower.pool.queue worker = []

instance (client : ReplClient) (follower : Follower Db) : Decidable (follower.Drained client) :=
  Nat.decidableBallLT _ _

/-- A command is scheduled when each waiting command with a key in common waits
at the same worker, or commutes with it. -/
def MeetsOverlaps (stringmatch : Bytes → Bytes → Bool) (client : ReplClient)
    (execute : WriteDBTask → Db → Db) (follower : Follower Db) :
    ApplyLabel → Prop
  | .processLeaderLog task _ =>
    ∀ worker, worker ≠ task.worker client → ∀ other ∈ follower.pool.queue worker,
        other.Overlaps stringmatch task → Commutes execute other task
  | .handleBGWorkerWriteDB _ => True

/-- The workers are on the way to the sequential replay of the stream. -/
structure Replays (client : ReplClient) (execute : WriteDBTask → Db → Db)
    (start : Db) (follower : Follower Db) : Prop where
  lastIndex_eq : follower.lastIndex = 0
  log_eq : follower.log = follower.received
  backlog : ∃ items, Pool.Backlog (WriteDBTask.worker client) execute follower.pool
      (perform execute follower.received start) items

variable {stringmatch : Bytes → Bytes → Bool} {client : ReplClient}
variable {execute : WriteDBTask → Db → Db} {start : Db}
variable {follower next : Follower Db}

theorem replays_initial (client : ReplClient) (execute : WriteDBTask → Db → Db) (start : Db) :
    (initial start).Replays client execute start where
  lastIndex_eq := rfl
  log_eq := rfl
  backlog := ⟨[], Pool.Backlog.idle _ _ start⟩

theorem Replays.step (independent : ∀ first second : WriteDBTask,
      ¬ first.Overlaps stringmatch second → Commutes execute first second)
    (replays : follower.Replays client execute start)
    (meets : follower.MeetsOverlaps stringmatch client execute label)
    (stepped : follower.step client execute label = some next) :
    next.Replays client execute start := by
  obtain ⟨lastIndex, logged, items, backlog⟩ := replays
  cases label with
  | processLeaderLog task logicId =>
    cases stepped
    have current : ¬ logicId < follower.lastIndex := by omega
    have commutes : ∀ worker, worker ≠ task.worker client → ∀ other ∈ follower.pool.queue worker,
          Commutes execute other task := by
      intro worker elsewhere other waits
      by_cases overlaps : other.Overlaps stringmatch task
      · exact meets worker elsewhere other waits overlaps
      · exact independent other task overlaps
    rw [processLeaderLog, if_neg current]
    refine ⟨lastIndex, ?_, items ++ [task], ?_⟩
    · rw [logged]
    · rw [perform_append]
      exact backlog.dispatch task commutes
  | handleBGWorkerWriteDB worker =>
    obtain ⟨pool, served, rfl⟩ := Option.map_eq_some_iff.mp stepped
    exact ⟨lastIndex, logged, backlog.serve served⟩

theorem replays_of_run (independent : ∀ first second : WriteDBTask,
      ¬ first.Overlaps stringmatch second → Commutes execute first second)
    (admitted : RunAdmissible (step client execute)
      (MeetsOverlaps stringmatch client execute) (initial start) labels)
    (ran : run (step client execute) (initial start) labels = some follower) :
    follower.Replays client execute start :=
  invariant_of_run (fun _ _ _ replays meets stepped =>
    replays.step independent meets stepped) (replays_initial client execute start) admitted ran

theorem Replays.db_eq (replays : follower.Replays client execute start)
    (drained : follower.Drained client) :
    follower.pool.state = perform execute follower.received start := by
  obtain ⟨_, _, _, backlog⟩ := replays
  exact backlog.state_eq fun task => drained _ (client.getHashIndex_lt _ _)

/-- Every waiting command touches its first key at most and waits at its own
worker. -/
def AtWorkers (client : ReplClient) (follower : Follower Db) : Prop :=
  follower.pool.Holds fun worker task => task.TouchesFirst ∧ task.worker client = worker

theorem AtWorkers.step (holds : follower.AtWorkers client) (single : label.TouchesFirst)
    (stepped : follower.step client execute label = some next) :
    next.AtWorkers client := by
  cases label with
  | processLeaderLog task logicId =>
    cases stepped
    unfold processLeaderLog
    split_ifs
    · exact holds
    · exact Pool.Holds.dispatch holds ⟨single, rfl⟩
  | handleBGWorkerWriteDB worker =>
    obtain ⟨pool, served, rfl⟩ := Option.map_eq_some_iff.mp stepped
    exact Pool.Holds.serve holds served

theorem AtWorkers.meetsOverlaps {label : ApplyLabel}
    (holds : follower.AtWorkers client) (single : label.TouchesFirst) :
    follower.MeetsOverlaps stringmatch client execute label := by
  cases label with
  | processLeaderLog task logicId =>
    intro worker elsewhere other waits overlaps
    obtain ⟨otherSingle, rfl⟩ := holds worker other waits
    exact absurd (overlaps.worker_eq otherSingle single client) elsewhere
  | handleBGWorkerWriteDB worker => trivial

/-- Streams of commands that touch their first key at most. -/
theorem runAdmissible_of_touchesFirst (single : ∀ label ∈ labels, label.TouchesFirst) :
    RunAdmissible (step client execute)
      (MeetsOverlaps stringmatch client execute) (initial start) labels :=
  have initially : (initial start).AtWorkers client := fun _ _ waits => nomatch waits
  runAdmissible_of_invariant (fun _ _ _ (holds : AtWorkers client _) single stepped =>
      holds.step single stepped)
    (fun _ _ holds single => holds.meetsOverlaps single) initially single

/-- In every run in which a command is scheduled only while each waiting
command with a key in common waits at the same worker or commutes with it, the
workers end with the sequential replay of the stream. -/
theorem db_eq_perform_of_run {labels : List ApplyLabel} (independent : ∀ first second : WriteDBTask,
      ¬ first.Overlaps stringmatch second → Commutes execute first second)
    (admitted : RunAdmissible (step client execute)
      (MeetsOverlaps stringmatch client execute) (initial start) labels)
    (ran : run (step client execute) (initial start) labels = some follower)
    (drained : follower.Drained client) :
    follower.pool.state = perform execute follower.received start :=
  (replays_of_run independent admitted ran).db_eq drained

end Follower

/-- An engine with `LPUSH` and `RPOPLPUSH`. -/
def listEngine (task : WriteDBTask) (db : Bytes → List Bytes) : Bytes → List Bytes :=
  let source := Command.argument task.argv 1
  let receiver := Command.argument task.argv 2
  if task.command = .lPushCmd then
    Function.update db source ((task.argv.drop 2).reverse ++ db source)
  else if task.command = .rPopLPushCmd then
    match (db source).getLast? with
    | none => db
    | some element =>
      let popped := Function.update db source (db source).dropLast
      Function.update popped receiver (element :: popped receiver)
  else db

theorem listEngine_local (stringmatch : Bytes → Bytes → Bool) (task : WriteDBTask) :
    Local (fun key => Command.touches stringmatch task.command task.argv key = true)
      (listEngine task) := by
  obtain ⟨command, argv⟩ := task
  by_cases push : command = .lPushCmd
  · subst push
    constructor
    · intro db key untouched
      simp only [Command.touches, beq_iff_eq] at untouched
      exact Function.update_of_ne (Ne.symm untouched) _ _
    · intro first second same key touched
      obtain rfl := eq_of_beq touched
      simp [listEngine, same _ touched]
  by_cases move : command = .rPopLPushCmd
  · subst move
    constructor
    · intro db key untouched
      simp only [Command.touches, List.contains_iff_mem, List.mem_pair, not_or] at untouched
      simp only [listEngine, reduceCtorEq, if_false, if_true]
      cases (db (Command.argument argv 1)).getLast? with
      | none => rfl
      | some element =>
        exact (Function.update_of_ne untouched.2 _ _).trans
          (Function.update_of_ne untouched.1 _ _)
    · intro first second same key touched
      have sourceSame := same (Command.argument argv 1) (by
        simp [Command.touches])
      have receiverSame := same (Command.argument argv 2) (by
        simp [Command.touches])
      have keySame := same key touched
      simp only [listEngine, reduceCtorEq, if_false, if_true, sourceSame]
      cases (second (Command.argument argv 1)).getLast? with
      | none => exact keySame
      | some element => simp only [Function.update_apply, keySame, receiverSame]
  · constructor
    · intro db key _
      simp only [listEngine, push, move, if_false]
    · intro first second same key touched
      simp only [listEngine, push, move, if_false]
      exact same key touched

/-- Commands of the engine on disjoint keys commute. -/
theorem listEngine_commutes (stringmatch : Bytes → Bytes → Bool) (first second : WriteDBTask)
    (disjoint : ¬ first.Overlaps stringmatch second) :
    Commutes listEngine first second :=
  (listEngine_local stringmatch first).commutes (fun task key =>
      Command.touches stringmatch task.command task.argv key = true)
    (listEngine_local stringmatch second)
    fun key inFirst inSecond => disjoint ⟨key, inFirst, inSecond⟩

/-- The workers of the example runs; keys are told apart by their last byte. -/
def lastByteClient : ReplClient where
  strHash key := (key.getLast?.getD 0).toNat
  syncThreadNum := 6
  positive := by decide

/-- `LPUSH key value`. -/
def push (key value : String) : WriteDBTask where
  command := .lPushCmd
  argv := [ascii "lpush", ascii key, ascii value]

/-- `RPOPLPUSH source receiver`. -/
def popPush (source receiver : String) : WriteDBTask where
  command := .rPopLPushCmd
  argv := [ascii "rpoplpush", ascii source, ascii receiver]

/-- Three pushes to two lists, the second list first. -/
theorem db_eq_perform_of_pushes :
    ∃ labels follower, run (Follower.step lastByteClient listEngine)
        (Follower.initial fun _ => []) labels = some follower ∧
      follower.received = [push "k" "1", push "l" "2", push "k" "3"] ∧
      follower.pool.state = perform listEngine follower.received fun _ => [] := by
  let labels : List ApplyLabel :=
    [.processLeaderLog (push "k" "1") 1, .processLeaderLog (push "l" "2") 2,
      .processLeaderLog (push "k" "3") 3, .handleBGWorkerWriteDB 6,
      .handleBGWorkerWriteDB 11, .handleBGWorkerWriteDB 11]
  have single : ∀ label ∈ labels, label.TouchesFirst := by
    simp [labels, ApplyLabel.TouchesFirst, WriteDBTask.TouchesFirst, push,
      Command.touchesFirst, Command.locksTouched]
  have ends : (run (Follower.step lastByteClient listEngine)
      (Follower.initial fun _ => []) labels).map (fun follower =>
        (follower.received, decide (follower.Drained lastByteClient))) =
      some ([push "k" "1", push "l" "2", push "k" "3"], true) := by
    decide +kernel
  obtain ⟨follower, ran, ends⟩ := Option.map_eq_some_iff.mp ends
  obtain ⟨received, drained⟩ := Prod.mk.inj ends
  exact ⟨labels, follower, ran, received,
    Follower.db_eq_perform_of_run (listEngine_commutes fun _ _ => false)
      (Follower.runAdmissible_of_touchesFirst single) ran
      (of_decide_eq_true drained)⟩

/-- `RPOPLPUSH s d` goes to the worker of `s`, and may run after a later push
to `d`. -/
theorem not_db_eq_perform_popPush :
    ∃ labels follower, run (Follower.step lastByteClient listEngine)
        (Follower.initial fun _ => []) labels = some follower ∧
      follower.received = [push "s" "1", popPush "s" "d", push "d" "2"] ∧
      follower.Drained lastByteClient ∧
      follower.pool.state ≠ perform listEngine follower.received fun _ => [] := by
  let labels : List ApplyLabel :=
    [.processLeaderLog (push "s" "1") 1, .processLeaderLog (popPush "s" "d") 2,
      .processLeaderLog (push "d" "2") 3, .handleBGWorkerWriteDB 10,
      .handleBGWorkerWriteDB 7, .handleBGWorkerWriteDB 7]
  have ends : (run (Follower.step lastByteClient listEngine)
      (Follower.initial fun _ => []) labels).map (fun follower =>
        (follower.received, decide (follower.Drained lastByteClient),
          follower.pool.state (ascii "d"))) =
      some ([push "s" "1", popPush "s" "d", push "d" "2"], true, [ascii "1", ascii "2"]) := by
    decide +kernel
  obtain ⟨follower, ran, ends⟩ := Option.map_eq_some_iff.mp ends
  obtain ⟨received, ends⟩ := Prod.mk.inj ends
  obtain ⟨drained, content⟩ := Prod.mk.inj ends
  refine ⟨labels, follower, ran, received, of_decide_eq_true drained, ?_⟩
  intro same
  rw [same, received] at content
  revert content
  decide +kernel

end Pika.Replication
