import Mathlib.Data.Finset.Basic
import Pika.Command.Keys
import Pika.Foundation.Transition

/-!
# Full syncs under way

The master keeps the indexes of the full syncs that are scheduled or running and
schedules no second one of an index.  The background thread runs them one after
the other; what it takes out of the set at the end depends on how a run ends.
-/

namespace Pika.Replication

open Foundation List
open Binlog (Bytes)
open Command (cString)

/-- `DBSyncArg`. -/
structure DbSyncTask where
  ip : Bytes
  port : BitVec 32
  tableName : Bytes
  partitionId : BitVec 32
  deriving DecidableEq

/-- `DbSyncTaskIndex`.  The buffer has room for 255 bytes. -/
def DbSyncTask.index (task : DbSyncTask) : Bytes :=
  (cString task.ip ++ ascii ":" ++ decimalInt task.port.toInt ++ ascii "_" ++
    cString task.tableName ++ ascii ":" ++ decimalInt task.partitionId.toInt).take 255

/-- What a run of `DbSyncSendFile` meets. -/
structure SendRun where
  partitionFound : Bool
  /-- `GetChildren` of the dump, unless it fails. -/
  children : Option (List Bytes)
  /-- `RsyncSendFile` of a child succeeds. -/
  send : Bytes → Bool
  /-- That of the info file, as it is or with another ip. -/
  sendInfo : Bool

def kBgsaveInfoFile : Bytes := ascii "info"

/-- The loop over the children, which leaves the info file out and ends at the
first failure. -/
def sendChildren (send : Bytes → Bool) : List Bytes → Bool
  | [] => true
  | child :: children =>
    if child = kBgsaveInfoFile then sendChildren send children
    else if send child then sendChildren send children
    else false

/-- `DbSyncSendFile`: whether everything was sent, and the set of indexes. -/
def dbSyncSendFile (ipPortString : Bytes → BitVec 32 → Bytes) (run : SendRun)
    (task : DbSyncTask) (slaves : Finset Bytes) : Bool × Finset Bytes :=
  if run.partitionFound = false then (false, slaves)
  else
    match run.children with
    | none => (false, slaves.erase (ipPortString task.ip task.port))
    | some children => (sendChildren run.send children && run.sendInfo, slaves.erase task.index)

/-- The set of indexes and the tasks of the background thread. -/
structure DbSyncServer where
  slaves : Finset Bytes
  tasks : List DbSyncTask

inductive DbSyncLabel where
  | tryDBSync (partitionFound : Bool) (task : DbSyncTask)
  /-- The first task comes to its end. -/
  | sendFile (run : SendRun)

namespace DbSyncServer

/-- Before the first request. -/
def initial : DbSyncServer where
  slaves := ∅
  tasks := []

def dbSync (task : DbSyncTask) (server : DbSyncServer) : DbSyncServer :=
  if task.index ∈ server.slaves then server
  else
    { slaves := insert task.index server.slaves, tasks := server.tasks ++ [task] }

def step (ipPortString : Bytes → BitVec 32 → Bytes) (server : DbSyncServer) :
    DbSyncLabel → Option DbSyncServer
  | .tryDBSync partitionFound task => some (if partitionFound then server.dbSync task else server)
  | .sendFile run =>
    match server.tasks with
    | [] => none
    | task :: tasks =>
      some
        { slaves := (dbSyncSendFile ipPortString run task server.slaves).2, tasks := tasks }

/-- The set has the indexes of the tasks, each index has one task, and an index
without a task is free for a new one. -/
structure Exact (server : DbSyncServer) : Prop where
  members : ∀ index, index ∈ server.slaves ↔ ∃ task ∈ server.tasks, task.index = index
  single : (server.tasks.map DbSyncTask.index).Nodup
  available : ∀ task, (∀ other ∈ server.tasks, other.index ≠ task.index) →
    (server.dbSync task).tasks = server.tasks ++ [task]

/-- The partition of the task that ends is there, and its dump can be listed or
the text that is taken out is its index. -/
def Releases (ipPortString : Bytes → BitVec 32 → Bytes) (server : DbSyncServer) :
    DbSyncLabel → Prop
  | .tryDBSync _ _ => True
  | .sendFile run =>
    ∀ task, server.tasks.head? = some task → run.partitionFound = true ∧
        (run.children = none → ipPortString task.ip task.port = task.index)

variable {ipPortString : Bytes → BitVec 32 → Bytes}
variable {server : DbSyncServer}

theorem exact_of_members (members : ∀ index, index ∈ server.slaves ↔
      ∃ task ∈ server.tasks, task.index = index)
    (single : (server.tasks.map DbSyncTask.index).Nodup) :
    server.Exact where
  members := members
  single := single
  available task others := by
    rw [dbSync, if_neg]
    intro member
    obtain ⟨other, isTask, same⟩ := (members _).mp member
    exact others other isTask same

theorem exact_initial : initial.Exact := exact_of_members (by simp [initial]) (by simp [initial])

theorem Exact.dbSync (exact : server.Exact) (task : DbSyncTask) : (server.dbSync task).Exact := by
  unfold DbSyncServer.dbSync
  split_ifs with member
  · exact exact
  · apply exact_of_members
    · intro index
      rw [Finset.mem_insert, exact.members]
      constructor
      · rintro (rfl | ⟨other, isTask, same⟩)
        · exact ⟨task, mem_append_right _ mem_cons_self, rfl⟩
        · exact ⟨other, mem_append_left _ isTask, same⟩
      · rintro ⟨other, isTask, rfl⟩
        rcases mem_append.mp isTask with old | new
        · exact .inr ⟨other, old, rfl⟩
        · rw [mem_singleton.mp new]
          exact .inl rfl
    · rw [map_append, map_singleton, nodup_append_comm,
        singleton_append, nodup_cons]
      refine ⟨fun isIndex => ?_, exact.single⟩
      obtain ⟨other, isTask, same⟩ := mem_map.mp isIndex
      exact member ((exact.members _).mpr ⟨other, isTask, same⟩)

theorem Exact.erase {task : DbSyncTask} {tasks : List DbSyncTask}
    (exact : server.Exact) (first : server.tasks = task :: tasks) :
    Exact { slaves := server.slaves.erase task.index, tasks := tasks } := by
  have single := exact.single
  rw [first, map_cons, nodup_cons] at single
  apply exact_of_members _ single.2
  intro index
  rw [Finset.mem_erase, exact.members, first]
  constructor
  · rintro ⟨different, other, isTask, rfl⟩
    rcases mem_cons.mp isTask with rfl | later
    · exact absurd rfl different
    · exact ⟨other, later, rfl⟩
  · rintro ⟨other, isTask, rfl⟩
    refine ⟨fun same => single.1 ?_, other, mem_cons_of_mem _ isTask, rfl⟩
    exact mem_map.mpr ⟨other, isTask, same⟩

theorem Exact.not_exact_of_mem {task : DbSyncTask} {tasks : List DbSyncTask}
    {slaves : Finset Bytes} (exact : server.Exact)
    (first : server.tasks = task :: tasks) (stays : task.index ∈ slaves) :
    ¬Exact { slaves := slaves, tasks := tasks } := by
  have single := exact.single
  rw [first, map_cons, nodup_cons] at single
  intro later
  obtain ⟨other, isTask, same⟩ := (later.members _).mp stays
  exact single.1 (mem_map.mpr ⟨other, isTask, same⟩)

theorem Exact.step {next : DbSyncServer} (exact : server.Exact)
    (releases : server.Releases ipPortString label)
    (stepped : server.step ipPortString label = some next) :
    next.Exact := by
  cases label with
  | tryDBSync partitionFound task =>
    cases stepped
    split_ifs
    · exact exact.dbSync task
    · exact exact
  | sendFile run =>
    cases first : server.tasks with
    | nil => simp [DbSyncServer.step, first] at stepped
    | cons task tasks =>
      obtain ⟨found, listed⟩ := releases task (by simp [first])
      simp only [DbSyncServer.step, first, Option.some.injEq] at stepped
      subst stepped
      simp only [dbSyncSendFile, found, Bool.true_eq_false, if_false]
      cases children : run.children with
      | none =>
        rw [listed children]
        exact exact.erase first
      | some children => exact exact.erase first

/-- An index that is not taken out is noticed. -/
theorem Exact.exists_step {label : DbSyncLabel} (exact : server.Exact)
    (keeps : ¬server.Releases ipPortString label) :
    ∃ next, server.step ipPortString label = some next ∧ ¬next.Exact := by
  cases label with
  | tryDBSync partitionFound task => exact absurd trivial keeps
  | sendFile run =>
    simp only [Releases, not_forall] at keeps
    obtain ⟨task, isFirst, wrong⟩ := keeps
    obtain ⟨tasks, first⟩ := List.head?_eq_some_iff.mp isFirst
    refine ⟨_, by rw [DbSyncServer.step, first], ?_⟩
    apply exact.not_exact_of_mem first
    have isIndex : task.index ∈ server.slaves := (exact.members _).mpr ⟨task, by simp [first], rfl⟩
    unfold dbSyncSendFile
    split_ifs with missing
    · exact isIndex
    · cases children : run.children with
      | none =>
        refine Finset.mem_erase.mpr ⟨fun same => wrong ?_, isIndex⟩
        exact ⟨eq_true_of_ne_false missing, fun _ => same.symm⟩
      | some children => exact absurd ⟨eq_true_of_ne_false missing, by simp [children]⟩ wrong

/-- The set is exact in every run exactly when every task that ends finds its
partition and can list its dump, or takes out its index all the same. -/
theorem exact_iff_releases (ipPortString : Bytes → BitVec 32 → Bytes) (labels : List DbSyncLabel) :
    RunSatisfies (step ipPortString) Exact initial labels ↔
      RunAdmissible (step ipPortString) (Releases ipPortString) initial
        labels :=
  runSatisfies_iff_runSafe id Exact.step Exact.exists_step exact_initial

/-- A slave that asks for `db0`. -/
def askingSlave : DbSyncTask where
  ip := ascii "10.0.0.2"
  port := 10221
  tableName := ascii "db0"
  partitionId := 0

/-- `ip:port`. -/
def ipPort (ip : Bytes) (port : BitVec 32) : Bytes := ip ++ ascii ":" ++ decimalInt port.toInt

/-- The dump cannot be listed, and the slave asks again. -/
def askAgain : List DbSyncLabel :=
  [.tryDBSync true askingSlave, .sendFile
      { partitionFound := true, children := none, send := fun _ => true, sendInfo := true },
    .tryDBSync true askingSlave]

theorem index_ne_ipPort : askingSlave.index ≠ ipPort askingSlave.ip askingSlave.port := by
  have numeral : decimalInt 10221 = ascii "10221" := by simp [decimalInt, decimal, digitByte, ascii]
  have zero : decimalInt 0 = ascii "0" := by simp [decimalInt, decimal, digitByte, ascii]
  have port : askingSlave.port.toInt = 10221 := by decide
  have partitionId : askingSlave.partitionId.toInt = 0 := by decide
  rw [DbSyncTask.index, ipPort, port, partitionId, numeral, zero]
  decide

/-- The second request schedules nothing, although no task is left. -/
theorem not_exact_askAgain :
    run (step ipPort) initial askAgain = some { slaves := {askingSlave.index}, tasks := [] } ∧
      ¬Exact { slaves := {askingSlave.index}, tasks := [] } := by
  constructor
  · have stays : ({askingSlave.index} : Finset Bytes).erase
        (ipPort askingSlave.ip askingSlave.port) = {askingSlave.index} := by
      apply Finset.erase_eq_of_notMem
      rw [Finset.mem_singleton]
      exact index_ne_ipPort.symm
    simp [askAgain, step, initial, dbSync, dbSyncSendFile, stays]
  · intro exact
    obtain ⟨task, isTask, -⟩ := (exact.members askingSlave.index).mp (Finset.mem_singleton_self _)
    cases isTask

end DbSyncServer

end Pika.Replication
