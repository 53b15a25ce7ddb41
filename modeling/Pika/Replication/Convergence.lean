import Mathlib.Tactic.IntervalCases
import Pika.Partition.Snapshot
import Pika.Replication.Apply

/-!
# Full sync and replay

A follower starts from what a bgsave has captured and replays the commands that
are recorded behind it, each worker at its own pace.  When the master is at
rest, the follower has the master's database.
-/

namespace Pika.Partition.System

open Foundation List
open Binlog (BinlogOffset Bytes)
open Replication (ApplyLabel Follower ReplClient WriteDBTask lastByteClient listEngine
  listEngine_commutes push)

variable {Id Key Db : Type*} {setup : Setup Id Key Db} {system next : System Id Key Db}

/-- The invariant of `Quiescent` runs. -/
structure Settled (setup : Setup Id Key Db) (start : Db) (system : System Id Key Db) : Prop where
  owned : system.Owned setup
  guarded : system.Guarded
  recalls : system.Recalls setup
  ordered : system.Ordered (SharesLock setup)
  consistent : system.Consistent setup start
  /-- The binlog goes on behind what a capture covers. -/
  covers : ∀ capture ∈ system.captures, covered system.entries capture.offset <+: system.jobs

theorem Consistent.covered_position (consistent : system.Consistent setup start) :
    covered system.entries system.log.position = system.jobs :=
  congrArg (map Entry.job) (filter_eq_self.mpr fun entry member =>
    decide_eq_true (consistent.behind entry member))

section Run

variable (writeBinlog : setup.writeBinlog = true)
include writeBinlog

/-- At rest, the database is the result of the binlog: it is what a bgsave
would capture. -/
theorem Settled.db_eq_replay (settled : system.Settled setup start)
    (atRest : ∀ job, (system.stage job).Succeeded → (system.stage job).Recorded)
    (locks : ∀ first second, setup.Commutes second first ∨ SharesLock setup first second) :
    system.db = setup.replay system.jobs start := by
  have taken : Consistent setup start
      { system with bgsave := .offsetTaken system.log.position } :=
    { settled.consistent with
      taken := fun _ same => ⟨(BgsaveStage.offsetTaken.inj same).symm, atRest⟩ }
  have captured := taken.setBackupContent { settled.recalls with } settled.ordered writeBinlog rfl
  have agrees := (captured.agrees _ (mem_append_right _ mem_cons_self)).inOrder locks
  rwa [settled.consistent.covered_position] at agrees

variable [DecidableEq Id] [DecidableEq Key]
variable (unchanged : ∀ job db, (setup.execute job db).2 = false → (setup.execute job db).1 = db)
include unchanged

theorem Settled.step {label : Label Id} (settled : system.Settled setup start)
    (quiescent : system.Quiescent setup label) (stepped : system.step setup label = some next) :
    next.Settled setup start := by
  obtain ⟨owned, guarded, recalls, ordered, consistent, covers⟩ := settled
  have move := move_of_step stepped
  refine ⟨owned.move move, guarded.move move, recalls.move move,
    ordered.move owned.separated recalls (fun _ _ => isWrite_of_sharesLock) move,
    consistent.move unchanged writeBinlog guarded recalls ordered quiescent move, ?_⟩
  cases move with
  | propose =>
    intro capture member
    rw [covered_append, jobs, map_append]
    · exact (covers capture member).trans (prefix_append _ _)
    · apply BinlogOffset.lt_of_not_lt_of_lt (consistent.bounded capture member)
      rw [(consistent.aligned.putSlice _ _ quiescent.number quiescent.kept).2]
      exact BinlogOffset.lt_place _ _ _
  | setBackupContent taken =>
    refine forall_mem_append.mpr ⟨covers, ?_⟩
    rintro _ (_ | ⟨_, ⟨⟩⟩)
    rw [(consistent.taken _ taken).1]
    exact consistent.covered_position ▸ prefix_rfl
  | _ => exact covers

/-- A follower that starts from a capture of the master and has replayed the
commands recorded behind it has the database of the master at rest. -/
theorem follower_db_eq_of_run (stringmatch : Bytes → Bytes → Bool) (task : Id → WriteDBTask)
    {db : Db} {capture : Capture Db} {labels : List (Label Id)} {client : ReplClient}
    {execute : WriteDBTask → Db → Db} {applied : List ApplyLabel} {follower : Follower Db}
    (does : ∀ job db, (setup.execute job db).1 = execute (task job) db)
    (independent : ∀ first second : WriteDBTask,
      ¬first.Overlaps stringmatch second → Foundation.Commutes execute first second)
    (locks : ∀ first second, setup.Commutes second first ∨ SharesLock setup first second)
    (admitted : RunAdmissible (step setup) (Quiescent setup) (initial fileSize term db) labels)
    (ran : run (step setup) (initial fileSize term db) labels = some system)
    (atRest : ∀ job, (system.stage job).Succeeded → (system.stage job).Recorded)
    (member : capture ∈ system.captures) (single : ∀ label ∈ applied, label.TouchesFirst)
    (replayed : run (Follower.step client execute) (Follower.initial capture.content) applied =
      some follower) (received : follower.received =
      (system.jobs.drop (covered system.entries capture.offset).length).map task)
    (drained : follower.Drained client) :
    follower.pool.state = system.db := by
  have settled : system.Settled setup db :=
    invariant_of_run (fun _ _ _ settled quiescent stepped =>
      settled.step writeBinlog unchanged quiescent stepped)
      ⟨owned_initial setup _ _ _, guarded_initial _ _ _, recalls_initial setup _ _ _,
        ordered_initial _ _ _, consistent_initial setup _ _ _, forall_mem_nil _⟩ admitted ran
  obtain ⟨later, jobsEq⟩ := settled.covers capture member
  rw [← jobsEq, drop_left] at received
  calc
    follower.pool.state = perform execute follower.received capture.content :=
      (Follower.replays_of_run independent (Follower.runAdmissible_of_touchesFirst single)
        replayed).db_eq drained
    _ = setup.replay later capture.content := by
      simp only [received, Setup.replay, perform, foldl_map, does]
    _ = setup.replay system.jobs db := by
      rw [(settled.consistent.agrees capture member).inOrder locks, ← jobsEq, Setup.replay,
        Setup.replay, Setup.replay, perform_append]
    _ = system.db := (settled.db_eq_replay writeBinlog atRest locks).symm

end Run

/-- Two clients push to one list, a third one to another. -/
def pushes : Fin 3 → WriteDBTask
  | 0 => push "k" "1"
  | 1 => push "k" "2"
  | 2 => push "l" "3"

def pushers : Setup (Fin 3) Bytes (Bytes → List Bytes) where
  writeBinlog := true
  isWrite _ := true
  isSuspend _ := false
  lockKeys job := [(pushes job).dispatchKey]
  execute job db := (listEngine (pushes job) db, true)
  toBinlog _ _ := [1]

/-- A capture between two pushes to one list, of which the second is served
behind a later push to another list. -/
theorem follower_db_eq_pushes :
    ∃ labels system, ∃ follower : Follower (Bytes → List Bytes),
      run (step pushers) (initial 100 0 fun _ => []) labels = some system ∧
      follower.received = [push "k" "2", push "l" "3"] ∧ follower.pool.state = system.db := by
  let client (job : Fin 3) : List (Label (Fin 3)) :=
    [.lock job, .dbRWLockReader job, .execute job, .dbRWUnLock job, .doBinlog job 0 fun _ => 0,
      .unlock job]
  let labels := client 0 ++ [.bgSavePartition, .bgsaveLock, .bgsaveOffset, .setBackupContent,
    .bgsaveUnlock] ++ client 1 ++ client 2
  have ends : (run (step pushers) (initial 100 0 fun _ => []) labels).map (fun system =>
      (decide (∀ job, system.stage job = .finished true), system.captures.map fun capture =>
        system.jobs.drop (covered system.entries capture.offset).length)) =
      some (true, [[1, 2]]) := by decide +kernel
  obtain ⟨system, ran, ends⟩ := Option.map_eq_some_iff.mp ends
  obtain ⟨finished, rest⟩ := Prod.mk.inj ends
  obtain ⟨capture, member, later⟩ := mem_map.mp (rest ▸ mem_cons_self)
  have replayed : run (Follower.step lastByteClient listEngine)
      (Follower.initial capture.content)
      [.processLeaderLog (push "k" "2") 1, .processLeaderLog (push "l" "3") 2,
        .handleBGWorkerWriteDB 6, .handleBGWorkerWriteDB 11] = some _ := rfl
  refine ⟨labels, system, _, ran, rfl, follower_db_eq_of_run rfl (by simp [pushers])
    (fun _ _ => false) pushes (fun _ _ => rfl) (listEngine_commutes _) ?_ (by decide +kernel) ran
    (fun job _ => of_decide_eq_true finished job ▸ rfl) member ?_ replayed (later ▸ rfl) ?_⟩
  · have keyed (job : Fin 3) {key : Bytes} (touched : Command.touches (fun _ _ => false)
        (pushes job).command (pushes job).argv key = true) : (pushes job).dispatchKey = key := by
      match job with
      | 0 | 1 | 2 => exact eq_of_beq touched
    intro first second
    by_cases same : (pushes first).dispatchKey = (pushes second).dispatchKey
    · exact .inr ⟨_, mem_singleton_self _, mem_singleton.mpr same⟩
    · refine .inl (listEngine_commutes (fun _ _ => false) _ _ ?_)
      rintro ⟨key, inSecond, inFirst⟩
      exact same ((keyed first inFirst).trans (keyed second inSecond).symm)
  · simp [ApplyLabel.TouchesFirst, WriteDBTask.TouchesFirst, push, Command.touchesFirst,
      Command.locksTouched]
  · intro worker (small : worker < 12)
    interval_cases worker <;> rfl

end Pika.Partition.System
