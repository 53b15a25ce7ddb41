import Pika.Command.Keys
import Pika.Partition.Order

/-!
# Conflicting commands of one partition

The command classes at the partition machine.  Whether conflicting writes are
recorded in the order of their `Do` depends on whether their `current_key()`s
meet: the classes that lock every key they touch keep the order in every run.
-/

namespace Pika.Partition

open Foundation
open Binlog (Bytes BinlogItem)

variable {Id Db : Type*}

/-- The machine's view of requests. -/
def requestSetup (classicMode writeBinlog : Bool)
    (requests : Id → Command.Request) (execute : Id → Db → Db × Bool)
    (toBinlog : Id → BinlogItem → Bytes) : Setup Id Bytes Db where
  writeBinlog := writeBinlog
  isWrite job := (requests job).command.isWrite
  isSuspend job := (requests job).command.isSuspend
  lockKeys job := (requests job).lockKeys classicMode
  execute := execute
  toBinlog := toBinlog

/-- Two requests conflict. -/
def conflicting (stringmatch : Bytes → Bytes → Bool) (classicMode : Bool)
    (requests : Id → Command.Request) (first second : Id) : Prop :=
  (requests first).Conflicts stringmatch classicMode (requests second)

variable {stringmatch : Bytes → Bytes → Bool} {classicMode writeBinlog : Bool}
variable {requests : Id → Command.Request} {execute : Id → Db → Db × Bool}
variable {toBinlog : Id → BinlogItem → Bytes}

/-- Conflicting requests that lock what they touch have a lock in common. -/
theorem sharesLock_of_locksTouched
    (conflicts : conflicting stringmatch classicMode requests first second)
    (firstLocks : Command.locksTouched (requests first).command = true)
    (secondLocks : Command.locksTouched (requests second).command = true) :
    System.SharesLock (requestSetup classicMode writeBinlog requests execute toBinlog)
      first second := by
  obtain ⟨key, inFirst, inSecond⟩ := conflicts.common_lockKey firstLocks secondLocks
  obtain ⟨firstWrite, secondWrite, _⟩ := conflicts
  refine ⟨key, ?_, ?_⟩
  · rwa [Setup.recordKeys, if_pos (by exact firstWrite)]
  · rwa [Setup.recordKeys, if_pos (by exact secondWrite)]

theorem locksConflicts_of_locksTouched
    (locks : ∀ job, Command.locksTouched (requests job).command = true)
    (system : System Id Bytes Db) (label : Label Id) :
    system.LocksConflicts (requestSetup classicMode writeBinlog requests execute toBinlog)
      (conflicting stringmatch classicMode requests) label := by
  cases label with
  | lock job =>
    rintro other _ (conflicts | conflicts)
    · exact sharesLock_of_locksTouched conflicts (locks other) (locks job)
    · exact sharesLock_of_locksTouched conflicts.symm (locks other) (locks job)
  | _ => trivial

variable [DecidableEq Id]

/-- In every run in which a write takes its record locks only while it has a
lock in common with every conflicting write in progress, conflicting writes are
recorded in the order of their `Do`. -/
theorem binlogOrder_of_run {fileSize term : Nat} {labels : List (Label Id)}
    {db : Db} {system : System Id Bytes Db} (admitted : RunAdmissible (System.step
        (requestSetup classicMode writeBinlog requests execute toBinlog))
      (System.LocksConflicts (requestSetup classicMode writeBinlog requests execute toBinlog)
        (conflicting stringmatch classicMode requests))
      (System.initial fileSize term db) labels)
    (ran : run (System.step (requestSetup classicMode writeBinlog requests execute toBinlog))
        (System.initial fileSize term db) labels = some system) :
    system.KeepsOrder (conflicting stringmatch classicMode requests) :=
  System.keepsOrder_of_run (fun _ _ conflicts => conflicts.1) admitted ran

/-- `LPUSH l 0` and `LPUSH l 1`. -/
def pushes (job : Fin 2) : Command.Request where
  command := .lPushCmd
  argv := [ascii "lpush", ascii "l", [UInt8.ofNat job]]
  hintKeys := []

/-- Two threads that push to one list, the second waiting for the first. -/
theorem binlogOrder_of_pushes :
    ∃ labels system, run (System.step (requestSetup true true pushes
          (fun job (list : List Nat) => (job.val :: list, true))
          fun job _ => [UInt8.ofNat job]))
        (System.initial 100 0 []) labels = some system ∧
        system.executed = [1, 0] ∧ system.jobs = [1, 0] ∧
        system.KeepsOrder (conflicting (fun _ _ => false) true pushes) := by
  let setup := requestSetup true true pushes
    (fun job (list : List Nat) => (job.val :: list, true))
    fun job _ => [UInt8.ofNat job]
  let labels : List (Label (Fin 2)) :=
    [.lock 1, .dbRWLockReader 1, .execute 1, .dbRWUnLock 1,
      .doBinlog 1 0 fun _ => 0, .unlock 1, .lock 0, .dbRWLockReader 0,
      .execute 0, .dbRWUnLock 0, .doBinlog 0 0 fun _ => 0]
  have histories : (run (System.step setup) (System.initial 100 0 [])
      labels).map (fun system => (system.executed, system.jobs)) = some ([1, 0], [1, 0]) := by
    decide +kernel
  obtain ⟨system, ran, histories⟩ := Option.map_eq_some_iff.mp histories
  obtain ⟨executed, jobs⟩ := Prod.mk.inj histories
  exact ⟨labels, system, ran, executed, jobs, binlogOrder_of_run (runAdmissible_of_forall
      (locksConflicts_of_locksTouched fun _ => rfl) _ _) ran⟩

/-- `RPOPLPUSH s d` and `LPUSH d x`. -/
def moveAndPush : Fin 2 → Command.Request
  | 0 =>
    { command := .rPopLPushCmd, argv := [ascii "rpoplpush", ascii "s", ascii "d"], hintKeys := [] }
  | 1 =>
    { command := .lPushCmd, argv := [ascii "lpush", ascii "d", ascii "x"], hintKeys := [] }

/-- `RPOPLPUSH` locks its source only: it can be recorded behind a later push
to its receiver. -/
theorem not_keepsOrder_rPopLPush :
    ∃ labels system, run (System.step (requestSetup true true moveAndPush
          (fun job (list : List Nat) => (job.val :: list, true))
          fun job _ => [UInt8.ofNat job]))
        (System.initial 100 0 []) labels = some system ∧
        ¬ system.KeepsOrder (conflicting (fun _ _ => false) true moveAndPush) := by
  let setup := requestSetup true true moveAndPush
    (fun job (list : List Nat) => (job.val :: list, true))
    fun job _ => [UInt8.ofNat job]
  let labels : List (Label (Fin 2)) :=
    [.lock 0, .dbRWLockReader 0, .execute 0, .dbRWUnLock 0, .lock 1,
      .dbRWLockReader 1, .execute 1, .dbRWUnLock 1,
      .doBinlog 1 0 fun _ => 0, .unlock 1, .doBinlog 0 0 fun _ => 0]
  have histories : (run (System.step setup) (System.initial 100 0 [])
      labels).map (fun system => (system.executed, system.jobs)) = some ([0, 1], [1, 0]) := by
    decide +kernel
  obtain ⟨system, ran, histories⟩ := Option.map_eq_some_iff.mp histories
  obtain ⟨executed, jobs⟩ := Prod.mk.inj histories
  refine ⟨labels, system, ran, ?_⟩
  intro keeps
  have conflicts : conflicting (fun _ _ => false) true moveAndPush 0 1 :=
    ⟨by decide, by decide, .inr (.inr ⟨ascii "d", by decide, by decide⟩)⟩
  have ordered := keeps 0 1 conflicts (by rw [executed]; exact List.Sublist.refl _)
    (by rw [jobs]; decide)
  rw [jobs, Precedes] at ordered
  revert ordered
  decide

end Pika.Partition
