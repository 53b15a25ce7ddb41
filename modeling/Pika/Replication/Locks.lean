import Mathlib.Data.Fintype.Basic
import Pika.Foundation.LockOrder

/-!
# The locks of the replication state

Which of `state_protector_`, `tables_rw_`, the replica manager's
`partitions_rw_` and the `partition_mu_` of the slave partitions each operation
takes, and in which order.  What the operations read decides how far they go and
is given with them.
-/

namespace Pika.Replication

open Foundation
open List hiding partition

inductive ReplicaLock (Partition : Type*) where
  | stateProtector
  | tablesRw
  | partitionsRw
  | partitionMu (partition : Partition)
  deriving DecidableEq

/-- What `LostConnection` finds of a slave partition. -/
structure LostSlave (Partition : Type*) where
  partition : Partition
  sameIp : Bool
  samePort : Bool

/-- What `CheckSyncTimeout` finds of a slave partition. -/
structure TimedSlave (Partition : Type*) where
  partition : Partition
  /-- It is in a state that is kept alive and was not heard of for too long. -/
  timedOut : Bool

/-- What the state machine does with a slave partition. -/
structure SlaveTurn (Partition : Type*) where
  partition : Partition
  /-- The calls of `State()` until a branch is chosen. -/
  reads : Nat
  /-- The later uses of the partition, if `SendPartitionTrySyncRequest`,
  `SendPartitionDBSyncRequest` or `TryUpdateMasterOffset` comes to look it
  up. -/
  lookup : Option Nat

/-- An operation, with what it reads. -/
inductive ReplicaOperation (Partition : Type*) where
  | removeMaster (hasMaster : Bool) (slaves : List (LostSlave Partition))
      (partitions : List Partition)
  | setMaster
  | resetMetaSyncStatus (isSlave : Bool) (partitions : List Partition)
  | finishMetaSync
  | syncError
  | lostConnection (slaves : List (LostSlave Partition))
  /-- The replica manager's `CheckSyncTimeout`.  Its master side takes none of
  the locks. -/
  | checkSyncTimeout (slaves : List (TimedSlave Partition))
  | runSyncSlavePartitionStateMachine (turns : List (SlaveTurn Partition))

variable {Partition : Type*} [DecidableEq Partition]

/-- What an operation does with the locks. -/
abbrev Script (Partition : Type*) : Type _ := List (LockAction (ReplicaLock Partition))

/-- `state_protector_`, held for writing. -/
abbrev stateHold : Hold (ReplicaLock Partition) := { lock := .stateProtector, mode := .exclusive }

/-- `partitions_rw_`, held for reading. -/
abbrev partitionsHold : Hold (ReplicaLock Partition) := { lock := .partitionsRw, mode := .shared }

/-- A scope with `state_protector_` held for writing. -/
def withState (body : Script Partition) : Script Partition := within stateHold body

/-- A scope with `tables_rw_` held for reading. -/
def withTables (body : Script Partition) : Script Partition :=
  within { lock := .tablesRw, mode := .shared } body

/-- A scope with `partitions_rw_` held for reading. -/
def withPartitions (body : Script Partition) : Script Partition := within partitionsHold body

/-- A scope with a `partition_mu_` held. -/
def withMutex (partition : Partition) (body : Script Partition) : Script Partition :=
  within { lock := .partitionMu partition, mode := .exclusive } body

/-- `State`, `MasterIp`, `SetReplState`, `Deactivate` and the like, some times
in a row. -/
def useMutex (partition : Partition) (times : Nat) : Script Partition :=
  (List.range times).flatMap fun _ => withMutex partition []

def getSyncSlavePartitionByName : Script Partition := withPartitions []

/-- `DoSameThingEveryPartition` with `kResetReplState`. -/
def resetReplState (partitions : List Partition) : Script Partition :=
  withTables <| partitions.flatMap fun partition =>
    getSyncSlavePartitionByName ++ useMutex partition 1

/-- `LostConnection` at one slave partition. -/
def LostSlave.script (slave : LostSlave Partition) : Script Partition :=
  useMutex slave.partition
    (if slave.sameIp then if slave.samePort then 3 else 2 else 1)

def lostConnection (slaves : List (LostSlave Partition)) : Script Partition :=
  withPartitions (slaves.flatMap LostSlave.script)

/-- The slave side of `CheckSyncTimeout`, which calls
`SetLoopPartitionStateMachine` when the partition timed out. -/
def TimedSlave.script (slave : TimedSlave Partition) : Script Partition :=
  withMutex slave.partition (if slave.timedOut then withState [] else [])

/-- The state machine at one slave partition. -/
def SlaveTurn.script (turn : SlaveTurn Partition) : Script Partition :=
  useMutex turn.partition turn.reads ++ match turn.lookup with
    | none => []
    | some uses => getSyncSlavePartitionByName ++ useMutex turn.partition uses

/-- `RemoveMaster` between the lock and `DoSameThingEveryPartition`, up to
`UpdateMetaSyncTimestamp`, which takes `state_protector_` itself. -/
def dropMaster (hasMaster : Bool) (slaves : List (LostSlave Partition)) : Script Partition :=
  if hasMaster then lostConnection slaves ++ withState [] else []

/-- The locks an operation takes and releases. -/
def ReplicaOperation.script : ReplicaOperation Partition → Script Partition
  | removeMaster hasMaster slaves partitions =>
    withState (dropMaster hasMaster slaves ++ resetReplState partitions)
  | setMaster | finishMetaSync | syncError => withState []
  | resetMetaSyncStatus isSlave partitions =>
    withState (if isSlave then resetReplState partitions else [])
  | lostConnection slaves => Replication.lostConnection slaves
  | checkSyncTimeout slaves => withPartitions (slaves.flatMap TimedSlave.script)
  | runSyncSlavePartitionStateMachine turns => withPartitions (turns.flatMap SlaveTurn.script)

/-- The locks of which a thread may take the shared side again. -/
def ReplicaLock.Recursive : ReplicaLock Partition → Prop
  | tablesRw | partitionsRw => True
  | stateProtector | partitionMu _ => False

/-- The partitions an operation comes to while it holds `state_protector_`. -/
def ReplicaOperation.underState : ReplicaOperation Partition → List Partition
  | removeMaster _ _ partitions => partitions
  | resetMetaSyncStatus isSlave partitions => if isSlave then partitions else []
  | _ => []

/-- A slave partition times out. -/
def ReplicaOperation.TimesOut : ReplicaOperation Partition → Prop
  | checkSyncTimeout slaves => ∃ slave ∈ slaves, slave.timedOut = true
  | _ => False

/-- `RemoveMaster` has a master to remove. -/
def ReplicaOperation.RemovesMaster : ReplicaOperation Partition → Prop
  | removeMaster hasMaster _ _ => hasMaster = true
  | _ => False

/-- No master is removed, and either no slave partition times out or nothing
comes to a partition under `state_protector_`. -/
def KeepsLockOrder (allowed : ReplicaOperation Partition → Prop) : Prop :=
  (∀ operation, allowed operation → ¬operation.RemovesMaster) ∧
    ((∀ operation, allowed operation → ¬operation.TimesOut) ∨
      ∀ operation, allowed operation → operation.underState = [])

/-! ## Scopes are closed -/

theorem balanced_useMutex (partition : Partition) (times : Nat) :
    Balanced (useMutex partition times) :=
  Balanced.flatMap fun _ => balanced_nil.within _

theorem balanced_getSync : Balanced (getSyncSlavePartitionByName : Script Partition) :=
  balanced_nil.within _

theorem balanced_resetReplState (partitions : List Partition) :
    Balanced (resetReplState partitions) :=
  (Balanced.flatMap fun partition =>
    balanced_getSync.append (balanced_useMutex partition 1)).within _

theorem balanced_lostConnection (slaves : List (LostSlave Partition)) :
    Balanced (lostConnection slaves) :=
  (Balanced.flatMap fun _ => balanced_useMutex _ _).within _

theorem balanced_timedSlave (slave : TimedSlave Partition) : Balanced slave.script := by
  apply Balanced.within
  split_ifs
  · exact balanced_nil.within _
  · exact balanced_nil

theorem balanced_slaveTurn (turn : SlaveTurn Partition) : Balanced turn.script := by
  apply (balanced_useMutex _ _).append
  cases turn.lookup with
  | none => exact balanced_nil
  | some uses => exact balanced_getSync.append (balanced_useMutex _ _)

theorem balanced_script (operation : ReplicaOperation Partition) : Balanced operation.script := by
  cases operation with
  | removeMaster hasMaster slaves partitions =>
    apply Balanced.within
    apply Balanced.append _ (balanced_resetReplState partitions)
    unfold dropMaster
    split_ifs
    · exact (balanced_lostConnection slaves).append (balanced_nil.within _)
    · exact balanced_nil
  | resetMetaSyncStatus isSlave partitions =>
    apply Balanced.within
    split_ifs
    · exact balanced_resetReplState partitions
    · exact balanced_nil
  | lostConnection slaves => exact balanced_lostConnection slaves
  | checkSyncTimeout slaves => exact (Balanced.flatMap balanced_timedSlave).within _
  | runSyncSlavePartitionStateMachine turns =>
    exact (Balanced.flatMap balanced_slaveTurn).within _
  | setMaster | finishMetaSync | syncError => exact balanced_nil.within _

/-! ## Two orders -/

/-- The order of the operations that begin with `state_protector_`. -/
def ReplicaLock.stateFirst : ReplicaLock Partition → Nat
  | stateProtector => 0
  | tablesRw => 1
  | partitionsRw => 2
  | partitionMu _ => 3

/-- The order of the operations that begin with `partitions_rw_`. -/
def ReplicaLock.partitionsFirst : ReplicaLock Partition → Nat
  | partitionsRw => 0
  | partitionMu _ => 1
  | stateProtector => 2
  | tablesRw => 3

section Ordered

variable {rank : ReplicaLock Partition → Nat}

theorem ordered_useMutex (before : ∀ other ∈ held,
      rank other.lock < rank (.partitionMu partition)) :
    Ordered rank ReplicaLock.Recursive held (useMutex partition times) := by
  apply ordered_flatMap
  · exact fun _ => balanced_nil.within _
  · intro _ _
    exact ordered_within.mpr
      ⟨fun other member => .inl (before other member), trivial⟩

theorem ordered_lostConnection (before : ∀ other ∈ held, rank other.lock < rank .partitionsRw)
    (upward : ∀ partition, rank .partitionsRw < rank (.partitionMu partition)) :
    Ordered rank ReplicaLock.Recursive held (lostConnection slaves) := by
  apply ordered_within.mpr
  refine ⟨fun other member => .inl (before other member), ?_⟩
  apply ordered_flatMap
  · exact fun _ => balanced_useMutex _ _
  · intro slave _
    apply ordered_useMutex
    intro other member
    rcases mem_cons.mp member with rfl | outer
    · exact upward slave.partition
    · exact (before other outer).trans (upward slave.partition)

theorem ordered_stateMachine {turns : List (SlaveTurn Partition)}
    (upward : ∀ partition, rank .partitionsRw < rank (.partitionMu partition)) :
    Ordered rank ReplicaLock.Recursive []
      (withPartitions (turns.flatMap SlaveTurn.script)) := by
  have mutex : ∀ partition times, Ordered rank ReplicaLock.Recursive
      [partitionsHold] (useMutex partition times) := by
    intro partition times
    apply ordered_useMutex
    intro other member
    rw [mem_singleton.mp member]
    exact upward partition
  apply ordered_within.mpr
  refine ⟨forall_mem_nil _, ordered_flatMap balanced_slaveTurn fun turn _ => ?_⟩
  apply ordered_append.mpr
  refine ⟨mutex _ _, ?_⟩
  rw [balanced_useMutex]
  cases turn.lookup with
  | none => exact trivial
  | some uses =>
    -- The shared side of `partitions_rw_` is taken a second time.
    refine ordered_append.mpr ⟨ordered_within.mpr ⟨?_, trivial⟩, ?_⟩
    · intro other member
      rw [mem_singleton.mp member]
      exact .inr ⟨rfl, rfl, rfl, trivial⟩
    · rw [balanced_getSync]
      exact mutex _ _

theorem ordered_withState (inner : Ordered rank ReplicaLock.Recursive [stateHold] body) :
    Ordered rank ReplicaLock.Recursive [] (withState body) :=
  ordered_within.mpr ⟨forall_mem_nil _, inner⟩

theorem ordered_checkSyncTimeout {slaves : List (TimedSlave Partition)}
    (each : ∀ slave ∈ slaves, Ordered rank ReplicaLock.Recursive [partitionsHold] slave.script) :
    Ordered rank ReplicaLock.Recursive []
      (withPartitions (slaves.flatMap TimedSlave.script)) :=
  ordered_within.mpr
    ⟨forall_mem_nil _, ordered_flatMap balanced_timedSlave each⟩

end Ordered

theorem ordered_resetReplState (partitions : List Partition) :
    Ordered ReplicaLock.stateFirst ReplicaLock.Recursive [stateHold]
      (resetReplState partitions) := by
  apply ordered_within.mpr
  refine ⟨by simp [Hold.Precedes, ReplicaLock.stateFirst], ?_⟩
  apply ordered_flatMap
  · exact fun _ => balanced_getSync.append (balanced_useMutex _ _)
  · intro partition _
    apply ordered_append.mpr
    refine ⟨ordered_within.mpr ⟨?_, trivial⟩, ?_⟩
    · simp [Hold.Precedes, ReplicaLock.stateFirst]
    · rw [balanced_getSync]
      exact ordered_useMutex (by simp [ReplicaLock.stateFirst])

variable {operation : ReplicaOperation Partition}

/-- While nothing times out, `state_protector_` comes first. -/
theorem ordered_stateFirst (keeps : ¬operation.RemovesMaster) (inTime : ¬operation.TimesOut) :
    LockSystem.OrderedOperation ReplicaLock.stateFirst ReplicaLock.Recursive
      ReplicaOperation.script operation := by
  refine ⟨?_, balanced_script operation⟩
  cases operation with
  | removeMaster hasMaster slaves partitions =>
    obtain rfl : hasMaster = false := eq_false_of_ne_true keeps
    exact ordered_withState (ordered_resetReplState partitions)
  | resetMetaSyncStatus isSlave partitions =>
    apply ordered_withState
    split_ifs
    · exact ordered_resetReplState partitions
    · exact trivial
  | lostConnection slaves =>
    exact ordered_lostConnection (forall_mem_nil _) fun _ => Nat.lt_succ_self 2
  | checkSyncTimeout slaves =>
    apply ordered_checkSyncTimeout
    intro slave member
    have alive : slave.timedOut = false :=
      eq_false_of_ne_true fun late => inTime ⟨slave, member, late⟩
    rw [TimedSlave.script, alive]
    refine ordered_within.mpr ⟨?_, trivial⟩
    simp [Hold.Precedes, ReplicaLock.stateFirst]
  | runSyncSlavePartitionStateMachine turns =>
    exact ordered_stateMachine fun _ => Nat.lt_succ_self 2
  | setMaster | finishMetaSync | syncError => exact ordered_withState trivial

/-- While no partition is reached under `state_protector_`, `partitions_rw_`
comes first. -/
theorem ordered_partitionsFirst (keeps : ¬operation.RemovesMaster)
    (apart : operation.underState = []) :
    LockSystem.OrderedOperation ReplicaLock.partitionsFirst
      ReplicaLock.Recursive ReplicaOperation.script operation := by
  refine ⟨?_, balanced_script operation⟩
  have nothing : Ordered ReplicaLock.partitionsFirst ReplicaLock.Recursive
      [stateHold] (resetReplState ([] : List Partition)) := by
    refine ordered_within.mpr ⟨?_, trivial⟩
    simp [Hold.Precedes, ReplicaLock.partitionsFirst]
  cases operation with
  | removeMaster hasMaster slaves partitions =>
    obtain rfl : hasMaster = false := eq_false_of_ne_true keeps
    obtain rfl : partitions = [] := apart
    exact ordered_withState nothing
  | resetMetaSyncStatus isSlave partitions =>
    apply ordered_withState
    split_ifs with slave
    · obtain rfl : partitions = [] := by
        simpa [ReplicaOperation.underState, slave] using apart
      exact nothing
    · exact trivial
  | lostConnection slaves =>
    exact ordered_lostConnection (forall_mem_nil _) fun _ => Nat.lt_succ_self 0
  | checkSyncTimeout slaves =>
    apply ordered_checkSyncTimeout
    intro slave member
    refine ordered_within.mpr ⟨?_, ?_⟩
    · simp [Hold.Precedes, ReplicaLock.partitionsFirst]
    · split_ifs
      · refine ordered_within.mpr ⟨?_, trivial⟩
        simp [Hold.Precedes, ReplicaLock.partitionsFirst]
      · exact trivial
  | runSyncSlavePartitionStateMachine turns =>
    exact ordered_stateMachine fun _ => Nat.lt_succ_self 0
  | setMaster | finishMetaSync | syncError => exact ordered_withState trivial

/-! ## What breaks the order -/

/-- A partition that times out asks for `state_protector_` under
`partitions_rw_`. -/
theorem mem_pairsOf_of_timesOut (timesOut : operation.TimesOut) :
    ((.partitionsRw, .stateProtector) : ReplicaLock Partition × ReplicaLock Partition) ∈
      pairsOf [] operation.script := by
  cases operation with
  | checkSyncTimeout slaves =>
    obtain ⟨slave, member, late⟩ := timesOut
    apply mem_pairsOf_within
    apply mem_pairsOf_flatMap balanced_timedSlave member
    apply mem_pairsOf_within
    rw [if_pos late]
    have isHeld : partitionsHold ∈
        [{ lock := .partitionMu slave.partition, mode := .exclusive }, partitionsHold] :=
      mem_cons_of_mem _ mem_cons_self
    have different : partitionsHold.lock ≠ (stateHold : Hold (ReplicaLock Partition)).lock := nofun
    exact mem_pairsOf_acquire isHeld different
  | _ => exact timesOut.elim

theorem mem_pairsOf_resetReplState (some : partitions ≠ []) :
    ((.stateProtector, .partitionsRw) : ReplicaLock Partition × ReplicaLock Partition) ∈
      pairsOf [stateHold] (resetReplState partitions) := by
  obtain ⟨partition, member⟩ := exists_mem_of_ne_nil _ some
  apply mem_pairsOf_within
  apply mem_pairsOf_flatMap _ member
  · simp [pairsOf, getSyncSlavePartitionByName, withPartitions, within, LockAction.pairs]
  · exact fun _ => balanced_getSync.append (balanced_useMutex _ _)

/-- A partition reached under `state_protector_` is looked up under
`partitions_rw_`. -/
theorem mem_pairsOf_of_underState (keeps : ¬operation.RemovesMaster)
    (reached : operation.underState ≠ []) :
    ((.stateProtector, .partitionsRw) : ReplicaLock Partition × ReplicaLock Partition) ∈
      pairsOf [] operation.script := by
  cases operation with
  | removeMaster hasMaster slaves partitions =>
    obtain rfl : hasMaster = false := eq_false_of_ne_true keeps
    apply mem_pairsOf_within
    exact mem_pairsOf_resetReplState reached
  | resetMetaSyncStatus isSlave partitions =>
    apply mem_pairsOf_within
    cases isSlave with
    | true => exact mem_pairsOf_resetReplState reached
    | false => exact absurd rfl reached
  | _ => exact absurd rfl reached

omit [DecidableEq Partition] in
theorem not_timesOut_of_underState (reached : operation.underState ≠ []) :
    ¬operation.TimesOut := by
  cases operation with
  | checkSyncTimeout slaves => exact absurd rfl reached
  | _ => exact id

omit [DecidableEq Partition] in
theorem underState_of_timesOut (timesOut : operation.TimesOut) : operation.underState = [] := by
  by_contra reached
  exact not_timesOut_of_underState reached timesOut

section Runs

/-- The threads keep to the discipline in every interleaving of some
operations. -/
def DisciplinedRuns (Thread : Type*) [Fintype Thread] [DecidableEq Thread]
    (allowed : ReplicaOperation Partition → Prop) : Prop :=
  ∀ labels : List (LockLabel Thread (ReplicaOperation Partition)),
    (∀ label ∈ labels, label.Starts allowed) →
      RunSatisfies (LockSystem.step ReplicaOperation.script)
        (LockSystem.Disciplined ReplicaLock.Recursive) LockSystem.initial labels

variable {Thread : Type*}
variable {allowed : ReplicaOperation Partition → Prop}

/-- A thread that begins an operation and goes on for some steps. -/
def goOn (thread : Thread) (operation : ReplicaOperation Partition)
    (steps : Nat) : List (LockLabel Thread (ReplicaOperation Partition)) :=
  .start thread operation :: List.replicate steps (.act thread)

omit [DecidableEq Partition] in
theorem starts_goOn (isAllowed : allowed operation) :
    ∀ label ∈ goOn thread operation steps, label.Starts allowed := by
  intro label member
  rcases mem_cons.mp member with rfl | acts
  · exact isAllowed
  · rw [eq_of_mem_replicate acts]
    exact trivial

variable [Fintype Thread] [DecidableEq Thread]

/-- `RemoveMaster` waits for the lock it holds. -/
theorem not_removesMaster_of_disciplined [Inhabited Thread]
    (disciplined : DisciplinedRuns Thread allowed) (isAllowed : allowed operation) :
    ¬operation.RemovesMaster := by
  intro removes
  cases operation with
  | removeMaster hasMaster slaves partitions =>
    obtain rfl : hasMaster = true := removes
    let first : Script Partition := .acquire stateHold :: lostConnection slaves
    let rest : Script Partition :=
      withState [] ++ resetReplState partitions ++ [.release .stateProtector]
    have scriptEq : (ReplicaOperation.removeMaster true slaves
        partitions).script = first ++ rest := by
      simp [ReplicaOperation.script, withState, within, dropMaster, first, rest]
    have ordered : Ordered ReplicaLock.stateFirst ReplicaLock.Recursive []
        first :=
      ⟨forall_mem_nil _, ordered_lostConnection (by simp [ReplicaLock.stateFirst])
        fun _ => Nat.lt_succ_self 2⟩
    have stopped := (disciplined (goOn default _ first.length)
      (starts_goOn isAllowed)).of_run
        (LockSystem.run_start_alone (fun _ => rfl) scriptEq ordered)
    have isHeld : heldAfter [] first = [stateHold] :=
      balanced_lostConnection slaves _
    refine stopped.once default stateHold ?_ stateHold ?_ rfl
    · exact ⟨_, by simp [rest, withState, within]; rfl⟩
    · simp [isHeld]
  | _ => exact removes

/-- The two orders cannot both be used. -/
theorem separate_of_disciplined [Inhabited Thread] (disciplined : DisciplinedRuns Thread allowed)
    (isAllowed : allowed operation) (otherAllowed : allowed other) (timesOut : operation.TimesOut) :
    other.underState = [] := by
  by_contra reached
  have keeps := not_removesMaster_of_disciplined disciplined isAllowed
  have otherKeeps := not_removesMaster_of_disciplined disciplined otherAllowed
  let labels := goOn (default : Thread) operation operation.script.length
  let later := goOn (default : Thread) other other.script.length
  let between : LockSystem Thread (ReplicaLock Partition) :=
    { LockSystem.initial with nested := pairsOf [] operation.script }
  let last : LockSystem Thread (ReplicaLock Partition) :=
    { between with nested := pairsOf [] operation.script ++ pairsOf [] other.script }
  have first : run (LockSystem.step ReplicaOperation.script)
      LockSystem.initial labels = some between :=
    LockSystem.run_operation_alone (fun _ => rfl)
      (ordered_partitionsFirst keeps (underState_of_timesOut timesOut))
  have second : run (LockSystem.step ReplicaOperation.script)
      between later = some last :=
    LockSystem.run_operation_alone (fun _ => rfl)
      (ordered_stateFirst otherKeeps (not_timesOut_of_underState reached))
  have both : ∀ label ∈ labels ++ later, label.Starts allowed := by
    intro label member
    rcases mem_append.mp member with early | late
    · exact starts_goOn isAllowed label early
    · exact starts_goOn otherAllowed label late
  have ran : run (LockSystem.step ReplicaOperation.script)
      LockSystem.initial (labels ++ later) = some last := by
    rw [run_append, first, Option.bind_some, second]
  have stopped := (disciplined _ both).of_run ran
  have up : ((.partitionsRw, .stateProtector) :
      ReplicaLock Partition × ReplicaLock Partition) ∈ last.nested :=
    mem_append_left _ (mem_pairsOf_of_timesOut timesOut)
  have down : ((.stateProtector, .partitionsRw) :
      ReplicaLock Partition × ReplicaLock Partition) ∈ last.nested :=
    mem_append_right _ (mem_pairsOf_of_underState otherKeeps reached)
  exact stopped.acyclic .partitionsRw (.tail (.single up) down)

/-- The threads keep to the discipline in every interleaving exactly when no
master is removed and the two orders of locks are not both used. -/
theorem disciplined_iff_keepsLockOrder
    (Thread : Type*) [Fintype Thread] [DecidableEq Thread] [Inhabited Thread]
    (allowed : ReplicaOperation Partition → Prop) :
    DisciplinedRuns Thread allowed ↔ KeepsLockOrder allowed := by
  constructor
  · intro disciplined
    refine ⟨fun operation isAllowed => not_removesMaster_of_disciplined disciplined isAllowed, ?_⟩
    by_contra both
    rw [not_or] at both
    apply both.1
    intro operation isAllowed timesOut
    apply both.2
    intro other otherAllowed
    exact separate_of_disciplined disciplined isAllowed otherAllowed timesOut
  · rintro ⟨keeps, inTime | apart⟩ labels starts
    · exact LockSystem.disciplined_of_ordered fun label member =>
        (starts label member).mono fun operation isAllowed =>
          ordered_stateFirst (keeps operation isAllowed)
            (inTime operation isAllowed)
    · exact LockSystem.disciplined_of_ordered fun label member =>
        (starts label member).mono fun operation isAllowed =>
          ordered_partitionsFirst (keeps operation isAllowed)
            (apart operation isAllowed)

end Runs

/-- `ResetMetaSyncStatus` comes to a partition while `CheckSyncTimeout` finds
that it timed out. -/
def crossing : List (LockLabel (Fin 2) (ReplicaOperation Unit)) :=
  [.start 0 (.resetMetaSyncStatus true [()]),
    .start 1 (.checkSyncTimeout [{ partition := (), timedOut := true }]),
    .act 0, .act 0, .act 0, .act 0, .act 1, .act 1]

/-- Each thread has the lock the other one waits for. -/
theorem not_disciplined_crossing :
    ∃ stop, run (LockSystem.step ReplicaOperation.script) LockSystem.initial
        crossing = some stop ∧
      stop.WaitsFor 0 1 ∧ stop.WaitsFor 1 0 ∧ ¬stop.Disciplined ReplicaLock.Recursive := by
  let mutex : Hold (ReplicaLock Unit) := { lock := .partitionMu (), mode := .exclusive }
  have ends : (run (LockSystem.step ReplicaOperation.script)
      LockSystem.initial crossing).map (fun stop => (stop.threads 0, stop.threads 1)) = some
        ({ held := [{ lock := .tablesRw, mode := .shared }, stateHold]
           script := [.acquire mutex, .release (.partitionMu ()),
             .release .tablesRw, .release .stateProtector] },
         { held := [mutex, partitionsHold]
           script := [.acquire stateHold, .release .stateProtector,
             .release (.partitionMu ()), .release .partitionsRw] }) := by
    decide
  obtain ⟨stop, ran, threads⟩ := Option.map_eq_some_iff.mp ends
  obtain ⟨first, second⟩ := Prod.mk.inj threads
  have waits : stop.WaitsFor 0 1 :=
    ⟨by decide, mutex, mutex, ⟨_, congrArg ThreadState.script first⟩,
      by simp [second], rfl, .inl rfl⟩
  have waitsToo : stop.WaitsFor 1 0 :=
    ⟨by decide, stateHold, stateHold, ⟨_, congrArg ThreadState.script second⟩,
      by simp [first], rfl, .inl rfl⟩
  refine ⟨stop, ran, waits, waitsToo, fun disciplined => ?_⟩
  apply disciplined.noDeadlock Finset.univ Finset.univ_nonempty
  intro thread _
  match thread with
  | 0 => exact ⟨1, Finset.mem_univ _, waits⟩
  | 1 => exact ⟨0, Finset.mem_univ _, waitsToo⟩

end Pika.Replication
