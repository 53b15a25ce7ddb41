import Pika.Partition.Exclusion

/-!
# The order of the binlog

Commands with a record lock in common are recorded in the order in which they
are executed: the lock is held from before `Do` to behind `DoBinlog`.
-/

namespace Pika.Partition

open Foundation Binlog
namespace System

variable {Id Key Db : Type*}

/-- Two commands take a record lock in common. -/
def SharesLock (setup : Setup Id Key Db) (first second : Id) : Prop :=
  ∃ key ∈ setup.recordKeys first, key ∈ setup.recordKeys second

/-- No two commands that conflict hold their record locks at once. -/
def Separated (conflict : Id → Id → Prop) (system : System Id Key Db) : Prop :=
  ∀ first second, first ≠ second → (system.stage first).Holding → (system.stage second).Holding →
        ¬ conflict first second

/-- Of two executed commands that conflict the first has finished, and its
record comes first. -/
def Ordered (conflict : Id → Id → Prop) (system : System Id Key Db) : Prop :=
  ∀ first second, Precedes system.executed first second → conflict first second →
        system.stage first = .finished true ∧
          (second ∈ system.jobs → Precedes system.jobs first second)

variable {conflict : Id → Id → Prop}

theorem separated_initial (fileSize term : Nat) (db : Db) :
    (initial fileSize term db : System Id Key Db).Separated conflict :=
  fun _ _ _ holding => holding.elim

theorem ordered_initial (fileSize term : Nat) (db : Db) :
    (initial fileSize term db : System Id Key Db).Ordered conflict :=
  fun _ _ precedes => nomatch precedes.left_mem

variable {setup : Setup Id Key Db} {system next : System Id Key Db}

theorem isWrite_of_sharesLock (shares : SharesLock setup first second) :
    setup.isWrite first = true := by
  obtain ⟨key, member, _⟩ := shares
  unfold Setup.recordKeys at member
  split_ifs at member with write
  · exact write
  · cases member

theorem Owned.separated (owned : system.Owned setup) : system.Separated (SharesLock setup) := by
  rintro first second different firstHolding secondHolding ⟨key, firstMember, secondMember⟩
  exact different (owned.eq_of_common firstHolding secondHolding firstMember secondMember)

/-- A thread that holds its record locks has only finished commands executed
before it that conflict with it. -/
theorem Separated.finished_of_executed (separated : system.Separated conflict)
    (recalls : system.Recalls setup) (member : first ∈ system.executed)
    (holding : (system.stage second).Holding) (different : first ≠ second)
    (conflicts : conflict first second) :
    system.stage first = .finished true := by
  have released : ¬ (system.stage first).Holding := fun firstHolding =>
    separated first second different firstHolding holding conflicts
  have succeeded := (recalls.mem_executed first).mp member
  cases stage : system.stage first with
  | finished ok =>
    rw [stage] at succeeded
    rw [show ok = true from succeeded]
  | waiting =>
    rw [stage] at succeeded
    exact succeeded.elim
  | _ =>
    rw [stage] at released
    exact (released trivial).elim

variable [DecidableEq Id]

theorem Separated.restage {job : Id} {stage : Stage} (separated : system.Separated conflict)
    (holding : (system.stage job).Holding)
    (stageEq : next.stage = Function.update system.stage job stage) :
    next.Separated conflict := by
  have before : ∀ other, (next.stage other).Holding → (system.stage other).Holding := by
    intro other otherHolding
    rcases eq_or_ne other job with rfl | different
    · exact holding
    · rwa [stageEq, Function.update_of_ne different] at otherHolding
  intro first second different firstHolding secondHolding
  exact separated first second different (before first firstHolding) (before second secondHolding)

section

variable (ordered : system.Ordered conflict)
include ordered

theorem Ordered.restage {job : Id} {stage : Stage} (unfinished : system.stage job ≠ .finished true)
    (stageEq : next.stage = Function.update system.stage job stage)
    (executedEq : next.executed = system.executed) (jobsEq : next.jobs = system.jobs) :
    next.Ordered conflict := by
  intro first second precedes conflicts
  rw [executedEq] at precedes
  obtain ⟨finished, recorded⟩ := ordered first second precedes conflicts
  have different : first ≠ job := by
    rintro rfl
    exact unfinished finished
  rw [stageEq, Function.update_of_ne different, jobsEq]
  exact ⟨finished, recorded⟩

theorem Ordered.executeDo {job : Id} {stage : Bool → Stage} {result : Db × Bool}
    (separated : system.Separated conflict) (recalls : system.Recalls setup)
    (holding : (system.stage job).Holding) (before : ¬(system.stage job).Succeeded) :
    (system.executeDo job stage result).Ordered conflict := by
  have fresh : job ∉ system.executed := by rwa [recalls.mem_executed]
  have unrecorded : job ∉ system.jobs := by
    intro member
    have recorded := ((recalls.mem_jobs job).mp member).1
    cases stage : system.stage job <;> simp_all [Stage.Recorded, Stage.Succeeded]
  have stays : ∀ {other}, other ≠ job →
      (system.executeDo job stage result).stage other = system.stage other := by
    intro other different
    exact Function.update_of_ne different _ _
  intro first second precedes conflicts
  have earlier : Precedes system.executed first second ∨
      first ∈ system.executed ∧ second = job := by
    obtain ⟨db, ok⟩ := result
    cases ok
    · exact .inl precedes
    · exact precedes.of_append
  rcases earlier with precedes | ⟨member, rfl⟩
  · obtain ⟨finished, recorded⟩ := ordered first second precedes conflicts
    have different : first ≠ job := fun same => fresh (same ▸ precedes.left_mem)
    rw [stays different]
    exact ⟨finished, recorded⟩
  · have different : first ≠ second := fun same => fresh (same ▸ member)
    rw [stays different]
    exact ⟨separated.finished_of_executed recalls member holding different conflicts,
      fun recorded => absurd recorded unrecorded⟩

theorem Ordered.propose {job : Id} {log : Binlog} {position : BinlogOffset}
    (recalls : system.Recalls setup)
    (writes : ∀ first second, conflict first second → setup.isWrite first = true)
    (released : system.stage job = .released true) (writeBinlog : setup.writeBinlog = true) :
    Ordered conflict { system.goto job (.logged true) with
      log := log
      entries := system.entries ++ [{ job := job, position := position }] } := by
  intro first second precedes conflicts
  obtain ⟨finished, recorded⟩ := ordered first second precedes conflicts
  have different : first ≠ job := by
    rintro rfl
    rw [released] at finished
    cases finished
  have jobsEq : System.jobs { system.goto job (.logged true) with
      log := log
      entries := system.entries ++
        [{ job := job, position := position }] } = system.jobs ++ [job] := by
    simp [jobs]
  refine ⟨(Function.update_of_ne different _ _).trans finished, ?_⟩
  rw [jobsEq]
  intro member
  rcases List.mem_append.mp member with earlier | last
  · exact (recorded earlier).append [job]
  · obtain rfl := List.mem_singleton.mp last
    apply Precedes.of_mem
    rw [recalls.mem_jobs, finished]
    exact ⟨rfl, writes first second conflicts, writeBinlog⟩

theorem Ordered.move [DecidableEq Key] {label : Label Id} (separated : system.Separated conflict)
    (recalls : system.Recalls setup)
    (writes : ∀ first second, conflict first second → setup.isWrite first = true)
    (move : Move setup system label next) :
    next.Ordered conflict := by
  cases move with
  | lock before | dbRWLockReader before | dbRWUnLock before | busy before
    | noBinlog before | unlock before =>
    exact ordered.restage (by simp [before]) rfl rfl rfl
  | flush _ before | execute _ before =>
    exact ordered.executeDo separated recalls (by simp [before, Stage.Holding])
      (by simp [before, Stage.Succeeded])
  | propose released _ writeBinlog => exact ordered.propose recalls writes released writeBinlog
  | bgSavePartition | bgsaveLock | bgsaveOffset | setBackupContent
    | bgsaveUnlock | finishBgsave => exact ordered

end

/-- A thread starts only if every command in progress that conflicts with it
takes a record lock in common with it. -/
def LocksConflicts (setup : Setup Id Key Db) (conflict : Id → Id → Prop)
    (system : System Id Key Db) :
    Label Id → Prop
  | .lock job => ∀ other, (system.stage other).Holding →
        conflict other job ∨ conflict job other → SharesLock setup other job
  | _ => True

theorem Separated.move [DecidableEq Key] {label : Label Id}
    (separated : system.Separated conflict) (owned : system.Owned setup)
    (locks : system.LocksConflicts setup conflict label) (move : Move setup system label next) :
    next.Separated conflict := by
  cases move with
  | @lock job waiting free =>
    -- Only the thread that starts can meet another one.
    have alone : ∀ other, (system.stage other).Holding →
        ¬ (conflict other job ∨ conflict job other) := by
      intro other holding conflicts
      obtain ⟨key, otherMember, member⟩ := locks other holding conflicts
      have taken := owned other holding key otherMember
      rw [free key member] at taken
      cases taken
    intro first second different firstHolding secondHolding conflicts
    rcases eq_or_ne first job with rfl | firstNe
    · refine alone second ?_ (.inr conflicts)
      simpa [goto, different.symm] using secondHolding
    · have firstBefore : (system.stage first).Holding := by
        simpa [goto, firstNe] using firstHolding
      rcases eq_or_ne second job with rfl | secondNe
      · exact alone first firstBefore (.inl conflicts)
      · refine separated first second different firstBefore ?_ conflicts
        simpa [goto, secondNe] using secondHolding
  | bgSavePartition | bgsaveLock | bgsaveOffset | setBackupContent
    | bgsaveUnlock | finishBgsave => exact separated
  | dbRWLockReader before | flush _ before | execute _ before
    | dbRWUnLock before | propose before | busy before | noBinlog before
    | unlock before =>
    exact separated.restage (by simp [before, Stage.Holding]) rfl

/-- Conflicting commands are recorded in the order of their `Do`. -/
def KeepsOrder (conflict : Id → Id → Prop) (system : System Id Key Db) : Prop :=
  ∀ first second, conflict first second → Precedes system.executed first second →
        second ∈ system.jobs → Precedes system.jobs first second

/-- Along a run in which conflicting commands in progress take a record lock in
common, they are recorded in the order of their `Do`. -/
theorem keepsOrder_of_run [DecidableEq Key] {fileSize term : Nat}
    {labels : List (Label Id)} {db : Db}
    (writes : ∀ first second, conflict first second → setup.isWrite first = true)
    (admitted : RunAdmissible (step setup) (LocksConflicts setup conflict)
      (initial fileSize term db) labels)
    (ran : run (step setup) (initial fileSize term db) labels = some system) :
    system.KeepsOrder conflict := by
  let invariant : System Id Key Db → Prop := fun system =>
    system.Owned setup ∧ system.Recalls setup ∧ system.Separated conflict ∧
      system.Ordered conflict
  have kept : invariant system := by
    refine invariant_of_run ?_ ?_ admitted ran
    · rintro system label next ⟨owned, recalls, separated, ordered⟩ locks stepped
      have move := move_of_step stepped
      exact ⟨owned.move move, recalls.move move, separated.move owned locks move,
        ordered.move separated recalls writes move⟩
    · exact ⟨owned_initial setup _ _ _, recalls_initial setup _ _ _,
        separated_initial _ _ _, ordered_initial _ _ _⟩
  intro first second conflicts precedes
  exact (kept.2.2.2 first second precedes conflicts).2

end System
end Pika.Partition
