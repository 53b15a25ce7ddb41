import Pika.Partition.Machine

/-!
# What the locks of a partition ensure

Record locks exclude each other key by key, the exclusive side of `db_rwlock_`
excludes every `Do`, and the history of the partition agrees with where its
command threads stand.
-/

namespace Pika.Partition

open Foundation Binlog
namespace System

variable {Id Key Db : Type*} [DecidableEq Id] [DecidableEq Key]

/-- What each step of the partition requires and does. -/
inductive Move (setup : Setup Id Key Db) (system : System Id Key Db) :
    Label Id → System Id Key Db → Prop where
  | lock {job : Id} (waiting : system.stage job = .waiting)
      (free : ∀ key ∈ setup.recordKeys job, system.owner key = none) :
      Move setup system (.lock job)
        { system.goto job .locked with
          owner := fun key =>
            if key ∈ setup.recordKeys job then some job
            else system.owner key }
  | dbRWLockReader {job : Id} (locked : system.stage job = .locked)
      (shared : setup.isSuspend job = false)
      (outside : system.bgsave = .outside) :
      Move setup system (.dbRWLockReader job)
        { system.goto job .reading with readers := job :: system.readers }
  | flush {job : Id} (suspends : setup.isSuspend job = true) (locked : system.stage job = .locked)
      (noReaders : system.readers = [])
      (outside : system.bgsave = .outside) :
      Move setup system (.execute job) (system.executeDo job .released
          (if system.bgsaving then (system.db, true)
          else setup.execute job system.db))
  | execute {job : Id} (shared : setup.isSuspend job = false)
      (reading : system.stage job = .reading) :
      Move setup system (.execute job)
        (system.executeDo job .executed (setup.execute job system.db))
  | dbRWUnLock {job : Id} (executed : system.stage job = .executed ok) :
      Move setup system (.dbRWUnLock job)
        { system.goto job (.released ok) with readers := system.readers.erase job }
  | propose {job : Id} {now : Nat → Nat} (released : system.stage job = .released true)
      (write : setup.isWrite job = true)
      (writeBinlog : setup.writeBinlog = true)
      (opened : system.log.opened = true) :
      Move setup system (.doBinlog job execTime now)
        { system.goto job (.logged true) with
          log := system.log.putSlice now (setup.toBinlog job (system.binlogItem execTime))
          entries := system.entries ++
            [{ job := job
               position := (system.log.putSlice now (setup.toBinlog job
                (system.binlogItem execTime))).position }] }
  | busy {job : Id} {now : Nat → Nat} (released : system.stage job = .released true)
      (closed : system.log.opened = false) :
      Move setup system (.doBinlog job execTime now) (system.goto job (.logged false))
  | noBinlog {job : Id} {now : Nat → Nat} (released : system.stage job = .released ok)
      (unlogged : ¬ (ok = true ∧ setup.isWrite job = true ∧ setup.writeBinlog = true)) :
      Move setup system (.doBinlog job execTime now) (system.goto job (.logged ok))
  | unlock {job : Id} (logged : system.stage job = .logged ok) :
      Move setup system (.unlock job)
        { system.goto job (.finished ok) with
          owner := fun key => if key ∈ setup.recordKeys job then none else system.owner key }
  | bgSavePartition : Move setup system .bgSavePartition { system with bgsaving := true }
  | bgsaveLock (outside : system.bgsave = .outside) (noReaders : system.readers = []) :
      Move setup system .bgsaveLock { system with bgsave := .exclusive }
  | bgsaveOffset (exclusive : system.bgsave = .exclusive) :
      Move setup system .bgsaveOffset
        { system with
          bgsave := .offsetTaken (system.log.getProducerStatus.getD
              { filenum := 0, offset := 0 }) }
  | setBackupContent {offset : BinlogOffset} (taken : system.bgsave = .offsetTaken offset) :
      Move setup system .setBackupContent
        { system with
          bgsave := .captured
          captures := system.captures ++ [{ offset := offset, content := system.db }] }
  | bgsaveUnlock (captured : system.bgsave = .captured) :
      Move setup system .bgsaveUnlock { system with bgsave := .outside }
  | finishBgsave (outside : system.bgsave = .outside) :
      Move setup system .finishBgsave { system with bgsaving := false }

variable {setup : Setup Id Key Db} {system next : System Id Key Db}

theorem move_of_proposeLog (released : system.stage job = .released true)
    (write : setup.isWrite job = true) (writeBinlog : setup.writeBinlog = true)
    (proposed : system.proposeLog setup job execTime now = some next) :
    Move setup system (.doBinlog job execTime now) next := by
  obtain ⟨result, putEq, rfl⟩ := Option.map_eq_some_iff.mp proposed
  unfold put at putEq
  split_ifs at putEq with closed short
  · cases putEq
    exact .busy released closed
  · cases putEq
    exact .propose released write writeBinlog (by simpa using closed)

theorem move_of_step (stepped : system.step setup label = some next) :
    Move setup system label next := by
  cases label with
  | lock job =>
    simp only [step] at stepped
    split_ifs at stepped with enabled
    cases stepped
    exact .lock enabled.1 enabled.2
  | dbRWLockReader job =>
    simp only [step] at stepped
    split_ifs at stepped with enabled
    cases stepped
    exact .dbRWLockReader enabled.1 enabled.2.1 enabled.2.2
  | execute job =>
    simp only [step] at stepped
    cases suspends : setup.isSuspend job with
    | true =>
      rw [if_pos suspends] at stepped
      obtain ⟨enabled, nextEq⟩ := Option.ite_none_right_eq_some.mp stepped
      cases nextEq
      exact .flush suspends enabled.1 enabled.2.1 enabled.2.2
    | false =>
      rw [if_neg (by simp [suspends])] at stepped
      obtain ⟨reading, nextEq⟩ := Option.ite_none_right_eq_some.mp stepped
      cases nextEq
      exact .execute suspends reading
  | dbRWUnLock job =>
    simp only [step] at stepped
    split at stepped <;> cases stepped
    exact .dbRWUnLock ‹_›
  | doBinlog job execTime now =>
    simp only [step] at stepped
    split at stepped
    · rename_i ok released
      split_ifs at stepped with logs
      · simp only [Bool.and_eq_true] at logs
        obtain ⟨⟨rfl, write⟩, writeBinlog⟩ := logs
        exact move_of_proposeLog released write writeBinlog stepped
      · cases stepped
        exact .noBinlog released (by simpa [and_assoc] using logs)
    · cases stepped
  | unlock job =>
    simp only [step] at stepped
    split at stepped <;> cases stepped
    exact .unlock ‹_›
  | bgSavePartition =>
    simp only [step] at stepped
    split_ifs at stepped
    cases stepped
    exact .bgSavePartition
  | bgsaveLock =>
    simp only [step] at stepped
    split_ifs at stepped with enabled
    cases stepped
    exact .bgsaveLock enabled.2.1 enabled.2.2
  | bgsaveOffset =>
    simp only [step] at stepped
    split_ifs at stepped with exclusive
    cases stepped
    exact .bgsaveOffset exclusive
  | setBackupContent =>
    simp only [step] at stepped
    split at stepped <;> cases stepped
    exact .setBackupContent ‹_›
  | bgsaveUnlock =>
    simp only [step] at stepped
    split_ifs at stepped with captured
    cases stepped
    exact .bgsaveUnlock captured
  | finishBgsave =>
    simp only [step] at stepped
    split_ifs at stepped with enabled
    cases stepped
    exact .finishBgsave enabled.2

/-! ## Record locks -/

/-- A thread between its lock and its unlock owns the locks of its keys. -/
def Owned (setup : Setup Id Key Db) (system : System Id Key Db) : Prop :=
  ∀ job, (system.stage job).Holding → ∀ key ∈ setup.recordKeys job, system.owner key = some job

theorem Owned.move (owned : system.Owned setup) (move : Move setup system label next) :
    next.Owned setup := by
  intro other holding key member
  have before := owned other
  cases move with
  | unlock logged =>
    have unlocked := owned _ (by rw [logged]; trivial)
    simp only [goto, Function.update_apply] at holding ⊢
    grind [Stage.Holding]
  | bgSavePartition | bgsaveLock | bgsaveOffset | setBackupContent
    | bgsaveUnlock | finishBgsave => exact before holding key member
  | _ =>
    simp only [goto, executeDo, Function.update_apply] at holding ⊢
    grind [Stage.Holding]

omit [DecidableEq Id] [DecidableEq Key] in
/-- Two threads that hold record locks have no key in common. -/
theorem Owned.eq_of_common (owned : system.Owned setup)
    (firstHolding : (system.stage first).Holding) (secondHolding : (system.stage second).Holding)
    (firstMember : key ∈ setup.recordKeys first) (secondMember : key ∈ setup.recordKeys second) :
    first = second := by
  have ofFirst := owned first firstHolding key firstMember
  have ofSecond := owned second secondHolding key secondMember
  exact Option.some.inj (ofFirst.symm.trans ofSecond)

/-! ## The database lock -/

/-- The holders of `db_rwlock_`. -/
structure Guarded (system : System Id Key Db) : Prop where
  mem_readers : ∀ job, job ∈ system.readers ↔ (system.stage job).Reading
  nodup : system.readers.Nodup
  alone : system.bgsave ≠ .outside → system.readers = []

theorem Guarded.move (guarded : system.Guarded) (move : Move setup system label next) :
    next.Guarded := by
  obtain ⟨mem_readers, nodup, alone⟩ := guarded
  cases move with
  | @dbRWUnLock ok job executed =>
    refine ⟨?_, nodup.erase job, ?_⟩
    · intro other
      simp only [goto, Function.update_apply, nodup.mem_erase_iff, mem_readers]
      grind [Stage.Reading]
    · intro inside
      simp [alone inside]
  | dbRWLockReader | execute | flush | lock | propose | busy | noBinlog
    | unlock =>
    refine ⟨?_, ?_, ?_⟩ <;>
      simp only [goto, executeDo, Function.update_apply] <;>
      grind [Stage.Reading]
  | bgsaveLock outside noReaders => exact ⟨mem_readers, nodup, fun _ => noReaders⟩
  | bgsaveUnlock => exact ⟨mem_readers, nodup, fun inside => absurd rfl inside⟩
  | bgSavePartition | finishBgsave => exact ⟨mem_readers, nodup, alone⟩
  | bgsaveOffset held | setBackupContent held =>
    exact ⟨mem_readers, nodup, fun _ => alone (by simp [held])⟩

/-! ## The history -/

/-- The commands of the binlog's records. -/
def jobs (system : System Id Key Db) : List Id := system.entries.map Entry.job

/-- The history agrees with the stages of the threads. -/
structure Recalls (setup : Setup Id Key Db) (system : System Id Key Db) : Prop where
  opened : system.log.opened = true
  mem_executed : ∀ job, job ∈ system.executed ↔ (system.stage job).Succeeded
  executed_nodup : system.executed.Nodup
  mem_jobs : ∀ job, job ∈ system.jobs ↔ (system.stage job).Recorded ∧ setup.isWrite job = true ∧
        setup.writeBinlog = true
  jobs_nodup : system.jobs.Nodup

omit [DecidableEq Key] in
theorem Recalls.restage {before stage : Stage} (recalls : system.Recalls setup)
    (beforeEq : system.stage job = before)
    (stageEq : next.stage = Function.update system.stage job stage) (logEq : next.log = system.log)
    (executedEq : next.executed = system.executed) (entriesEq : next.entries = system.entries)
    (succeeded : stage.Succeeded ↔ before.Succeeded) (recorded :
      stage.Recorded ∧ setup.isWrite job = true ∧ setup.writeBinlog = true ↔
        before.Recorded ∧ setup.isWrite job = true ∧ setup.writeBinlog = true) :
    next.Recalls setup := by
  have jobsEq : next.jobs = system.jobs := by rw [jobs, entriesEq, jobs]
  refine ⟨logEq ▸ recalls.opened, ?_, executedEq ▸ recalls.executed_nodup, ?_,
    jobsEq ▸ recalls.jobs_nodup⟩
  · intro other
    rw [executedEq, stageEq, recalls.mem_executed]
    rcases eq_or_ne other job with rfl | different
    · rw [Function.update_self, beforeEq, succeeded]
    · rw [Function.update_of_ne different]
  · intro other
    rw [jobsEq, stageEq, recalls.mem_jobs]
    rcases eq_or_ne other job with rfl | different
    · rw [Function.update_self, beforeEq, recorded]
    · rw [Function.update_of_ne different]

omit [DecidableEq Key] in
theorem Recalls.executeDo {job : Id} {stage : Bool → Stage} {result : Db × Bool}
    (recalls : system.Recalls setup) (before : ¬ (system.stage job).Succeeded)
    (unrecorded : ¬ (system.stage job).Recorded)
    (succeeded : ∀ ok, (stage ok).Succeeded ↔ ok = true) (recorded : ∀ ok, ¬ (stage ok).Recorded) :
    (system.executeDo job stage result).Recalls setup := by
  have fresh : job ∉ system.executed := by rwa [recalls.mem_executed]
  obtain ⟨db, ok⟩ := result
  refine { recalls with mem_executed := ?_, executed_nodup := ?_, mem_jobs := ?_ }
  · intro other
    rcases eq_or_ne other job with rfl | different
    · cases ok <;> simp [System.executeDo, System.goto, succeeded, fresh]
    · cases ok <;> simp [System.executeDo, System.goto, different, recalls.mem_executed]
  · cases ok
    · exact recalls.executed_nodup
    · simpa [System.executeDo] using recalls.executed_nodup.concat fresh
  · intro other
    have member := recalls.mem_jobs other
    rcases eq_or_ne other job with rfl | different
    · simpa [System.executeDo, System.goto, jobs, unrecorded, recorded] using member
    · simpa [System.executeDo, System.goto, jobs, different] using member

omit [DecidableEq Key] in
theorem Recalls.propose {job : Id} {log : Binlog} {position : BinlogOffset}
    (recalls : system.Recalls setup) (released : system.stage job = .released true)
    (write : setup.isWrite job = true) (writeBinlog : setup.writeBinlog = true)
    (opened : log.opened = true) :
    Recalls setup { system.goto job (.logged true) with
      log := log
      entries := system.entries ++ [{ job := job, position := position }] } := by
  have fresh : job ∉ system.jobs := by simp [recalls.mem_jobs, released, Stage.Recorded]
  refine ⟨opened, ?_, recalls.executed_nodup, ?_, ?_⟩
  · intro other
    have member := recalls.mem_executed other
    rcases eq_or_ne other job with rfl | different
    · simpa [System.goto, released, Stage.Succeeded] using member
    · simpa [System.goto, different] using member
  · intro other
    have member := recalls.mem_jobs other
    simp only [jobs, List.mem_map] at member
    rcases eq_or_ne other job with rfl | different
    · simp [System.goto, jobs, Stage.Recorded, write, writeBinlog]
    · simpa [System.goto, jobs, different] using member
  · simpa [jobs] using recalls.jobs_nodup.concat fresh

theorem Recalls.move {label : Label Id} (recalls : system.Recalls setup)
    (move : Move setup system label next) :
    next.Recalls setup := by
  cases move with
  | lock stage | dbRWLockReader stage | dbRWUnLock stage | unlock stage =>
    exact recalls.restage stage rfl rfl rfl rfl (by simp [Stage.Succeeded])
      (by simp [Stage.Recorded])
  | flush _ stage | execute _ stage =>
    exact recalls.executeDo (by simp [stage, Stage.Succeeded])
      (by simp [stage, Stage.Recorded]) (by simp [Stage.Succeeded])
      (by simp [Stage.Recorded])
  | propose released write writeBinlog opened =>
    exact recalls.propose released write writeBinlog (putSlice_opened _ _ opened)
  | busy _ closed => simp [recalls.opened] at closed
  | noBinlog released unlogged =>
    refine recalls.restage released rfl rfl rfl rfl (by simp [Stage.Succeeded]) ?_
    simpa [Stage.Recorded] using unlogged
  | bgSavePartition | bgsaveLock | bgsaveOffset | setBackupContent
    | bgsaveUnlock | finishBgsave => exact { recalls with }

omit [DecidableEq Id] [DecidableEq Key]

theorem recalls_initial (setup : Setup Id Key Db) (fileSize term : Nat) (db : Db) :
    (initial fileSize term db : System Id Key Db).Recalls setup where
  opened := rfl
  mem_executed _ := by simp [initial, Stage.Succeeded]
  executed_nodup := List.nodup_nil
  mem_jobs _ := by simp [initial, jobs, Stage.Recorded]
  jobs_nodup := List.nodup_nil

theorem guarded_initial (fileSize term : Nat) (db : Db) :
    (initial fileSize term db : System Id Key Db).Guarded where
  mem_readers _ := by simp [initial, Stage.Reading]
  nodup := List.nodup_nil
  alone _ := rfl

theorem owned_initial (setup : Setup Id Key Db) (fileSize term : Nat) (db : Db) :
    (initial fileSize term db : System Id Key Db).Owned setup :=
  fun _ holding => holding.elim

end System
end Pika.Partition
