import Mathlib.Data.Fintype.Basic
import Pika.Partition.Order

/-!
# What a bgsave captures

When no write stands between its `Do` and its `DoBinlog` at the moment a bgsave
takes its offset, the captured content is the result of exactly the commands
recorded up to that offset.
-/

namespace Pika.Partition

open Foundation Binlog

variable {Id Key Db : Type*}

/-- Execute commands one after the other. -/
def Setup.replay (setup : Setup Id Key Db) (jobs : List Id) (db : Db) : Db :=
  perform (fun job db => (setup.execute job db).1) jobs db

/-- Two commands lead to the same database in either order. -/
def Setup.Commutes (setup : Setup Id Key Db) (first second : Id) : Prop :=
  Foundation.Commutes (fun job db => (setup.execute job db).1) first second

/-- The commands whose records lie at or before an offset, in binlog order. -/
def covered (entries : List (Entry Id)) (offset : BinlogOffset) : List Id :=
  (entries.filter fun entry => ¬ offset < entry.position).map Entry.job

theorem covered_append (entries : List (Entry Id)) (job : Id)
    {offset position : BinlogOffset} (uncovered : offset < position) :
    covered (entries ++ [{ job := job, position := position }]) offset =
      covered entries offset := by
  simp [covered, uncovered]

/-- A capture is the result of exactly the commands recorded up to its offset;
if commands that do not commute take a lock in common, it is their result in
binlog order. -/
structure Agrees (setup : Setup Id Key Db) (start : Db)
    (entries : List (Entry Id)) (capture : Capture Db) : Prop where
  sameCommands : ∃ order, order.Perm (covered entries capture.offset) ∧
      capture.content = setup.replay order start
  inOrder :
    (∀ first second, setup.Commutes second first ∨ System.SharesLock setup first second) →
    capture.content = setup.replay (covered entries capture.offset) start

namespace System

variable [DecidableEq Id]

/-- The commands are writes that run `Do` under the shared side of
`db_rwlock_`, their records fit the published integers, and an offset is taken
only while no write stands between `Do` and `DoBinlog`. -/
def Quiescent (setup : Setup Id Key Db) (system : System Id Key Db) : Label Id → Prop
  | .lock job => setup.isWrite job = true ∧ setup.isSuspend job = false
  | .doBinlog job execTime _ =>
    (system.log.position.place system.log.fileSize
      (setup.toBinlog job (system.binlogItem execTime)).length).Fits
  | .bgsaveOffset => ∀ job, system.stage job ≠ .released true
  | _ => True

/-- The invariant behind a capture. -/
structure Consistent (setup : Setup Id Key Db) (start : Db)
    (system : System Id Key Db) : Prop where
  aligned : system.log.Aligned
  /-- The threads that have started run writes under the shared side of
  `db_rwlock_`. -/
  writes : ∀ job, system.stage job ≠ .waiting →
    setup.isWrite job = true ∧ setup.isSuspend job = false
  content : system.db = setup.replay system.executed start
  behind : ∀ entry ∈ system.entries, ¬ system.log.position < entry.position
  /-- After the offset is taken, it is the end of the binlog and every executed
  command is recorded. -/
  taken : ∀ offset, system.bgsave = .offsetTaken offset → offset = system.log.position ∧
      ∀ job, (system.stage job).Succeeded → (system.stage job).Recorded
  bounded : ∀ capture ∈ system.captures, ¬ system.log.position < capture.offset
  agrees : ∀ capture ∈ system.captures, Agrees setup start system.entries capture

variable {setup : Setup Id Key Db} {system next : System Id Key Db}

omit [DecidableEq Id] in
theorem consistent_initial (setup : Setup Id Key Db) (fileSize term : Nat) (db : Db) :
    (initial fileSize term db : System Id Key Db).Consistent setup db where
  aligned := aligned_fresh fileSize term
  writes _ started := absurd rfl started
  content := rfl
  behind _ member := nomatch member
  taken _ impossible := nomatch impossible
  bounded _ member := nomatch member
  agrees _ member := nomatch member

section

variable {start : Db} (consistent : system.Consistent setup start)
include consistent

theorem Consistent.restage {before stage : Stage} (beforeEq : system.stage job = before)
    (isWrite : setup.isWrite job = true ∧ setup.isSuspend job = false)
    (recorded : (before.Succeeded → before.Recorded) →
      stage.Succeeded → stage.Recorded) (owner : Key → Option Id) (readers : List Id) :
    Consistent setup start
      { system.goto job stage with owner := owner, readers := readers } := by
  refine { consistent with writes := ?_, taken := ?_ }
  · intro other started
    rcases eq_or_ne other job with rfl | different
    · exact isWrite
    · apply consistent.writes other
      simpa [goto, different] using started
  · intro offset taken
    obtain ⟨offsetEq, allRecorded⟩ := consistent.taken offset taken
    refine ⟨offsetEq, ?_⟩
    intro other
    rcases eq_or_ne other job with rfl | different
    · simp only [goto, Function.update_self]
      exact recorded (beforeEq ▸ allRecorded other)
    · simpa [goto, different] using allRecorded other

theorem Consistent.executeDo (unchanged : ∀ job db, (setup.execute job db).2 = false →
      (setup.execute job db).1 = db) (guarded : system.Guarded)
    (reading : system.stage job = .reading) :
    (system.executeDo job .executed (setup.execute job system.db)).Consistent setup start := by
  have outside : system.bgsave = .outside := by
    by_contra inside
    have member := (guarded.mem_readers job).mpr (by simp [reading, Stage.Reading])
    simp [guarded.alone inside] at member
  refine { consistent with writes := ?_, content := ?_, taken := ?_ }
  · intro other started
    rcases eq_or_ne other job with rfl | different
    · exact consistent.writes other (by simp [reading])
    · apply consistent.writes other
      simpa [System.executeDo, goto, different] using started
  · have content := consistent.content
    simp only [System.executeDo]
    cases succeeded : (setup.execute job system.db).2 with
    | false => rw [if_neg (by simp), unchanged job system.db succeeded, content]
    | true =>
      rw [if_pos rfl, Setup.replay, perform_append, perform_cons,
        perform_nil, ← Setup.replay, ← content]
  · intro offset taken
    change system.bgsave = _ at taken
    rw [outside] at taken
    cases taken

theorem Consistent.propose {item : Bytes}
    (released : system.stage job = .released true) (now : Nat → Nat)
    (fits : (system.log.position.place system.log.fileSize item.length).Fits) :
    Consistent setup start
      { system.goto job (.logged true) with
        log := system.log.putSlice now item
        entries := system.entries ++
          [{ job := job, position := (system.log.putSlice now item).position }] } := by
  obtain ⟨aligned, positionEq⟩ := consistent.aligned.putSlice now item fits.number fits.kept
  have forward : system.log.position < (system.log.putSlice now item).position := by
    rw [positionEq]
    exact BinlogOffset.lt_place _ _ _
  refine
    { aligned := aligned
      writes := ?_
      content := consistent.content
      behind := ?_
      taken := ?_
      bounded := ?_
      agrees := ?_ }
  · intro other started
    rcases eq_or_ne other job with rfl | different
    · exact consistent.writes other (by simp [released])
    · apply consistent.writes other
      simpa [goto, different] using started
  · intro entry member
    rcases List.mem_append.mp member with earlier | last
    · intro further
      exact consistent.behind entry earlier (BinlogOffset.lt_trans forward further)
    · rw [List.mem_singleton.mp last]
      exact BinlogOffset.lt_irrefl _
  · intro offset taken
    have recorded := (consistent.taken offset taken).2 job
    simp [released, Stage.Succeeded, Stage.Recorded] at recorded
  · intro capture member further
    exact consistent.bounded capture member (BinlogOffset.lt_trans forward further)
  · intro capture member
    have uncovered := BinlogOffset.lt_of_not_lt_of_lt (consistent.bounded capture member) forward
    have same := covered_append system.entries job uncovered
    obtain ⟨sameCommands, inOrder⟩ := consistent.agrees capture member
    exact ⟨same ▸ sameCommands, same ▸ inOrder⟩

omit [DecidableEq Id] in
theorem Consistent.bgsaveOffset (guarded : system.Guarded) (exclusive : system.bgsave = .exclusive)
    (quiescent : ∀ job, system.stage job ≠ .released true) :
    Consistent setup start
      { system with
        bgsave := .offsetTaken (system.log.getProducerStatus.getD
            { filenum := 0, offset := 0 }) } := by
  refine { consistent with taken := ?_ }
  intro offset taken
  cases taken
  rw [consistent.aligned.getProducerStatus_eq, Option.getD_some]
  refine ⟨rfl, ?_⟩
  intro job succeeded
  have unread := guarded.mem_readers job
  rw [guarded.alone (by simp [exclusive])] at unread
  cases stage : system.stage job with
  | waiting | locked | reading =>
    rw [stage] at succeeded
    exact succeeded.elim
  | executed ok =>
    rw [stage] at unread
    exact absurd (unread.mpr trivial) (by simp)
  | released ok =>
    rw [stage] at succeeded
    exact absurd (succeeded ▸ stage) (quiescent job)
  | logged ok | finished ok =>
    rw [stage] at succeeded
    exact succeeded

omit [DecidableEq Id] in
theorem Consistent.setBackupContent
    (recalls : system.Recalls setup) (ordered : system.Ordered (SharesLock setup))
    (writeBinlog : setup.writeBinlog = true) (taken : system.bgsave = .offsetTaken offset) :
    Consistent setup start
      { system with
        bgsave := .captured
        captures := system.captures ++ [{ offset := offset, content := system.db }] } := by
  obtain ⟨rfl, recorded⟩ := consistent.taken offset taken
  have coversAll : covered system.entries system.log.position = system.jobs := by
    rw [covered, List.filter_eq_self.mpr]
    · rfl
    · intro entry member
      exact decide_eq_true (consistent.behind entry member)
  have perm : system.executed.Perm system.jobs := by
    refine (List.perm_ext_iff_of_nodup recalls.executed_nodup recalls.jobs_nodup).mpr ?_
    intro job
    rw [recalls.mem_executed, recalls.mem_jobs]
    constructor
    · intro succeeded
      refine ⟨recorded job succeeded, (consistent.writes job ?_).1, writeBinlog⟩
      intro waiting
      rw [waiting] at succeeded
      exact succeeded
    · rintro ⟨logged, _⟩
      cases stage : system.stage job <;> simp_all [Stage.Recorded, Stage.Succeeded]
  refine
    { consistent with taken := ?_, bounded := ?_, agrees := ?_ }
  · intro _ impossible
    cases impossible
  · intro capture member
    rcases List.mem_append.mp member with earlier | last
    · exact consistent.bounded capture earlier
    · rw [List.mem_singleton.mp last]
      exact BinlogOffset.lt_irrefl _
  · intro capture member
    rcases List.mem_append.mp member with earlier | last
    · exact consistent.agrees capture earlier
    · rw [List.mem_singleton.mp last]
      refine ⟨⟨system.executed, coversAll ▸ perm, consistent.content⟩, ?_⟩
      intro locks
      rw [coversAll]
      refine consistent.content.trans
        (perform_eq_of_precedes recalls.executed_nodup perm ?_ start)
      intro first second precedes
      refine (locks first second).imp_right fun shares => ?_
      exact (ordered first second precedes shares).2 (perm.mem_iff.mp precedes.right_mem)

end

section Run

variable [DecidableEq Key]

theorem Consistent.move {label : Label Id} (consistent : system.Consistent setup start)
    (unchanged : ∀ job db, (setup.execute job db).2 = false → (setup.execute job db).1 = db)
    (writeBinlog : setup.writeBinlog = true) (guarded : system.Guarded)
    (recalls : system.Recalls setup) (ordered : system.Ordered (SharesLock setup))
    (quiescent : system.Quiescent setup label) (move : Move setup system label next) :
    next.Consistent setup start := by
  cases move with
  | lock waiting => exact consistent.restage waiting quiescent (by simp [Stage.Succeeded]) _ _
  | dbRWLockReader before =>
    exact consistent.restage before (consistent.writes _ (by simp [before]))
      (by simp [Stage.Succeeded]) _ _
  | dbRWUnLock before | noBinlog before | unlock before =>
    exact consistent.restage before (consistent.writes _ (by simp [before]))
      (by simp [Stage.Succeeded, Stage.Recorded]) _ _
  | flush suspends locked =>
    have shared := (consistent.writes _ (by rw [locked]; simp)).2
    rw [shared] at suspends
    cases suspends
  | execute _ reading => exact consistent.executeDo unchanged guarded reading
  | propose released => exact consistent.propose released _ quiescent
  | busy _ closed => simp [recalls.opened] at closed
  | bgSavePartition | finishBgsave => exact { consistent with }
  | bgsaveLock | bgsaveUnlock =>
    refine { consistent with taken := ?_ }
    intro _ impossible
    cases impossible
  | bgsaveOffset exclusive => exact consistent.bgsaveOffset guarded exclusive quiescent
  | setBackupContent taken => exact consistent.setBackupContent recalls ordered writeBinlog taken

/-- In every run whose offsets are taken while no write stands between `Do` and
`DoBinlog`, every capture agrees with the binlog up to its offset. -/
theorem agrees_of_run {fileSize term : Nat} {labels : List (Label Id)}
    {setup : Setup Id Key Db} {db : Db} {system : System Id Key Db}
    (unchanged : ∀ job db, (setup.execute job db).2 = false → (setup.execute job db).1 = db)
    (writeBinlog : setup.writeBinlog = true)
    (admitted : RunAdmissible (step setup) (Quiescent setup) (initial fileSize term db) labels)
    (ran : run (step setup) (initial fileSize term db) labels = some system) :
    ∀ capture ∈ system.captures, Agrees setup db system.entries capture := by
  let invariant : System Id Key Db → Prop := fun system =>
    system.Owned setup ∧ system.Guarded ∧ system.Recalls setup ∧
      system.Ordered (SharesLock setup) ∧ system.Consistent setup db
  have kept : invariant system := by
    refine invariant_of_run ?_ ?_ admitted ran
    · rintro system label next ⟨owned, guarded, recalls, ordered, consistent⟩ quiescent stepped
      have move := move_of_step stepped
      exact ⟨owned.move move, guarded.move move, recalls.move move,
        ordered.move owned.separated recalls (fun _ _ => isWrite_of_sharesLock) move,
        consistent.move unchanged writeBinlog guarded recalls ordered quiescent move⟩
    · exact ⟨owned_initial setup _ _ _, guarded_initial _ _ _,
        recalls_initial setup _ _ _, ordered_initial _ _ _, consistent_initial setup _ _ _⟩
  exact kept.2.2.2.2.agrees

end Run

instance [Fintype Id] (setup : Setup Id Key Db) (system : System Id Key Db) (label : Label Id) :
    Decidable (system.Quiescent setup label) :=
  match label with
  | .lock _ => inferInstanceAs (Decidable (_ ∧ _))
  | .doBinlog job execTime _ =>
    inferInstanceAs (Decidable (system.log.position.place _
      (setup.toBinlog job (system.binlogItem execTime)).length).Fits)
  | .bgsaveOffset => inferInstanceAs (Decidable (∀ job, system.stage job ≠ .released true))
  | .dbRWLockReader _ | .execute _ | .dbRWUnLock _ | .unlock _
    | .bgSavePartition | .bgsaveLock | .setBackupContent | .bgsaveUnlock
    | .finishBgsave => inferInstanceAs (Decidable True)

/-- Two clients that set one key, each to its own number. -/
def setters : Setup (Fin 2) Bytes (List (Bytes × Bytes)) where
  writeBinlog := true
  isWrite _ := true
  isSuspend _ := false
  lockKeys _ := [[107]]
  execute job db := (([107], [UInt8.ofNat job]) :: db.filter fun pair => pair.1 ≠ [107], true)
  toBinlog job _ := [UInt8.ofNat job]

/-- A bgsave between two writes. -/
theorem agrees_between_writes :
    ∃ labels system, run (step setters) (initial 100 0 []) labels = some system ∧
        system.captures.map Capture.content = [[([107], [0])]] ∧
        ∀ capture ∈ system.captures, Agrees setters [] system.entries capture := by
  let labels : List (Label (Fin 2)) :=
    [.lock 0, .dbRWLockReader 0, .execute 0, .bgSavePartition, .dbRWUnLock 0,
      .doBinlog 0 0 fun _ => 0, .bgsaveLock, .bgsaveOffset, .unlock 0,
      .lock 1, .setBackupContent, .bgsaveUnlock, .dbRWLockReader 1, .execute 1,
      .dbRWUnLock 1, .doBinlog 1 0 fun _ => 0, .unlock 1, .finishBgsave]
  have admitted : RunAdmissible (step setters) (Quiescent setters) (initial 100 0 []) labels := by
    decide +kernel
  have contents : (run (step setters) (initial 100 0 []) labels).map
      (fun system => system.captures.map Capture.content) = some [[([107], [0])]] := by
    decide +kernel
  obtain ⟨system, ran, captured⟩ := Option.map_eq_some_iff.mp contents
  exact ⟨labels, system, ran, captured,
    agrees_of_run (fun _ _ failed => nomatch failed) rfl admitted ran⟩

/-- A bgsave between `Do` and `DoBinlog` of a write captures the write with the
offset before its record. -/
theorem not_agrees_before_binlog :
    ∃ labels system capture, run (step setters) (initial 100 0 []) labels = some system ∧
        capture ∈ system.captures ∧
        ¬ Agrees setters [] system.entries capture := by
  let labels : List (Label (Fin 2)) :=
    [.bgSavePartition, .lock 0, .dbRWLockReader 0, .execute 0, .dbRWUnLock 0,
      .bgsaveLock, .bgsaveOffset, .setBackupContent]
  have contents : (run (step setters) (initial 100 0 []) labels).map (fun system =>
        (system.captures.map Capture.content, system.entries.length)) =
        some ([[([107], [0])]], 0) := by
    decide +kernel
  obtain ⟨system, ran, captured⟩ := Option.map_eq_some_iff.mp contents
  obtain ⟨content, noEntries⟩ := Prod.mk.inj captured
  obtain ⟨capture, member, contentEq⟩ := List.mem_map.mp (content ▸ List.mem_cons_self)
  refine ⟨labels, system, capture, ran, member, ?_⟩
  rintro ⟨⟨order, perm, replayed⟩, _⟩
  rw [List.eq_nil_of_length_eq_zero noEntries] at perm
  rw [contentEq, List.perm_nil.mp perm] at replayed
  cases replayed

end System
end Pika.Partition
