import Pika.Command.Encoding
import Pika.Foundation.Transition
import Pika.Sync.Window

/-!
# Purging binlog files

`PurgeFiles` walks the binlog files in numeric order and deletes while one of
three triggers fires; before each deletion `BinlogCloudPurge` compares the file
with the producer and the slaves.  The distance to the producer is kept only if
the subtraction of ten from its file number does not wrap around.
-/

namespace Pika.Replication

open Foundation List
open Binlog (Bytes)
open Command (string2l)
open Sync (SlaveState)

def kBinlogPrefix : Bytes := ascii "write2file"

/-- The number of a binlog file, through a `uint32_t`. -/
def binlogNumber (name : Bytes) : Option Nat :=
  if name.take kBinlogPrefix.length = kBinlogPrefix then
    (string2l (name.drop kBinlogPrefix.length)).map castUInt32
  else none

/-- `num_` of PURGELOGSTO. -/
def purgelogstoNumber (filename : Bytes) : Option Nat :=
  if filename.length ≤ kBinlogPrefix.length ∨
      filename.take kBinlogPrefix.length ≠ kBinlogPrefix then
    none
  else
    (string2l (filename.drop kBinlogPrefix.length)).bind fun number =>
      if number < 0 then none else some (castUInt32 number)

/-- Insertion into a map from numbers to names, which keeps what is there. -/
def insertBinlog (number : Nat) (name : Bytes) : List (Nat × Bytes) → List (Nat × Bytes)
  | [] => [(number, name)]
  | file :: files =>
    if number < file.1 then (number, name) :: file :: files
    else if number = file.1 then file :: files
    else file :: insertBinlog number name files

/-- One name of the directory. -/
def addChild (files : List (Nat × Bytes)) (name : Bytes) : List (Nat × Bytes) :=
  match binlogNumber name with
  | some number => insertBinlog number name files
  | none => files

def getBinlogFiles (children : List Bytes) : List (Nat × Bytes) := children.foldl addChild []

/-- The files are in numeric order, one of each number. -/
def Ascending (files : List (Nat × Bytes)) : Prop :=
  files.Pairwise fun first second => first.1 < second.1

theorem mem_insertBinlog (member : file ∈ insertBinlog number name files) :
    file = (number, name) ∨ file ∈ files := by
  induction files with
  | nil => exact .inl (mem_singleton.mp member)
  | cons first files ih =>
    simp only [insertBinlog] at member
    split_ifs at member
    · exact mem_cons.mp member
    · exact .inr member
    · rcases mem_cons.mp member with rfl | later
      · exact .inr mem_cons_self
      · rcases ih later with same | old
        · exact .inl same
        · exact .inr (mem_cons_of_mem _ old)

theorem Ascending.insertBinlog (ascending : Ascending files) (number : Nat) (name : Bytes) :
    Ascending (insertBinlog number name files) := by
  induction files with
  | nil => exact pairwise_singleton _ _
  | cons first files ih =>
    obtain ⟨above, rest⟩ := pairwise_cons.mp ascending
    simp only [Replication.insertBinlog]
    split_ifs with before same
    · refine pairwise_cons.mpr ⟨?_, ascending⟩
      intro file member
      rcases mem_cons.mp member with rfl | later
      · exact before
      · exact before.trans (above file later)
    · exact ascending
    · refine pairwise_cons.mpr ⟨?_, ih rest⟩
      intro file member
      rcases mem_insertBinlog member with rfl | old
      · exact Nat.lt_of_le_of_ne (Nat.le_of_not_lt before) (Ne.symm same)
      · exact above file old

theorem Ascending.addChild (ascending : Ascending files) (name : Bytes) :
    Ascending (addChild files name) := by
  unfold Replication.addChild
  split
  · exact ascending.insertBinlog _ name
  · exact ascending

theorem ascending_getBinlogFiles (children : List Bytes) :
    Ascending (getBinlogFiles children) := by
  have folded : ∀ files, Ascending files → Ascending (children.foldl addChild files) := by
    induction children with
    | nil => exact fun files ascending => ascending
    | cons name children ih =>
      exact fun files ascending => ih _ (ascending.addChild name)
  exact folded [] List.Pairwise.nil

/-! ## The loop -/

/-- What a purge reads of a slave node. -/
structure PurgeSlave where
  state : SlaveState
  /-- `acked_offset.b_offset.filenum`. -/
  ackedFilenum : Nat
  deriving DecidableEq, Repr

/-- The call and the configuration. -/
structure PurgeCall where
  manual : Bool
  upTo : Nat
  expireLogsNums : Int
  expireLogsDays : Int
  deriving DecidableEq, Repr

/-- What one iteration reads of the world, and whether its deletion works. -/
structure PurgeView where
  /-- `st_mtime`, if `stat` succeeds. -/
  mtime : Option Int
  /-- `time(NULL)`. -/
  now : Int
  found : Bool
  /-- The producer's file number, if the log is open. -/
  producer : Option Nat
  slaves : List PurgeSlave
  /-- `DeleteFile` succeeds. -/
  deletes : Bool
  deriving DecidableEq, Repr

/-- `BinlogCloudPurge` refuses a file for the sake of a slave. -/
def PurgeSlave.needs (index : Nat) (slave : PurgeSlave) : Bool :=
  match slave.state with
  | .notSync => false
  | .dbSync => true
  | .binlogSync => slave.ackedFilenum ≤ index

/-- `BinlogCloudPurge`.  Ten is subtracted from a `uint32_t`. -/
def binlogCloudPurge (view : PurgeView) (index : Nat) : Bool :=
  match view.producer with
  | none => false
  | some filenum => index ≤ castUInt32 (filenum - 10) && !view.slaves.any (·.needs index)

/-- A file that was deleted, and what was read before. -/
structure Deletion where
  /-- The number of the file. -/
  index : Nat
  /-- What the iteration read. -/
  view : PurgeView
  deriving DecidableEq, Repr

/-- `PurgeFiles` before an iteration. -/
structure Purge where
  /-- The files that are left to look at. -/
  left : List (Nat × Bytes)
  size : Nat
  deleteNum : Nat
  remainExpireNum : Int
  deleted : List Deletion
  deriving DecidableEq, Repr

namespace Purge

/-- `PurgeFiles` before its loop. -/
def start (call : PurgeCall) (children : List Bytes) : Purge where
  left := getBinlogFiles children
  size := (getBinlogFiles children).length
  deleteNum := 0
  remainExpireNum := castInt32 ((getBinlogFiles children).length - call.expireLogsNums)
  deleted := []

/-- The condition of the loop. -/
def triggered (call : PurgeCall) (view : PurgeView) (index : Nat) (purge : Purge) : Bool :=
  (call.manual && index ≤ call.upTo) || 0 < purge.remainExpireNum ||
    (10 < purge.size - purge.deleteNum && view.mtime.any fun mtime =>
        mtime < view.now - castInt32 (call.expireLogsDays * 24 * 3600))

/-- The loop ends. -/
def finish (purge : Purge) : Purge := { purge with left := [] }

def step (call : PurgeCall) (purge : Purge) (view : PurgeView) : Option Purge :=
  match purge.left with
  | [] => none
  | file :: rest =>
    some <| if purge.triggered call view file.1 then
        if view.found && binlogCloudPurge view file.1 then
          if view.deletes then
            { purge with
              left := rest
              deleteNum := purge.deleteNum + 1
              remainExpireNum := purge.remainExpireNum - 1
              deleted := purge.deleted ++ [{ index := file.1, view := view }] }
          else { purge with left := rest }
        else purge.finish
      else purge.finish

end Purge

/-- A deletion keeps its distance to the producer and what the slaves still
need. -/
structure Deletion.Safe (deletion : Deletion) : Prop where
  distance : ∀ filenum, deletion.view.producer = some filenum → deletion.index + 10 ≤ filenum
  noDbSync : ∀ slave ∈ deletion.view.slaves, slave.state ≠ .dbSync
  /-- Slaves in binlog-sync state have acknowledged a later file. -/
  acked : ∀ slave ∈ deletion.view.slaves,
    slave.state = .binlogSync → deletion.index < slave.ackedFilenum

namespace Purge

/-- Every deletion is safe, and the deleted files are a prefix of those there
were. -/
structure Safe (children : List Bytes) (purge : Purge) : Prop where
  deletions : ∀ deletion ∈ purge.deleted, deletion.Safe
  isPrefix : purge.deleted.map Deletion.index <+: (getBinlogFiles children).map Prod.fst

/-- The file in front is going to be deleted. -/
def deletesNext (call : PurgeCall) (view : PurgeView) (purge : Purge) : Bool :=
  match purge.left with
  | [] => false
  | file :: _ =>
    purge.triggered call view file.1 && view.found && binlogCloudPurge view file.1 && view.deletes

/-- A file is deleted only if the producer has come to file ten, and no file
before it is left because it could not be deleted. -/
def Keeps (call : PurgeCall) (purge : Purge) (view : PurgeView) : Prop :=
  purge.deletesNext call view = true → (∀ filenum, view.producer = some filenum → 10 ≤ filenum) ∧
      purge.deleteNum + purge.left.length = purge.size

/-- The deleted files are the first ones, and the others are still looked at in
order. -/
structure Tracked (children : List Bytes) (purge : Purge) : Prop where
  deletions : ∀ deletion ∈ purge.deleted, deletion.Safe
  deleted_eq : purge.deleted.map Deletion.index =
    ((getBinlogFiles children).take purge.deleteNum).map Prod.fst
  size_eq : purge.size = (getBinlogFiles children).length
  left_suffix : purge.left <:+ getBinlogFiles children
  bounded : purge.deleteNum + purge.left.length ≤ purge.size

theorem tracked_start (call : PurgeCall) (children : List Bytes) :
    (start call children).Tracked children where
  deletions := nofun
  deleted_eq := rfl
  size_eq := rfl
  left_suffix := suffix_rfl
  bounded := (Nat.zero_add _).le

variable {children : List Bytes} {call : PurgeCall} {view : PurgeView}
variable {purge next : Purge}

theorem Tracked.safe (tracked : purge.Tracked children) : purge.Safe children where
  deletions := tracked.deletions
  isPrefix := tracked.deleted_eq ▸ ( take_prefix _ _).map _

theorem Tracked.finish (tracked : purge.Tracked children) : purge.finish.Tracked children :=
  { tracked with
    left_suffix := nil_suffix
    bounded := (Nat.le_add_right _ _).trans tracked.bounded }

theorem Tracked.front (tracked : purge.Tracked children) (leftEq : purge.left = file :: rest) :
    ∃ before, getBinlogFiles children = before ++ file :: rest ∧
      before.length + (rest.length + 1) = purge.size := by
  obtain ⟨before, split⟩ := tracked.left_suffix
  rw [leftEq] at split
  refine ⟨before, split.symm, ?_⟩
  rw [tracked.size_eq, ← split, length_append, length_cons]

/-- What `BinlogCloudPurge` lets pass is safe once the producer has come to
file ten. -/
theorem deletion_safe (allowed : binlogCloudPurge view index = true)
    (advanced : ∀ filenum, view.producer = some filenum → 10 ≤ filenum) :
    Deletion.Safe { index := index, view := view } := by
  unfold binlogCloudPurge at allowed
  cases producerEq : view.producer with
  | none => simp [producerEq] at allowed
  | some filenum =>
    simp only [producerEq, Bool.and_eq_true, decide_eq_true_eq,
      Bool.not_eq_true', any_eq_false] at allowed
    obtain ⟨near, unneeded⟩ := allowed
    have reached := advanced filenum producerEq
    refine ⟨?_, ?_, ?_⟩
    · rintro other same
      cases producerEq.symm.trans same
      unfold castUInt32 at near
      change index + 10 ≤ filenum
      omega
    · intro slave member dbSync
      apply unneeded slave member
      simp [PurgeSlave.needs, dbSync]
    · intro slave member binlogSync
      have notNeeded := unneeded slave member
      simpa [PurgeSlave.needs, binlogSync] using notNeeded

theorem Tracked.step (tracked : purge.Tracked children) (keeps : purge.Keeps call view)
    (stepped : purge.step call view = some next) :
    next.Tracked children := by
  unfold Purge.step at stepped
  cases leftEq : purge.left with
  | nil => simp [leftEq] at stepped
  | cons file rest =>
    obtain ⟨before, filesEq, sizeEq⟩ := tracked.front leftEq
    have bounded := tracked.bounded
    rw [leftEq, length_cons] at bounded
    have restSuffix : rest <:+ getBinlogFiles children :=
      (suffix_cons file rest).trans (leftEq ▸ tracked.left_suffix)
    simp only [leftEq, Option.some.injEq] at stepped
    split_ifs at stepped with triggers allowed deletes
    · obtain ⟨advanced, contiguous⟩ := keeps (by
        simp only [deletesNext, leftEq, triggers, deletes, Bool.and_true, Bool.true_and]
        exact allowed)
      rw [leftEq, length_cons] at contiguous
      have count : before.length = purge.deleteNum := by omega
      subst stepped
      refine ⟨?_, ?_, tracked.size_eq, restSuffix, ?_⟩
      · intro deletion member
        rcases mem_append.mp member with old | new
        · exact tracked.deletions deletion old
        · rw [mem_singleton.mp new]
          exact deletion_safe (Bool.and_eq_true_iff.mp allowed).2 advanced
      · simp only [map_append, tracked.deleted_eq, filesEq, ← count,
          take_append, Nat.add_sub_cancel_left]
        rw [take_of_length_le (Nat.le_succ _)]
        simp
      · simp only
        omega
    · subst stepped
      refine ⟨tracked.deletions, tracked.deleted_eq, tracked.size_eq, restSuffix, ?_⟩
      simp only
      omega
    · exact stepped ▸ tracked.finish
    · exact stepped ▸ tracked.finish

theorem Tracked.noticed (tracked : purge.Tracked children) (breaks : ¬purge.Keeps call view) :
    ∃ next, purge.step call view = some next ∧ ¬next.Safe children := by
  obtain ⟨deletes, broken⟩ := Classical.not_imp.mp breaks
  cases leftEq : purge.left with
  | nil => simp [deletesNext, leftEq] at deletes
  | cons file rest =>
    simp only [deletesNext, leftEq, Bool.and_eq_true] at deletes
    obtain ⟨⟨⟨triggers, found⟩, allowed⟩, works⟩ := deletes
    refine ⟨_, by
      simp only [Purge.step, leftEq, triggers, found, allowed, works, Bool.and_self, if_true]
      rfl, ?_⟩
    intro safe
    apply broken
    constructor
    · intro filenum producerEq
      have distance := (safe.deletions
        { index := file.1, view := view }
        (mem_append_right _ (mem_singleton_self _))).distance filenum producerEq
      exact (Nat.le_add_left _ _).trans distance
    · -- Deleting behind a gap would put a larger number in its place.
      obtain ⟨before, filesEq, sizeEq⟩ := tracked.front leftEq
      have bounded := tracked.bounded
      rw [leftEq, length_cons] at bounded ⊢
      by_contra gap
      have earlier : purge.deleteNum < before.length := by omega
      obtain ⟨first, others, dropEq⟩ := exists_cons_of_ne_nil
        (show before.drop purge.deleteNum ≠ [] by simpa using earlier)
      have smaller : first.1 < file.1 := by
        have ascending := ascending_getBinlogFiles children
        rw [filesEq] at ascending
        apply (pairwise_append.mp ascending).2.2 first _ file mem_cons_self
        apply mem_of_mem_drop (i := purge.deleteNum)
        rw [dropEq]
        exact mem_cons_self
      obtain ⟨tail, split⟩ := safe.isPrefix
      have behind : [file.1] ++ tail =
          ((getBinlogFiles children).drop purge.deleteNum).map Prod.fst := by
        rw [← append_right_inj
          (((getBinlogFiles children).take purge.deleteNum).map Prod.fst),
          ← map_append, take_append_drop, ← split,
          map_append, tracked.deleted_eq, append_assoc]
        rfl
      rw [filesEq, drop_append_of_le_length earlier.le, dropEq] at behind
      have same : file.1 = first.1 := (List.cons.inj behind).1
      omega

/-- A purge is safe in every state exactly if no file is deleted before the
producer has come to file ten, and none behind a file that could not be
deleted. -/
theorem safe_iff_keeps (call : PurgeCall) (children : List Bytes) (views : List PurgeView) :
    RunSatisfies (step call) (Safe children) (start call children) views ↔
      RunAdmissible (step call) (Keeps call) (start call children) views :=
  runSatisfies_iff_runSafe Tracked.safe Tracked.step Tracked.noticed (tracked_start call children)

example : purgelogstoNumber (ascii "write2file3") = some 3 := by
  decide +kernel

/-- The call of `PURGELOGSTO write2file3`. -/
def manualCall : PurgeCall where
  manual := true
  upTo := 3
  expireLogsNums := 10
  expireLogsDays := 7

/-- The directory of a log with four files. -/
def fourFiles : List Bytes :=
  [ascii "write2file0", ascii "write2file1", ascii "write2file2",
    ascii "write2file3", ascii "manifest"]

/-- The producer is in its fourth file and there are no slaves. -/
def earlyView : PurgeView where
  mtime := some 0
  now := 0
  found := true
  producer := some 3
  slaves := []
  deletes := true

/-- The purge after some deletions. -/
def afterDeletions (count : Nat) : Purge where
  left := (getBinlogFiles fourFiles).drop count
  size := 4
  deleteNum := count
  remainExpireNum := -6 - count
  deleted := (List.range count).map fun index => { index := index, view := earlyView }

/-- `PURGELOGSTO write2file3` while the producer writes to its fourth file
deletes that file as well. -/
theorem not_safe_activeFile :
    ¬RunSatisfies (step manualCall) (Safe fourFiles)
      (start manualCall fourFiles) (List.replicate 4 earlyView) := by
  intro safe
  have initially : start manualCall fourFiles = afterDeletions 0 := by decide +kernel
  have deletes : ∀ count < 4, step manualCall (afterDeletions count) earlyView =
      some (afterDeletions (count + 1)) := by
    decide +kernel
  rw [initially] at safe
  have first := safe.2 _ (deletes 0 (by decide))
  have second := first.2 _ (deletes 1 (by decide))
  have third := second.2 _ (deletes 2 (by decide))
  have last : Safe fourFiles (afterDeletions 4) := third.2 _ (deletes 3 (by decide))
  have distance := (last.deletions
    { index := 3, view := earlyView } (by decide)).distance 3 rfl
  exact absurd distance (by decide)

end Purge

end Pika.Replication
