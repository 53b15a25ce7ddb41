import Pika.Binlog.Tailing

/-!
# What a running Put shows

Between two completed `Put`s a reader sees the files of the completed ones, at
most grown behind their end, and the end of the completed ones as the producer
status; once a roll is published, the start of the next file.
-/

namespace Pika.Binlog

open Foundation

/-- What the shared state shows while the records up to `stop` are complete. -/
structure Visible (log : Binlog) (records : List Record) (stop : BinlogOffset)
    (rolled : Bool) : Prop where
  chain : Chain log.files { filenum := 0, offset := 0 } records stop
  published : log.getProducerStatus = some (if rolled then stop.nextFile else stop)
  closed : rolled = true → (log.files.contents stop.filenum).length = stop.offset
  nextExists : rolled = true → log.files.fileExists (stop.filenum + 1) = true
  nextBounded : rolled = true → stop.filenum + 1 < 2 ^ 32

/-- How the files may change between completed `Put`s. -/
structure Files.Evolves (files later : Files) (stop : BinlogOffset) (rolled : Bool) : Prop where
  grows : ∀ number ≤ stop.filenum, ∃ added, later.contents number = files.contents number ++ added
  closed : ∀ number, number < stop.filenum ∨ number = stop.filenum ∧ rolled = true →
      later.contents number = files.contents number
  fileExists : ∀ number, files.fileExists number = true → later.fileExists number = true

/-- Whether the current file is larger than the threshold. -/
abbrev Full (log : Binlog) : Prop := log.fileSize < (log.files.contents log.proNum).length

/-- How far a running `Put` has come, from the log `base` it started on. -/
inductive Progress (base : Binlog) (now : Nat → Nat) (item : Bytes) :
    Binlog → List WriterStep → Bool → Prop where
  | creating (full : base.Full) :
      Progress base now item base (.createNextFile :: .publishRoll :: .initLogFile ::
          produceSteps (base.roll.produce now item))
        false
  | publishing (full : base.Full) :
      Progress base now item base.createNextFile (.publishRoll :: .initLogFile ::
          produceSteps (base.roll.produce now item))
        false
  | initializing (full : base.Full) :
      Progress base now item base.createNextFile.publishRoll
        (.initLogFile :: produceSteps (base.roll.produce now item))
        true
  | appending {slices rest : List Bytes}
      (split : (base.checkRoll.produce now item).appends = slices ++ rest) :
      Progress base now item (slices.foldl appendQueue base.checkRoll)
        (rest.map .append ++ [.publishPut (base.checkRoll.produce now item)])
        (decide base.Full)

variable {base log : Binlog}

theorem progress_putSteps (base : Binlog) (now : Nat → Nat) (item : Bytes) :
    Progress base now item base (putSteps now item base) false := by
  by_cases full : base.Full
  · have rolled : base.checkRoll = base.roll := if_pos full
    have steps : putSteps now item base = .createNextFile :: .publishRoll :: .initLogFile ::
          produceSteps (base.roll.produce now item) := by
      rw [putSteps, if_pos full, rolled]
      rfl
    rw [steps]
    exact .creating full
  · have stayed : base.checkRoll = base := if_neg full
    have steps : putSteps now item base = ((base.checkRoll.produce now item).appends.map .append ++
          [.publishPut (base.checkRoll.produce now item)]) := by
      rw [putSteps, if_neg full, List.nil_append, produceSteps]
    have start : Progress base now item _ _ (decide base.Full) :=
      .appending (List.nil_append _).symm
    rw [decide_eq_false full, List.foldl_nil] at start
    rwa [steps, stayed] at *

/-! ## The files under a running Put -/

namespace Files.Evolves

variable {files later : Files}

/-- The completed records survive an evolution. -/
theorem toGrows (evolves : files.Evolves later stop rolled) : files.Grows later stop.filenum where
  below number earlier := evolves.closed number (.inl earlier)
  atLast := evolves.grows stop.filenum le_rfl
  fileExists number _ := evolves.fileExists number

theorem refl (files : Files) (stop : BinlogOffset) (rolled : Bool) :
    files.Evolves files stop rolled where
  grows _ _ := ⟨[], (List.append_nil _).symm⟩
  closed _ _ := rfl
  fileExists _ present := present

theorem of_agree (agree : ∀ number ≤ stop.filenum, later number = files number) (kept : ∀ number,
      files.fileExists number = true → later.fileExists number = true) :
    files.Evolves later stop rolled where
  grows number bounded := ⟨[], by simp [Files.contents, agree number bounded]⟩
  closed number place := by
    have bounded : number ≤ stop.filenum := by omega
    simp [Files.contents, agree number bounded]
  fileExists := kept

/-- Appending to the open file of the end is an evolution. -/
theorem append (files : Files) (stop : BinlogOffset) (slice : Bytes) :
    files.Evolves (files.append stop.filenum slice) stop false where
  grows number _ := by
    by_cases same : number = stop.filenum
    · exact ⟨slice, by rw [same, contents_append_self]⟩
    · exact ⟨[], by rw [contents_append_of_ne files slice same, List.append_nil]⟩
  closed number place := by
    refine contents_append_of_ne files slice ?_
    rcases place with earlier | ⟨_, impossible⟩
    · exact earlier.ne
    · cases impossible
  fileExists number present := by simp [present]

/-- Appending to a file behind the end is an evolution. -/
theorem append_behind (files : Files) (slice : Bytes) (behind : stop.filenum < number) :
    files.Evolves (files.append number slice) stop rolled := by
  apply of_agree
  · intro other bounded
    simp [Files.append, show other ≠ number by omega]
  · intro other present
    simp [present]

end Files.Evolves

/-- The steps of a roll, while file numbers do not wrap. -/
theorem Aligned.roll_spec (aligned : base.Aligned) (bounded : base.proNum + 1 < 2 ^ 32) :
    base.createNextFile.proNum = base.proNum + 1 ∧ base.createNextFile.files =
        base.files.newWritableFile (base.proNum + 1) ∧
      base.roll.proNum = base.proNum + 1 ∧
      base.roll.files = base.files.newWritableFile (base.proNum + 1) ∧
      base.createNextFile.publishRoll.position = base.position.nextFile ∧
      base.roll.position = base.position.nextFile := by
  have number := castUInt32_succ bounded
  have files : base.createNextFile.files = base.files.newWritableFile (base.proNum + 1) := by
    rw [createNextFile, number]
  have published : base.createNextFile.publishRoll.position = base.position.nextFile := by
    rw [position, publishRoll, createNextFile, BinlogOffset.nextFile,
      position_filenum, aligned.proNum_eq, number]
  exact ⟨number, files, number, files, published, published⟩

theorem Aligned.next_lt_of_full (aligned : base.Aligned) (full : base.Full)
    (numberFits : (base.position.writeFrom base.fileSize).filenum < 2 ^ 32) :
    base.proNum + 1 < 2 ^ 32 := by
  have past : base.fileSize < base.position.offset := by
    rwa [position_offset, ← aligned.size_eq]
  have fromNext : base.position.writeFrom base.fileSize = base.position.nextFile := if_pos past
  rwa [fromNext, BinlogOffset.nextFile_filenum, position_filenum, aligned.proNum_eq] at numberFits

/-- Files behind the end do not matter to the completed records. -/
theorem Journal.visible_of_agree (journal : base.Journal { filenum := 0, offset := 0 } records)
    (agree : ∀ number ≤ base.proNum, log.files number = base.files number)
    (published : log.getProducerStatus =
      some (if rolled then base.position.nextFile else base.position))
    (nextExists : rolled = true → log.files.fileExists (base.proNum + 1) = true)
    (nextBounded : rolled = true → base.proNum + 1 < 2 ^ 32) :
    Visible log records base.position rolled := by
  have aligned := journal.aligned
  have numberEq := aligned.proNum_eq
  have grows := Files.Grows.of_agree agree
  refine ⟨journal.chain.mono ?_, published, ?_, ?_, ?_⟩
  · rwa [position_filenum, numberEq]
  · intro _
    rw [position_filenum, numberEq, Files.contents, agree _ le_rfl,
      position_offset, ← aligned.size_eq, Files.contents]
  · rwa [position_filenum, numberEq]
  · rwa [position_filenum, numberEq]

/-- Wherever a `Put` stands, the completed records are visible. -/
theorem Progress.visible (progress : Progress base now item log pending rolled)
    (journal : base.Journal { filenum := 0, offset := 0 } records) (numberFits :
      (base.position.writeFrom base.fileSize).filenum < 2 ^ 32) :
    Visible log records base.position rolled := by
  have aligned := journal.aligned
  cases progress with
  | creating full =>
    exact journal.visible_of_agree (fun _ _ => rfl)
      aligned.getProducerStatus_eq (by simp) (by simp)
  | publishing full =>
    have bounded := aligned.next_lt_of_full full numberFits
    obtain ⟨_, files, _⟩ := aligned.roll_spec bounded
    refine journal.visible_of_agree ?_ ?_ (by simp) (by simp)
    · intro number earlier
      rw [files]
      simp [Files.newWritableFile, show number ≠ base.proNum + 1 by omega]
    · exact aligned.getProducerStatus_eq
  | initializing full =>
    have bounded := aligned.next_lt_of_full full numberFits
    obtain ⟨_, files, _, _, published, _⟩ := aligned.roll_spec bounded
    refine journal.visible_of_agree ?_ ?_ ?_ (fun _ => bounded)
    · intro number earlier
      change base.createNextFile.files number = _
      rw [files]
      simp [Files.newWritableFile, show number ≠ base.proNum + 1 by omega]
    · rw [if_pos rfl, ← published, getProducerStatus]
      exact if_pos aligned.opened
    · intro _
      change base.createNextFile.files.fileExists _ = true
      simp [files]
  | @appending slices rest split =>
    rw [foldl_appendQueue_of_present aligned.checkRoll.fileExists]
    have published : (base.checkRoll.appendQueue slices.flatten).getProducerStatus =
        some base.checkRoll.position := if_pos aligned.checkRoll.opened
    by_cases full : base.Full
    · have rolled : base.checkRoll = base.roll := if_pos full
      have bounded := aligned.next_lt_of_full full numberFits
      obtain ⟨_, _, rollNumber, rollFiles, _, rollPosition⟩ := aligned.roll_spec bounded
      have files : (base.roll.appendQueue slices.flatten).files =
          (base.files.newWritableFile (base.proNum + 1)).append (base.proNum + 1)
            slices.flatten := by
        rw [appendQueue, rollNumber, rollFiles]
      rw [rolled] at published ⊢
      rw [decide_eq_true full]
      refine journal.visible_of_agree ?_ ?_ ?_ (fun _ => bounded)
      · intro number earlier
        rw [files]
        simp [Files.append, Files.newWritableFile, show number ≠ base.proNum + 1 by omega]
      · rw [published, rollPosition, if_pos rfl]
      · intro _
        rw [files]
        simp
    · have stayed : base.checkRoll = base := if_neg full
      rw [stayed] at published ⊢
      rw [decide_eq_false full]
      refine ⟨journal.chain.mono ?_, published, by simp, by simp, by simp⟩
      rw [position_filenum, aligned.proNum_eq]
      exact .append base.files base.proNum _

theorem Progress.step (progress : Progress base now item log (next :: pending) rolled)
    (aligned : base.Aligned) (numberFits :
      (base.position.writeFrom base.fileSize).filenum < 2 ^ 32) (unfinished : pending ≠ []) :
    ∃ later, Progress base now item (next.apply log) pending later ∧
        log.files.Evolves (next.apply log).files base.position rolled ∧
        (rolled = true → later = true) := by
  generalize whole : next :: pending = steps at progress
  cases progress with
  | creating full =>
    cases whole
    have bounded := aligned.next_lt_of_full full numberFits
    obtain ⟨_, files, _⟩ := aligned.roll_spec bounded
    refine ⟨false, .publishing full, ?_, by simp⟩
    change base.files.Evolves base.createNextFile.files _ _
    rw [files]
    apply Files.Evolves.of_agree
    · intro number earlier
      rw [position_filenum, aligned.proNum_eq] at earlier
      simp [Files.newWritableFile, show number ≠ base.proNum + 1 by omega]
    · intro number present
      simp [present]
  | publishing full =>
    cases whole
    exact ⟨true, .initializing full, Files.Evolves.refl _ _ _, by simp⟩
  | initializing full =>
    cases whole
    have rolled : base.checkRoll = base.roll := if_pos full
    have start : Progress base now item _ _ (decide base.Full) :=
      .appending (List.nil_append _).symm
    rw [rolled] at start
    exact ⟨_, start, Files.Evolves.refl _ _ _, fun _ => decide_eq_true full⟩
  | @appending slices rest split =>
    cases rest with
    | nil =>
      cases whole
      contradiction
    | cons slice rest =>
      cases whole
      have moved : Progress base now item ((slices ++ [slice]).foldl appendQueue base.checkRoll)
          (rest.map .append ++ [.publishPut (base.checkRoll.produce now item)])
          (decide base.Full) :=
        .appending (by rw [split, List.append_assoc]; rfl)
      rw [List.foldl_append] at moved
      refine ⟨_, moved, ?_, id⟩
      rw [foldl_appendQueue_of_present aligned.checkRoll.fileExists]
      change (base.checkRoll.appendQueue slices.flatten).files.Evolves
        ((base.checkRoll.appendQueue slices.flatten).files.append base.checkRoll.proNum slice) _ _
      by_cases full : base.Full
      · have rolled : base.checkRoll = base.roll := if_pos full
        have bounded := aligned.next_lt_of_full full numberFits
        obtain ⟨_, _, rollNumber, _⟩ := aligned.roll_spec bounded
        rw [rolled, rollNumber]
        apply Files.Evolves.append_behind
        rw [position_filenum, aligned.proNum_eq]
        exact Nat.lt_succ_self _
      · have stayed : base.checkRoll = base := if_neg full
        rw [stayed, decide_eq_false full, ← aligned.proNum_eq]
        exact Files.Evolves.append _ base.position slice

/-- The last step of a `Put` leaves the log the whole `Put` leaves, and changes
no file. -/
theorem Progress.finish (progress : Progress base now item log [next] rolled) :
    next.apply log = base.putSlice now item ∧ (next.apply log).files = log.files := by
  generalize whole : [next] = steps at progress
  cases progress with
  | creating | publishing => cases whole
  | initializing => simp [produceSteps] at whole
  | @appending slices rest split =>
    cases rest with
    | nil =>
      cases whole
      rw [List.append_nil] at split
      rw [← split]
      exact ⟨rfl, rfl⟩
    | cons slice rest => simp at whole

theorem Progress.pending_ne_nil (progress : Progress base now item log pending rolled) :
    pending ≠ [] := by
  cases progress <;> simp

end Pika.Binlog
