import Pika.Binlog.TailingReader

/-!
# A following reader loses and tears nothing

The invariant of the system: the completed records are a journal behind which
at most one `Put` is running, and the reader stands before exactly those
records it has not returned.  Every admissible step keeps it, so along every
interleaving the returned items are the first completed ones.
-/

namespace Pika.Binlog

open Foundation
namespace Tailing

/-- Where the writer stands behind the journal of the completed records. -/
inductive Writing (base : Binlog) (system : Tailing) : Bool → Prop where
  | resting (pending_eq : system.pending = []) (log_eq : system.log = base) :
      Writing base system false
  | running (now : Nat → Nat) (nonempty : system.item ≠ [])
      (fits : (base.position.place base.fileSize system.item.length).Fits)
      (progress : Progress base now system.item system.log system.pending rolled) :
      Writing base system rolled

/-- The invariant of the system: the completed records are a journal, the
writer stands behind it, and the reader before the records it has not
returned. -/
def Kept (system : Tailing) : Prop :=
  ∃ base rolled rest, base.Journal { filenum := 0, offset := 0 } system.completed ∧
      Writing base system rolled ∧
      system.completed = system.skipped ++ system.returned ++ rest ∧
      Following system.log.files base.position rolled rest system.session

theorem kept_initial (fileSize term : Nat) : (initial fileSize term).Kept :=
  ⟨fresh fileSize term, false, [], journal_fresh fileSize term, .resting rfl rfl, rfl, .unset rfl⟩

variable {system next : Tailing}

/-- The reader's steps leave the writer where it is. -/
theorem Writing.of_eq (writing : Writing base system rolled) (log_eq : next.log = system.log)
    (pending_eq : next.pending = system.pending) (item_eq : next.item = system.item) :
    Writing base next rolled := by
  cases writing with
  | resting pending log => exact .resting (pending_eq.trans pending) (log_eq.trans log)
  | running now nonempty fits progress =>
    rw [← item_eq] at nonempty fits
    rw [← item_eq, ← pending_eq, ← log_eq] at progress
    exact .running now nonempty fits progress

theorem Writing.visible (writing : Writing base system rolled)
    (journal : base.Journal { filenum := 0, offset := 0 } system.completed) :
    Visible system.log system.completed base.position rolled := by
  cases writing with
  | resting _ log_eq =>
    rw [log_eq]
    exact journal.visible_of_agree (fun _ _ => rfl)
      journal.aligned.getProducerStatus_eq (by simp) (by simp)
  | running now nonempty fits progress =>
    refine progress.visible journal ?_
    rw [← BinlogOffset.place_filenum]
    exact fits.1

/-- The record of a completed `Put`, as the files show it. -/
theorem completes_of_visible {log next : Binlog} (visible : Visible log records stop rolled)
    (journal : next.Journal { filenum := 0, offset := 0 } (records ++ [record]))
    (sameFiles : next.files = log.files) :
    Completes log.files stop rolled record next.position := by
  have chain := journal.chain.drop
  rw [sameFiles, visible.chain.positionAfter_eq_stop] at chain
  refine ⟨chain, ?_⟩
  intro published
  cases chain with
  | roll _ _ _ tail => exact tail
  | @item _ _ item _ _ _ _ now split _ =>
    -- The file of the end is closed, so there is nothing behind it.
    have nothing := visible.closed published
    have grows := add_length_lt_recordEnd stop.offset item.length
    have lengths := congrArg List.length split
    rw [← add_length_frame now] at grows
    rw [List.length_drop, List.length_append, nothing] at lengths
    omega

section

variable (kept : system.Kept)
include kept

theorem Kept.put (admissible : system.Admissible (.put call))
    (stepped : system.step (.put call) = some next) :
    next.Kept := by
  obtain ⟨base, rolled, rest, journal, writing, split, following⟩ := kept
  simp only [step] at stepped
  split_ifs at stepped with enabled
  cases stepped
  obtain ⟨idle, _⟩ := enabled
  cases writing with
  | running now _ _ progress => exact absurd (List.isEmpty_iff.mp idle) progress.pending_ne_nil
  | resting pending_eq log_eq =>
    obtain ⟨nonempty, fits⟩ := admissible
    rw [log_eq] at fits following
    refine ⟨base, false, rest, journal, ?_, split, ?_⟩
    · refine .running call.now nonempty fits ?_
      simp only [log_eq]
      exact progress_putSteps base call.now call.item
    · simp only [log_eq]
      exact following

theorem Kept.write (stepped : system.step .write = some next) :
    next.Kept := by
  obtain ⟨base, rolled, rest, journal, writing, split, following⟩ := kept
  have visible := writing.visible journal
  simp only [step] at stepped
  cases writing with
  | resting pending_eq => simp [pending_eq] at stepped
  | running now nonempty fits progress =>
    generalize system.pending = steps at progress stepped
    cases steps with
    | nil => exact absurd rfl progress.pending_ne_nil
    | cons first pending =>
      cases stepped
      cases pending with
      | nil =>
        obtain ⟨logEq, filesEq⟩ := progress.finish
        have positionEq := (journal.aligned.putSlice now system.item fits.number fits.kept).2
        have extended := journal.putSlice now nonempty fits.number fits.kept
        rw [← positionEq, ← logEq] at extended
        have completes := completes_of_visible visible extended filesEq
        have behind := following.complete completes
        rw [← filesEq] at behind
        exact ⟨first.apply system.log, false, _, extended,
          .resting rfl rfl, by simp [split], behind⟩
      | cons second pending =>
        obtain ⟨later, moved, evolves, still⟩ :=
          progress.step journal.aligned (by rw [← BinlogOffset.place_filenum]; exact fits.1)
            (by simp)
        exact ⟨base, later, rest, journal, .running now nonempty fits moved, split,
          following.evolve evolves still⟩

theorem Kept.seek (stepped : system.step (.seek count) = some next) :
    next.Kept := by
  obtain ⟨base, rolled, rest, journal, writing, split, following⟩ := kept
  have chain := (writing.visible journal).chain
  simp only [step] at stepped
  split_ifs at stepped with idle
  rw [← List.take_append_drop count system.completed] at chain
  have tail := chain.drop
  rw [seekPosition, tail.marked_start.seek_eq] at stepped
  cases stepped
  refine ⟨base, rolled, system.completed.drop count, journal, writing.of_eq rfl rfl rfl, ?_, ?_⟩
  · simp
  · simp only [idle]
    exact .idle (Reader.at_positioned _ _) (.inl tail)

theorem Kept.get (stepped : system.step .get = some next) : next.Kept := by
  obtain ⟨base, rolled, rest, journal, writing, split, following⟩ := kept
  simp only [step] at stepped
  split_ifs at stepped with enabled
  cases stepped
  obtain ⟨idle, opened⟩ := enabled
  refine ⟨base, rolled, rest, journal, writing.of_eq rfl rfl rfl, split, ?_⟩
  generalize system.session = session at following idle opened ⊢
  cases following with
  | unset unset => contradiction
  | idle standing ahead => exact .check standing ahead rfl
  | _ => cases idle

theorem Kept.read (stepped : system.step .read = some next) : next.Kept := by
  obtain ⟨base, rolled, rest, journal, writing, split, following⟩ := kept
  obtain ⟨read, others, restEq, returnedEq, advanced⟩ := following.step (writing.visible journal)
  simp only [step] at stepped
  split_ifs at stepped
  cases stepped
  refine ⟨base, rolled, others, journal, writing.of_eq rfl rfl rfl, ?_, advanced⟩
  simp [split, restEq, returnedEq]

end

theorem Kept.step (kept : system.Kept) (admissible : system.Admissible label)
    (stepped : system.step label = some next) :
    next.Kept := by
  cases label with
  | put call => exact kept.put admissible stepped
  | write => exact kept.write stepped
  | seek count => exact kept.seek stepped
  | get => exact kept.get stepped
  | read => exact kept.read stepped

theorem Kept.faithful (kept : system.Kept) : system.Faithful := by
  obtain ⟨base, rolled, rest, _, _, split, _⟩ := kept
  rw [Faithful, split, List.map_append, List.map_append, List.map_append]
  exact List.prefix_append _ _

instance (system : Tailing) : Decidable system.Faithful := inferInstanceAs (Decidable (_ <+: _))

instance (system : Tailing) (label : Label) : Decidable (system.Admissible label) :=
  match label with
  | .put _ => inferInstanceAs (Decidable (_ ∧ _))
  | .write | .seek _ | .get | .read => inferInstanceAs (Decidable True)

/-- Along every interleaving of `Put`s of non-empty items whose ends fit with a
reader's `Seek`s and `Get`s, the items the reader has returned are the first
ones completed behind its position. -/
theorem faithful_of_run {fileSize term : Nat} {labels : List Label}
    (admitted : RunAdmissible step Admissible (initial fileSize term) labels)
    (ran : run step (initial fileSize term) labels = some system) :
    system.Faithful :=
  Kept.faithful (invariant_of_run (fun _ _ _ => Kept.step)
    (kept_initial fileSize term) admitted ran)

/-- The reader takes the first item, meets a roll between its steps and goes
on to the next file. -/
theorem faithful_across_roll :
    ∃ labels system, RunAdmissible step Admissible (initial 0 0) labels ∧
        run step (initial 0 0) labels = some system ∧
        system.returned.map Record.item = [[97], [98]] ∧
        system.Faithful := by
  let labels : List Label :=
    [.put { item := [97], now := fun _ => 0 }, .write, .write, .write, .seek 0,
      .get, .read, .put { item := [98], now := fun _ => 0 }, .write, .read,
      .read, .read, .write, .write, .get, .read, .write, .read, .read, .read,
      .write, .read, .write] ++ List.replicate 4 .read
  have admitted : RunAdmissible step Admissible (initial 0 0) labels := by decide +kernel
  have items : (run step (initial 0 0) labels).map
      (fun system => system.returned.map Record.item) = some [[97], [98]] := by
    decide +kernel
  obtain ⟨system, ran, returned⟩ := Option.map_eq_some_iff.mp items
  exact ⟨labels, system, admitted, ran, returned, faithful_of_run admitted ran⟩

/-- A `Put` of an empty item, followed by one that fills the file and one that
rolls: the reader takes the empty record for the end of the file and returns
the last item as its first. -/
theorem not_faithful_empty_item :
    ∃ labels system, run step (initial 1024 0) labels = some system ∧ ¬ system.Faithful := by
  let labels : List Label :=
    [.put { item := [], now := fun _ => 0 }, .write, .write, .write,
      .put { item := List.replicate 1024 97, now := fun _ => 0 }, .write,
      .write, .write, .put { item := [98], now := fun _ => 0 }, .write,
      .write, .write, .write, .write, .write, .seek 0, .get] ++ List.replicate 9 .read
  have unfaithful : (run step (initial 1024 0) labels).map
      (fun system => decide system.Faithful) = some false := by
    decide +kernel
  obtain ⟨system, ran, lost⟩ := Option.map_eq_some_iff.mp unfaithful
  exact ⟨labels, system, ran, of_decide_eq_false lost⟩

end Tailing
end Pika.Binlog
