import Pika.Binlog.Landing
import Pika.Binlog.ProducerStatus

/-!
# The positions a TrySync is accepted at

`TrySyncOffsetCheck` seeks to a slave's position in the master's files and
compares where the reader stands with what the slave asked for.  It does not
look at what `Seek` returned, nor at where the current log begins: a position
is refused only if it is ahead of the master, if its file is gone, or if the
walk of `Seek` passes over it.
-/

namespace Pika.Replication

open Foundation
open Binlog (BinlogOffset Record Reader PassesOver kBlockSize)

/-- The reply codes of a TrySync. -/
inductive ReplyCode where
  | ok
  | syncPointBePurged
  | syncPointLarger
  | error
  deriving DecidableEq, Repr

/-- The part of `InnerResponse::TrySync` that the offset check writes. -/
structure TrySyncResponse where
  replyCode : ReplyCode
  /-- `binlog_offset`, the master's position. -/
  binlogOffset : Option BinlogOffset
  deriving DecidableEq, Repr

/-- `TrySyncOffsetCheck`, with the response it fills in. -/
def trySyncOffsetCheck (log : Binlog) (slave : BinlogOffset)
    (response : TrySyncResponse) : Bool × TrySyncResponse :=
  match log.getProducerStatus with
  | none => (false, { response with replyCode := .error })
  | some boffset =>
    let response := { response with binlogOffset := some boffset }
    if boffset.filenum < slave.filenum ∨
        boffset.filenum = slave.filenum ∧ boffset.offset < slave.offset then
      (false, { response with replyCode := .syncPointLarger })
    else if log.files.fileExists slave.filenum = false then
      (false, { response with replyCode := .syncPointBePurged })
    else
      let seeked := Reader.seekedOffset log slave.filenum slave.offset
      if seeked.filenum ≠ slave.filenum ∨ seeked.offset ≠ slave.offset then
        (false, { response with replyCode := .error })
      else (true, response)

/-- A master's log with the records that were put since it was created or last
taken over. -/
structure CurrentLog where
  log : Binlog
  /-- Where it was created or taken over. -/
  start : BinlogOffset
  records : List Record
  /-- The records lie in the files, up to the published position. -/
  journal : log.Journal start records

namespace CurrentLog

/-- A log that has just been created or taken over. -/
def ofRecordEnd (log : Binlog) (atEnd : log.AtRecordEnd) : CurrentLog where
  log := log
  start := log.position
  records := []
  journal := ⟨atEnd.aligned, .done atEnd.recordEnd.marked⟩

/-- The start of the log, the ends of its records, and the starts of the files
that it rolled into. -/
def ResumePoint (current : CurrentLog) (position : BinlogOffset) : Prop :=
  position ∈ current.start :: current.records.map Record.position ∨
    position.offset = 0 ∧ current.start.filenum < position.filenum ∧
      position.filenum ≤ current.log.position.filenum

/-- The records that end behind a position. -/
def behind (current : CurrentLog) (position : BinlogOffset) : List Record :=
  current.records.filter (position < ·.position)

/-- A slave's position is accepted exactly if it is a resume point, and from
every accepted position a reader returns the rest of the log. -/
def ResumesTruly (current : CurrentLog) (slave : BinlogOffset) : Prop :=
  ∀ response, ((trySyncOffsetCheck current.log slave response).1 = true ↔
        current.ResumePoint slave) ∧
      ((trySyncOffsetCheck current.log slave response).1 = true → ∃ reader,
          Reader.seek current.log slave.filenum slave.offset = some reader ∧
            Binlog.Drains current.log reader (current.behind slave))

/-- A slave's position is a resume point, is ahead of the master, lies in no
file of the master, or is passed over by the items that the headers from the
start of its block announce. -/
def PositionSafe (current : CurrentLog) (slave : BinlogOffset) : Prop :=
  current.ResumePoint slave ∨ current.log.position < slave ∨
    current.log.files.fileExists slave.filenum = false ∨
    PassesOver (Reader.blockBytes current.log.files slave.filenum slave.offset)
      (slave.offset % kBlockSize)

variable {current : CurrentLog} {slave position : BinlogOffset}

/-! ## What is accepted -/

theorem accepted_iff (current : CurrentLog) (slave : BinlogOffset) (response : TrySyncResponse) :
    (trySyncOffsetCheck current.log slave response).1 = true ↔ ¬current.log.position < slave ∧
        current.log.files.fileExists slave.filenum = true ∧
        ¬PassesOver (Reader.blockBytes current.log.files slave.filenum slave.offset)
          (slave.offset % kBlockSize) := by
  have published := current.journal.aligned.getProducerStatus_eq
  simp only [trySyncOffsetCheck, published]
  by_cases ahead : current.log.position < slave
  · rw [if_pos (BinlogOffset.lt_iff.mp ahead)]
    simp [ahead]
  · rw [if_neg (mt BinlogOffset.lt_iff.mpr ahead)]
    cases present : current.log.files.fileExists slave.filenum with
    | false => simp
    | true =>
      rw [← Reader.seekedOffset_eq_iff present, BinlogOffset.ext_iff, if_neg (Bool.noConfusion ·)]
      simp only [ahead, ← not_and_or, ite_not]
      split_ifs with same <;> simp [same]

/-- Every block start of an existing file is accepted, also inside an item or
behind the end of the file. -/
theorem accepted_of_blockStart (notAhead : ¬current.log.position < slave)
    (present : current.log.files.fileExists slave.filenum = true)
    (blockStart : slave.offset % kBlockSize = 0) (response : TrySyncResponse) :
    (trySyncOffsetCheck current.log slave response).1 = true := by
  apply (accepted_iff current slave response).mpr
  refine ⟨notAhead, present, ?_⟩
  rw [blockStart]
  exact Binlog.not_passesOver_zero _

/-! ## Resume points -/

/-- From a resume point, the log goes on with the records behind it. -/
theorem ResumePoint.chain (point : current.ResumePoint position) :
    Binlog.Chain current.log.files position (current.behind position) current.log.position := by
  have split : ∃ earlier later, current.records = earlier ++ later ∧
      (∀ record ∈ earlier, ¬position < record.position) ∧
      Binlog.Chain current.log.files position later current.log.position := by
    rcases point with member | ⟨fileStart, behindStart, bounded⟩
    · exact current.journal.chain.split_at member
    · have place : position = { filenum := position.filenum, offset := 0 } := by
        ext
        · rfl
        · exact fileStart
      rw [place]
      exact current.journal.chain.fileStart behindStart bounded
  obtain ⟨earlier, later, recordsEq, before, chain⟩ := split
  have after : ∀ record ∈ later, position < record.position := by
    intro record member
    exact List.rel_of_pairwise_cons chain.ascending (List.mem_map_of_mem member)
  have behindEq : current.behind position = later := by
    rw [behind, recordsEq, List.filter_append, List.filter_eq_nil_iff.mpr (by simpa using before),
      List.filter_eq_self.mpr (by simpa using after), List.nil_append]
  exact behindEq ▸ chain

theorem ResumePoint.accepted (point : current.ResumePoint slave) (response : TrySyncResponse) :
    (trySyncOffsetCheck current.log slave response).1 = true := by
  have chain := point.chain
  have marked := chain.marked_start
  rw [accepted_iff]
  refine ⟨chain.not_stop_lt_start, marked.fileExists, ?_⟩
  rw [← Reader.seekedOffset_eq_iff marked.fileExists]
  simp [Reader.seekedOffset, marked.seek_eq, Reader.positioned]

/-- Elsewhere, the safe positions are those that are refused. -/
theorem positionSafe_iff_refused (notPoint : ¬current.ResumePoint slave)
    (response : TrySyncResponse) :
    current.PositionSafe slave ↔ ¬(trySyncOffsetCheck current.log slave response).1 = true := by
  rw [accepted_iff, not_and_or, not_and_or, not_not, not_not, Bool.not_eq_true, PositionSafe]
  exact or_iff_right notPoint

/-- A TrySync resumes truly at exactly the safe positions. -/
theorem resumesTruly_iff_positionSafe (current : CurrentLog) (slave : BinlogOffset) :
    current.ResumesTruly slave ↔ current.PositionSafe slave := by
  by_cases point : current.ResumePoint slave
  · refine iff_of_true (fun response => ⟨?_, fun _ => ?_⟩) (.inl point)
    · exact iff_of_true (point.accepted response) point
    · exact ⟨_, point.chain.marked_start.seek_eq, Binlog.drains_of_chain point.chain
          current.journal.aligned.getProducerStatus_eq
          (Reader.at_positioned _ _)⟩
  · constructor
    · intro truly
      apply (positionSafe_iff_refused point ⟨.ok, none⟩).mpr
      intro accepted
      exact point ((truly _).1.mp accepted)
    · intro safe response
      have refused := (positionSafe_iff_refused point response).mp safe
      exact ⟨iff_of_false refused point, fun accepted => (refused accepted).elim⟩

/-- A log that was taken over at file 1 and then, without a record in between,
at file 3. -/
def takenOverTwice : Binlog :=
  (((Binlog.fresh 104857600 0).setProducerStatus 0 1 0 0 0).2.setProducerStatus 0 3 0 0 0).2

theorem atRecordEnd_takenOverTwice : takenOverTwice.AtRecordEnd := by
  have opened : ((Binlog.fresh 104857600 0).setProducerStatus 0 1 0 0 0).2.opened = true := rfl
  obtain ⟨next, stepped, atEnd⟩ :=
    Binlog.atRecordEnd_setProducerStatus opened 0 3 0 0 (show ¬(4 ≤ 0 ∧ 0 < 8) by decide)
  rw [takenOverTwice, stepped]
  exact atEnd

/-- The start of file 1, left over from the first takeover, is accepted. -/
theorem not_resumesTruly_leftOver :
    ¬(ofRecordEnd takenOverTwice atRecordEnd_takenOverTwice).ResumesTruly
      { filenum := 1, offset := 0 } := by
  intro truly
  have point := (truly ⟨.ok, none⟩).1.mp (accepted_of_blockStart (by decide) rfl rfl _)
  rcases point with member | ⟨-, behind, -⟩
  · exact absurd (List.mem_singleton.mp member) (by decide)
  · exact absurd behind (by decide)

end CurrentLog
end Pika.Replication
