import Pika.Binlog.RoundTrip

/-!
# Restarting a log at a master's position

`SetProducerStatus` fills a new file up to the position with bad records.  At
every position at which a record can end the filling is exact and can be
walked, so the restarted log is a journal that has no records yet.
-/

namespace Pika.Binlog

open Foundation
open List hiding length

/-- Places in a block up to which bad records can fill it. -/
def Paddable (offset : Nat) : Prop := offset % kBlockSize = 0 ∨ kHeaderSize ≤ offset % kBlockSize

theorem paddable_recordEnd (offset : Nat) (nonempty : 0 < length) :
    Paddable (recordEnd offset length) :=
  (recordEnd_mod_cases offset nonempty).imp_right Nat.le_of_lt

theorem Paddable.sub_block (paddable : Paddable left) (whole : kBlockSize ≤ left) :
    Paddable (left - kBlockSize) := by
  rw [Paddable, ← Nat.mod_eq_sub_mod whole]
  exact paddable

/-- A whole block in front keeps a file seekable. -/
theorem Seekable.cons_block (seekable : Seekable rest) (whole : block.length = kBlockSize) :
    Seekable (block ++ rest) := by
  have lastBlock : (block ++ rest).length / kBlockSize * kBlockSize =
      block.length + rest.length / kBlockSize * kBlockSize := by
    rw [length_append, whole, Nat.add_div_left _ (by decide), Nat.succ_mul, Nat.add_comm]
  rw [Seekable, lastBlock, drop_length_add_append]
  exact seekable

theorem seekable_badRecord (now : Nat) (bounded : payload.length ≤ kBlockSize - kHeaderSize) :
    Seekable (header .badRecord payload.length now ++ payload) := by
  have walk := Walk.cons (.inr (.inr rfl)) bounded now .nil
  rw [append_nil] at walk
  by_cases whole : (header .badRecord payload.length now ++ payload).length % kBlockSize = 0
  · exact seekable_of_blockStart whole
  · have inside : (header .badRecord payload.length now ++ payload).length / kBlockSize = 0 := by
      simp only [length_append, length_header, kBlockSize, kHeaderSize] at whole bounded ⊢
      omega
    rw [Seekable, inside, Nat.zero_mul, drop_zero]
    exact walk

theorem length_badRecord (now : Nat) (room : kHeaderSize ≤ size) :
    (header .badRecord (size - kHeaderSize) now ++
      List.replicate (size - kHeaderSize) 42).length = size := by
  rw [length_append, length_header, length_replicate, Nat.add_sub_of_le room]

theorem appendPaddingLoop_zero (now : Nat) : appendPaddingLoop now 0 = ([], 0) := by
  rw [appendPaddingLoop]
  simp

theorem appendPaddingLoop_of_block (now : Nat) (whole : kBlockSize ≤ left)
    (later : appendPaddingLoop now (left - kBlockSize) = (bytes, rest)) :
    appendPaddingLoop now left = (header .badRecord (kBlockSize - kHeaderSize) now ++
          List.replicate (kBlockSize - kHeaderSize) 42 ++ bytes, rest) := by
  have unfinished : ¬(left = 0 ∨ kBlockSize < kHeaderSize) := by
    simp only [kBlockSize, kHeaderSize] at whole ⊢
    omega
  rw [appendPaddingLoop]
  simp only [if_pos whole, if_neg unfinished, later]

/-- A last part that can hold a header becomes one record. -/
theorem appendPaddingLoop_of_lt (now : Nat) (room : kHeaderSize ≤ left)
    (inBlock : left < kBlockSize) :
    appendPaddingLoop now left = (header .badRecord (left - kHeaderSize) now ++
        List.replicate (left - kHeaderSize) 42, 0) := by
  have unfinished : ¬(left = 0 ∨ left < kHeaderSize) := by
    simp only [kHeaderSize] at room ⊢
    omega
  rw [appendPaddingLoop]
  simp only [if_neg (Nat.not_le.mpr inBlock), if_neg unfinished, Nat.sub_self,
    appendPaddingLoop_zero, append_nil]

/-- The loop of `AppendPadding` covers a paddable length exactly. -/
theorem appendPaddingLoop_of_paddable (now : Nat) (paddable : Paddable left) :
    (appendPaddingLoop now left).2 = 0 ∧ (appendPaddingLoop now left).1.length = left ∧
      Seekable (appendPaddingLoop now left).1 := by
  induction left using Nat.strongRecOn with
  | ind left ih =>
    by_cases whole : kBlockSize ≤ left
    · have shorter : left - kBlockSize < left := by
        simp only [kBlockSize] at whole ⊢
        omega
      have room : kHeaderSize ≤ kBlockSize := by decide
      obtain ⟨nothingLeft, lengthEq, seekable⟩ :=
        ih (left - kBlockSize) shorter (paddable.sub_block whole)
      have blockLength := length_badRecord now room
      rcases later : appendPaddingLoop now (left - kBlockSize) with ⟨bytes, rest⟩
      rw [later] at nothingLeft lengthEq seekable
      rw [appendPaddingLoop_of_block now whole later]
      refine ⟨nothingLeft, ?_, seekable.cons_block blockLength⟩
      rw [length_append, lengthEq, blockLength, Nat.add_sub_of_le whole]
    · by_cases finished : left = 0
      · subst finished
        rw [appendPaddingLoop_zero]
        exact ⟨rfl, rfl, seekable_of_blockStart rfl⟩
      · have room : kHeaderSize ≤ left := by
          simp only [Paddable, kBlockSize, kHeaderSize] at paddable whole ⊢
          omega
        have inBlock := Nat.lt_of_not_le whole
        have bounded : (List.replicate (left - kHeaderSize) 42 : Bytes).length ≤
            kBlockSize - kHeaderSize := by
          rw [length_replicate]
          exact Nat.sub_le_sub_right inBlock.le _
        have seekable := seekable_badRecord now bounded
        rw [length_replicate] at seekable
        rw [appendPaddingLoop_of_lt now room inBlock]
        exact ⟨rfl, length_badRecord now room, seekable⟩

theorem appendPadding_of_paddable (now : Nat) (paddable : Paddable length) :
    (appendPadding now length).2 = length ∧ (appendPadding now length).1.length = length ∧
      Seekable (appendPadding now length).1 := by
  rw [appendPadding]
  by_cases short : length < kHeaderSize
  · have nothing : length = 0 := by
      simp only [Paddable, kBlockSize, kHeaderSize] at paddable short
      omega
    subst nothing
    simp only [if_pos short]
    exact ⟨trivial, rfl, seekable_of_blockStart rfl⟩
  · obtain ⟨nothingLeft, lengthEq, seekable⟩ := appendPaddingLoop_of_paddable now paddable
    simp only [if_neg short, nothingLeft, Nat.sub_zero]
    exact ⟨trivial, lengthEq, seekable⟩

/-- A last part that cannot hold a header is left over. -/
theorem appendPaddingLoop_of_tail (now : Nat) (tail : left % kBlockSize < kHeaderSize) :
    ∃ bytes, appendPaddingLoop now left = (bytes, left % kBlockSize) ∧
        appendPaddingLoop now (left - left % kBlockSize) = (bytes, 0) := by
  induction left using Nat.strongRecOn with
  | ind left ih =>
    by_cases whole : kBlockSize ≤ left
    · have shorter : left - kBlockSize < left := by
        simp only [kBlockSize] at whole ⊢
        omega
      have sameTail : (left - kBlockSize) % kBlockSize =
          left % kBlockSize := (Nat.mod_eq_sub_mod whole).symm
      have wholeToo : kBlockSize ≤ left - left % kBlockSize := by
        simp only [kBlockSize] at whole ⊢
        omega
      obtain ⟨bytes, later, laterToo⟩ := ih _ shorter (sameTail.trans_lt tail)
      rw [sameTail] at later laterToo
      rw [Nat.sub_right_comm] at laterToo
      exact ⟨_, appendPaddingLoop_of_block now whole later,
        appendPaddingLoop_of_block now wholeToo laterToo⟩
    · have small : left < kHeaderSize := by
        rwa [Nat.mod_eq_of_lt (Nat.lt_of_not_le whole)] at tail
      rw [Nat.mod_eq_of_lt (Nat.lt_of_not_le whole), Nat.sub_self]
      refine ⟨[], ?_, appendPaddingLoop_zero now⟩
      rw [appendPaddingLoop]
      simp only [if_neg whole, if_pos (Or.inr small)]

/-- Above one header, `AppendPadding` covers a length or the whole blocks in
it. -/
theorem appendPadding_of_le (now : Nat) (room : kHeaderSize ≤ length) :
    ∃ covered, Paddable covered ∧ appendPadding now length = appendPadding now covered := by
  by_cases tail : length % kBlockSize < kHeaderSize
  · refine ⟨length - length % kBlockSize, .inl ?_, ?_⟩
    · simp only [kBlockSize]
      omega
    · have roomToo : ¬length - length % kBlockSize < kHeaderSize := by
        simp only [kBlockSize, kHeaderSize] at room tail ⊢
        omega
      obtain ⟨bytes, loop, loopToo⟩ := appendPaddingLoop_of_tail now tail
      rw [appendPadding, appendPadding, if_neg (Nat.not_lt.mpr room), if_neg roomToo, loop, loopToo]
      rfl
  · exact ⟨length, .inr (Nat.not_lt.mp tail), rfl⟩

/-- `AppendPadding` leaves bytes that can be walked. -/
theorem seekable_appendPadding (now length : Nat) : Seekable (appendPadding now length).1 := by
  by_cases room : kHeaderSize ≤ length
  · obtain ⟨covered, paddable, same⟩ := appendPadding_of_le now room
    rw [same]
    exact (appendPadding_of_paddable now paddable).2.2
  · rw [appendPadding, if_pos (Nat.lt_of_not_le room)]
    exact seekable_of_blockStart rfl

/-- Unless the length is between zero and one header, `AppendPadding` appends
the length it returns. -/
theorem length_appendPadding (now : Nat) (covers : length = 0 ∨ kHeaderSize ≤ length) :
    (appendPadding now length).1.length = (appendPadding now length).2 := by
  rcases covers with rfl | room
  · rfl
  · obtain ⟨covered, paddable, same⟩ := appendPadding_of_le now room
    obtain ⟨coveredEq, lengthEq, -⟩ := appendPadding_of_paddable now paddable
    rw [same, coveredEq, lengthEq]

/-- `SetProducerStatus` at a paddable position succeeds on every open log and
leaves a journal that starts and ends there. -/
theorem journal_setProducerStatus {log : Binlog} (opened : log.opened = true)
    (now term index : Nat) {position : BinlogOffset} (paddable : Paddable position.offset) :
    ∃ next, log.setProducerStatus now position.filenum position.offset term index = (.ok, next) ∧
        next.fileSize = log.fileSize ∧
        next.position = position ∧
        next.Journal position [] := by
  have notSmall : (if position.offset < 4 then 0 else position.offset) = position.offset := by
    split_ifs with small
    · simp only [Paddable, kBlockSize, kHeaderSize] at paddable
      omega
    · rfl
  obtain ⟨covered, lengthEq, seekable⟩ := appendPadding_of_paddable now paddable
  rw [setProducerStatus, if_neg (by simp [opened])]
  simp only [notSmall]
  generalize appendPadding now position.offset = padded at covered lengthEq seekable
  obtain ⟨bytes, length⟩ := padded
  subst covered
  refine ⟨_, rfl, rfl, rfl, ⟨rfl, rfl, ?_, ?_, ?_⟩, .done ⟨?_, ?_, ?_⟩⟩
  · simp [initLogFile]
  · simp [initLogFile, lengthEq]
  · simp only [initLogFile, Files.contents_append_self,
      Files.contents_newWritableFile_self, nil_append, lengthEq]
    exact BlockAt.of_mod _
  · simp [initLogFile]
  · simp [initLogFile, lengthEq]
  · simpa [initLogFile, ← lengthEq] using seekable

/-! ## Any position -/

/-- The published position is a given one, and so is the end of the file. -/
def PositionedAt (filenum offset : Nat) (log : Binlog) : Prop :=
  log.getProducerStatus = some { filenum := filenum, offset := offset } ∧
    (log.files.contents filenum).length = offset

/-- The offset from which `SetProducerStatus` starts. -/
def paddingLength (offset : Nat) : Nat := if offset < 4 then 0 else offset

/-- A log is as if it had just been restarted at a position. -/
structure RestartedAt (now filenum offset : Nat) (log : Binlog) : Prop where
  version : log.version =
    { proNum := filenum
      proOffset := (appendPadding now (paddingLength offset)).2
      logicId := 0
      term := 0 }
  current : log.proNum = filenum
  file : log.files filenum = some (appendPadding now (paddingLength offset)).1
  first : filenum ≠ 0 → log.files 0 = none
  place : log.blockOffset = (appendPadding now (paddingLength offset)).1.length % kBlockSize

/-- The files of a log that is restarted. -/
def restartedFiles (filenum : Nat) (filling : Bytes) (files : Files) : Files :=
  (((files.deleteFile 0).deleteFile filenum).newWritableFile filenum).append filenum filling

theorem restartedFiles_self (filenum : Nat) (filling : Bytes) (files : Files) :
    restartedFiles filenum filling files filenum = some filling := by
  simp [restartedFiles, Files.append, Files.contents, Files.newWritableFile]

theorem restartedFiles_zero (apart : filenum ≠ 0) (filling : Bytes) (files : Files) :
    restartedFiles filenum filling files 0 = none := by
  simp [restartedFiles, Files.append, Files.newWritableFile, Files.deleteFile, apart.symm]

theorem restartedFiles_of_ne (apart : other ≠ filenum) (nonzero : other ≠ 0)
    (filling : Bytes) (files : Files) :
    restartedFiles filenum filling files other = files other := by
  simp [restartedFiles, Files.append, Files.newWritableFile, Files.deleteFile, apart, nonzero]

theorem setProducerStatus_of_opened (now filenum offset term index : Nat)
    {log : Binlog} (opened : log.opened = true) :
    (log.setProducerStatus now filenum offset term index).2 =
      { log with
        version :=
          { proNum := filenum
            proOffset := (appendPadding now (paddingLength offset)).2
            logicId := index
            term := term }
        files := restartedFiles filenum (appendPadding now (paddingLength offset)).1 log.files
        proNum := filenum
        blockOffset := (appendPadding now (paddingLength offset)).1.length % kBlockSize } := by
  have file := restartedFiles_self filenum (appendPadding now (paddingLength offset)).1 log.files
  rw [setProducerStatus, if_neg (by simp [opened])]
  simp only [initLogFile, opened, Files.contents, Binlog.mk.injEq]
  refine ⟨trivial, rfl, rfl, trivial, ?_, trivial⟩
  exact congrArg (fun bytes => (Option.getD bytes []).length % kBlockSize) file

/-- A restart changes nothing exactly in a log that has just been restarted at
the same position. -/
theorem setProducerStatus_eq_self_iff (now filenum offset : Nat) {log : Binlog}
    (opened : log.opened = true) :
    (log.setProducerStatus now filenum offset 0 0).2 = log ↔
      RestartedAt now filenum offset log := by
  rw [setProducerStatus_of_opened now filenum offset 0 0 opened]
  constructor
  · intro same
    have files := congrArg Binlog.files same
    exact
      { version := (congrArg Binlog.version same).symm
        current := (congrArg Binlog.proNum same).symm
        file := (congrFun files filenum).symm.trans (restartedFiles_self filenum _ log.files)
        first := fun apart => (congrFun files 0).symm.trans
          (restartedFiles_zero apart _ log.files)
        place := (congrArg Binlog.blockOffset same).symm }
  · intro restarted
    have files : restartedFiles filenum
        (appendPadding now (paddingLength offset)).1 log.files = log.files := by
      funext other
      by_cases here : other = filenum
      · rw [here, restartedFiles_self, restarted.file]
      · by_cases zero : other = 0
        · subst zero
          rw [restartedFiles_zero (Ne.symm here), restarted.first (Ne.symm here)]
        · exact restartedFiles_of_ne here zero _ _
    rw [files, ← restarted.version, ← restarted.place]
    cases restarted.current
    rfl

/-- A restart is exact at the positions that bad records can fill up. -/
theorem positionedAt_setProducerStatus_iff (now filenum offset term index : Nat)
    {log : Binlog} (opened : log.opened = true) (number : Nat) :
    (log.setProducerStatus now filenum offset term index).2.PositionedAt number offset ↔
      number = filenum ∧ Paddable offset := by
  rw [setProducerStatus_of_opened now filenum offset term index opened,
    PositionedAt, getProducerStatus, if_pos opened]
  simp only [Option.some.injEq, BinlogOffset.mk.injEq]
  constructor
  · rintro ⟨⟨rfl, covered⟩, length⟩
    refine ⟨rfl, ?_⟩
    rw [Files.contents, restartedFiles_self, Option.getD_some] at length
    by_cases room : kHeaderSize ≤ paddingLength offset
    · obtain ⟨filled, paddable, same⟩ := appendPadding_of_le now room
      rw [same, (appendPadding_of_paddable now paddable).1] at covered
      exact covered ▸ paddable
    · rw [appendPadding, if_pos (Nat.not_le.mp room), length_nil] at length
      rw [← length]
      exact .inl rfl
  · rintro ⟨rfl, paddable⟩
    have whole : paddingLength offset = offset := by
      rw [paddingLength]
      split_ifs with small
      · simp only [Paddable, kBlockSize, kHeaderSize] at paddable
        omega
      · rfl
    obtain ⟨covered, length, -⟩ := appendPadding_of_paddable now paddable
    rw [Files.contents, restartedFiles_self, Option.getD_some, whole]
    exact ⟨⟨rfl, covered⟩, length⟩

end Pika.Binlog
