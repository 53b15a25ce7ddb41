import Pika.Binlog.Journal

/-!
# Reading back what was put

A sequence of `Put`s on a fresh binlog, and a reader that is positioned and
then drained.  Reading returns the items with their recorded positions exactly
as long as every position fits the integers it is published through.
-/

namespace Pika.Binlog

open Foundation
open List hiding length

/-- One call of `Put`: the item and the clock at each of its fragments. -/
structure PutCall where
  item : Bytes
  now : Nat → Nat

/-- Successful `Put`s one after the other: the log afterwards, and each item
with the producer position recorded right after it. -/
def putAll : Binlog → List PutCall → Option (Binlog × List Record)
  | log, [] => some (log, [])
  | log, call :: calls =>
    match log.put call.now call.item with
    | some (.ok, next) =>
      (putAll next calls).map fun result =>
        (result.1, { item := call.item, position := next.position } :: result.2)
    | _ => none

/-- Repeated `Get`s return the records in order, each with its position, and
then the end of the log. -/
def Drains (log : Binlog) : Reader → List Record → Prop
  | reader, [] =>
    ∀ output, ∃ fuel message next, reader.get log fuel output = some (.endFile message, next)
  | reader, record :: records =>
    ∀ output, ∃ fuel next, reader.get log fuel output = some (.ok,
            { scratch := record.item
              filenum := record.position.filenum
              offset := record.position.offset }, next) ∧
        Drains log next records

/-- All `Put`s succeed, and from the start of the log and from every recorded
position a reader can be positioned and returns the items that follow. -/
def ReadsBack (fileSize term : Nat) (calls : List PutCall) : Prop :=
  ∃ log records, putAll (fresh fileSize term) calls = some (log, records) ∧
      ∀ earlier later, records = earlier ++ later → ∃ reader, Reader.seek log
              (Chain.positionAfter { filenum := 0, offset := 0 } earlier).filenum
              (Chain.positionAfter { filenum := 0, offset := 0 } earlier).offset = some reader ∧
          Drains log reader later

/-- The positions behind items of given lengths, in unbounded numbers. -/
def places (fileSize : Nat) : BinlogOffset → List Nat → List BinlogOffset
  | _, [] => []
  | position, length :: lengths =>
    position.place fileSize length :: places fileSize (position.place fileSize length) lengths

/-! ## Draining a chain -/

variable {log : Binlog} {reader : Reader}

theorem get_of_queue (opened : reader.queue ≠ none) (fuel : Nat) (output : Output) :
    reader.get log fuel output = reader.getLoop log fuel { output with scratch := [] } :=
  if_neg opened

theorem Reader.At.queue_ne_none (standing : reader.At filenum offset) : reader.queue ≠ none := by
  rw [standing.queue_eq]
  exact Option.some_ne_none _

/-- In front of a record of a chain that ends at or before the published
position, `Get` returns the record. -/
theorem get_of_chain (chain : Chain log.files start (record :: records) stop)
    (published : log.getProducerStatus = some status) (reached : ¬status < stop)
    (standing : reader.At start.filenum start.offset) (output : Output) :
    ∃ fuel next, next.At record.position.filenum record.position.offset ∧
        reader.get log fuel output = some (.ok,
            { scratch := record.item
              filenum := record.position.filenum
              offset := record.position.offset }, next) := by
  obtain ⟨fuel, ⟨_, early, _⟩ | ⟨next, nextAt, returned⟩⟩ :=
    Reader.getLoop_of_chain chain published standing
      { output with scratch := [] } rfl
  · refine absurd ?_ reached
    by_contra late
    exact chain.uncons.2.not_stop_lt_start (BinlogOffset.lt_of_not_lt_of_lt late early)
  · refine ⟨fuel, next, nextAt, ?_⟩
    rw [get_of_queue standing.queue_ne_none, returned]

/-- Records of a chain are drained, and then what is drained at its end. -/
theorem drains_of_chain_append (chain : Chain log.files start records stop)
    (published : log.getProducerStatus = some status) (reached : ¬status < stop)
    (rest : ∀ reader : Reader, reader.At stop.filenum stop.offset → Drains log reader added)
    (standing : reader.At start.filenum start.offset) :
    Drains log reader (records ++ added) := by
  induction records generalizing start reader with
  | nil =>
    have same := chain.eq_of_nil
    subst same
    exact rest reader standing
  | cons record records ih =>
    intro output
    obtain ⟨fuel, next, nextAt, returned⟩ := get_of_chain chain published reached standing output
    exact ⟨fuel, next, returned, ih chain.uncons.2 nextAt⟩

/-- A reader in a chain up to the published position drains the chain. -/
theorem drains_of_chain (chain : Chain log.files start records stop)
    (published : log.getProducerStatus = some stop)
    (standing : reader.At start.filenum start.offset) :
    Drains log reader records := by
  rw [← append_nil records]
  refine drains_of_chain_append chain published (BinlogOffset.lt_irrefl _) ?_ standing
  intro reader standing output
  exact ⟨1, _, _, (get_of_queue standing.queue_ne_none 1 output).trans
    (Reader.getLoop_of_end published standing 0)⟩

theorem Reader.get_unique (firstGot : reader.get log firstFuel output = some first)
    (secondGot : reader.get log secondFuel output = some second) :
    first = second := by
  unfold Reader.get at firstGot secondGot
  split_ifs at firstGot secondGot
  · rw [firstGot] at secondGot
    exact Option.some.inj secondGot
  · have firstMore := Reader.getLoop_mono firstGot (le_max_left _ secondFuel)
    have secondMore := Reader.getLoop_mono secondGot (le_max_right firstFuel _)
    rw [firstMore] at secondMore
    exact Option.some.inj secondMore

/-- Whatever is published, the first item drained in a chain is its first
record. -/
theorem Drains.uncons_of_chain (drains : Drains log reader (out :: outs))
    (chain : Chain log.files start (record :: records) stop)
    (published : log.getProducerStatus = some status)
    (standing : reader.At start.filenum start.offset) :
    out = record ∧ ∃ next : Reader,
        next.At record.position.filenum record.position.offset ∧ Drains log next outs := by
  let output : Output := { scratch := [], filenum := 0, offset := 0 }
  obtain ⟨fuel, next, returned, drainsNext⟩ := drains output
  obtain ⟨chainFuel, ⟨_, _, got⟩ | ⟨other, otherAt, got⟩⟩ :=
    Reader.getLoop_of_chain chain published standing output rfl
  all_goals
    have same := Reader.get_unique returned
      ((get_of_queue standing.queue_ne_none chainFuel output).trans got)
    simp only [Prod.mk.injEq, Output.mk.injEq, reduceCtorEq, false_and, true_and] at same
  obtain ⟨⟨sameItem, sameFile, sameOffset⟩, rfl⟩ := same
  refine ⟨?_, next, otherAt, drainsNext⟩
  cases out
  cases record
  simp_all [BinlogOffset.ext_iff]

/-! ## Sequences of Puts -/

/-- The records of a sequence of `Put`s, in unbounded numbers. -/
def idealRecords (fileSize : Nat) : BinlogOffset → List PutCall → List Record
  | _, [] => []
  | position, call :: calls =>
    { item := call.item, position := position.place fileSize call.item.length } ::
      idealRecords fileSize (position.place fileSize call.item.length) calls

/-- Every position behind an item of the calls fits. -/
def AllFit (fileSize : Nat) (position : BinlogOffset) (calls : List PutCall) : Prop :=
  ∀ place ∈ places fileSize position (calls.map fun call => call.item.length), place.Fits

instance (fileSize : Nat) (position : BinlogOffset) (calls : List PutCall) :
    Decidable (AllFit fileSize position calls) :=
  inferInstanceAs (Decidable (∀ place ∈ _, _))

theorem allFit_cons {fileSize : Nat} {position : BinlogOffset} {call : PutCall}
    {calls : List PutCall} :
    AllFit fileSize position (call :: calls) ↔ (position.place fileSize call.item.length).Fits ∧
        AllFit fileSize (position.place fileSize call.item.length) calls := by
  simp [AllFit, places]

theorem allFit_of_append {fileSize : Nat} {position : BinlogOffset} {calls later : List PutCall}
    (fits : AllFit fileSize position (calls ++ later)) :
    AllFit fileSize position calls := by
  induction calls generalizing position with
  | nil => simp [AllFit, places]
  | cons call calls ih =>
    obtain ⟨headFits, tailFit⟩ := allFit_cons.mp fits
    exact allFit_cons.mpr ⟨headFits, ih tailFit⟩

theorem AllFit.idealRecords_fit {fileSize : Nat} {position : BinlogOffset}
    {calls : List PutCall} (fits : AllFit fileSize position calls) :
    ∀ record ∈ idealRecords fileSize position calls, record.position.Fits := by
  induction calls generalizing position with
  | nil => simp [idealRecords]
  | cons call calls ih =>
    obtain ⟨headFits, tailFit⟩ := allFit_cons.mp fits
    intro record member
    rcases mem_cons.mp member with rfl | later
    · exact headFits
    · exact ih tailFit record later

/-- If not every position fits, there is a first one that does not. -/
theorem exists_first_misfit {fileSize : Nat} {position : BinlogOffset}
    {calls : List PutCall} (misfit : ¬AllFit fileSize position calls) :
    ∃ earlier call later, calls = earlier ++ call :: later ∧ AllFit fileSize position earlier ∧
        ¬((Chain.positionAfter position (idealRecords fileSize position earlier)).place fileSize
            call.item.length).Fits := by
  induction calls generalizing position with
  | nil => exact (misfit (by simp [AllFit, places])).elim
  | cons call calls ih =>
    by_cases headFits : (position.place fileSize call.item.length).Fits
    · have tailMisfit : ¬AllFit fileSize (position.place fileSize call.item.length) calls :=
        fun tailFit => misfit (allFit_cons.mpr ⟨headFits, tailFit⟩)
      obtain ⟨earlier, other, later, rfl, fits, first⟩ := ih tailMisfit
      exact ⟨call :: earlier, other, later, rfl, allFit_cons.mpr ⟨headFits, fits⟩, first⟩
    · exact ⟨[], call, calls, rfl, by simp [AllFit, places], headFits⟩

theorem put_of_opened (opened : log.opened = true) (now : Nat → Nat)
    (bounded : item.length < 2 ^ 31) :
    log.put now item = some (.ok, log.putSlice now item) := by
  rw [put, if_neg (by simp [opened]), if_pos bounded]

theorem length_lt_of_fits {fileSize : Nat} {position : BinlogOffset}
    (fits : (position.place fileSize length).Fits) :
    length < 2 ^ 31 := by
  have endFits := fits.2
  rw [BinlogOffset.place_offset] at endFits
  have grows := add_length_lt_recordEnd (position.writeFrom fileSize).offset length
  omega

theorem putSlice_fileSize (aligned : log.Aligned) (now : Nat → Nat) (item : Bytes) :
    (log.putSlice now item).fileSize = log.fileSize := by
  rw [(aligned.putSlice_effect now item).fileSize_eq, checkRoll_fileSize]

/-- `Put`s whose ends fit succeed, record the positions of the layout and
extend the journal. -/
theorem Journal.putAll {calls : List PutCall} (journal : log.Journal start records)
    (nonempty : ∀ call ∈ calls, call.item ≠ []) (fits : AllFit log.fileSize log.position calls) :
    ∃ next : Binlog, log.putAll calls = some (next, idealRecords log.fileSize log.position calls) ∧
        next.fileSize = log.fileSize ∧
        next.Journal start (records ++ idealRecords log.fileSize log.position calls) := by
  induction calls generalizing log records with
  | nil => exact ⟨log, rfl, rfl, by simpa [idealRecords] using journal⟩
  | cons call calls ih =>
    obtain ⟨headFits, tailFit⟩ := allFit_cons.mp fits
    have putEq := put_of_opened journal.aligned.opened call.now (length_lt_of_fits headFits)
    have nextJournal := journal.putSlice call.now
      (nonempty call mem_cons_self) headFits.number headFits.kept
    have nextPosition :=
      (journal.aligned.putSlice call.now call.item headFits.number headFits.kept).2
    have nextSize := putSlice_fileSize journal.aligned call.now call.item
    obtain ⟨next, tailEq, tailSize, tailJournal⟩ :=
      ih nextJournal (fun other member => nonempty other (mem_cons_of_mem _ member))
        (by rwa [nextPosition, nextSize])
    rw [nextPosition, nextSize] at tailEq tailJournal
    refine ⟨next, ?_, tailSize.trans nextSize, ?_⟩
    · simp [Binlog.putAll, putEq, tailEq, nextPosition, idealRecords]
    · simpa [idealRecords] using tailJournal

/-- From every position of a journal, a reader can be positioned and drains
the records that follow. -/
theorem Journal.seek_drains (journal : log.Journal start (earlier ++ later)) :
    ∃ reader, Reader.seek log (Chain.positionAfter start earlier).filenum
          (Chain.positionAfter start earlier).offset = some reader ∧
      Drains log reader later := by
  have tail := journal.chain.drop
  generalize Chain.positionAfter start earlier = position at tail ⊢
  exact ⟨_, tail.marked_start.seek_eq, drains_of_chain tail
    journal.aligned.getProducerStatus_eq (Reader.at_positioned _ _)⟩

/-- A log with a byte in its first file and an item of two fragments in its
second. -/
theorem exists_journal_twoFiles {item : Bytes} (long : item.length = 70000) :
    ∃ log : Binlog, log.Journal { filenum := 0, offset := 0 }
      [{ item := [7], position := { filenum := 0, offset := 9 } },
        { item := item, position := { filenum := 1, offset := 70016 } }] := by
  let calls : List PutCall := [{ item := [7], now := fun _ => 0 }, { item, now := fun _ => 0 }]
  have first : BinlogOffset.place ⟨0, 0⟩ 0 1 = ⟨0, 9⟩ := by decide +kernel
  have second : BinlogOffset.place ⟨0, 9⟩ 0 70000 = ⟨1, 70016⟩ := by decide +kernel
  have fits : AllFit 0 ⟨0, 0⟩ calls := by
    simp only [AllFit, calls, map_cons, map_nil, places, length_singleton, long, first, second]
    decide
  have records : idealRecords 0 ⟨0, 0⟩ calls = [⟨[7], ⟨0, 9⟩⟩, ⟨item, ⟨1, 70016⟩⟩] := by
    simp only [idealRecords, calls, length_singleton, long, first, second]
  have nonempty : ∀ call ∈ calls, call.item ≠ [] := by
    have positive : item ≠ [] := ne_nil_of_length_pos (by omega)
    simp [calls, positive]
  obtain ⟨log, -, -, journal⟩ := (journal_fresh 0 0).putAll nonempty fits
  exact ⟨log, records ▸ journal⟩

/-- While every position fits, everything put is read back. -/
theorem readsBack_of_allFit (fileSize term : Nat) (nonempty : ∀ call ∈ calls, call.item ≠ [])
    (fits : AllFit fileSize { filenum := 0, offset := 0 } calls) :
    ReadsBack fileSize term calls := by
  obtain ⟨log, putEq, -, journal⟩ := (journal_fresh fileSize term).putAll nonempty fits
  rw [nil_append] at journal
  refine ⟨log, _, putEq, ?_⟩
  intro earlier later split
  rw [split] at journal
  exact journal.seek_drains

/-! ## Positions that do not fit -/

/-- Draining as many items as a chain has records returns the records. -/
theorem Drains.eq_of_chain (drains : Drains log reader outs)
    (chain : Chain log.files start records stop) (published : log.getProducerStatus = some status)
    (standing : reader.At start.filenum start.offset) (sameLength : outs.length = records.length) :
    outs = records := by
  induction outs generalizing reader start records with
  | nil => exact (eq_nil_of_length_eq_zero sameLength.symm).symm
  | cons out outs ih =>
    cases records with
    | nil => simp at sameLength
    | cons record records =>
      obtain ⟨rfl, next, nextAt, drainsNext⟩ := drains.uncons_of_chain chain published standing
      rw [ih drainsNext chain.uncons.2 nextAt (Nat.succ.inj sameLength)]

theorem Drains.eq_nil_of_end (drains : Drains log reader records)
    (published : log.getProducerStatus = some status)
    (standing : reader.At status.filenum status.offset) :
    records = [] := by
  cases records with
  | nil => rfl
  | cons record records =>
    obtain ⟨fuel, next, returned, _⟩ := drains { scratch := [], filenum := 0, offset := 0 }
    rw [get_of_queue standing.queue_ne_none] at returned
    cases fuel with
    | zero => simp [Reader.getLoop] at returned
    | succ fuel =>
      rw [Reader.getLoop_of_end published standing] at returned
      simp at returned

theorem seek_zero (present : log.files.fileExists 0 = true) :
    Reader.seek log 0 0 = some (Reader.positioned 0 0) := by
  have seekable : Seekable [] := seekable_of_blockStart rfl
  have sought := Reader.seek_of_seekable seekable present (nil_append _).symm
  rwa [length_nil] at sought

theorem putAll_append (log : Binlog) (first second : List PutCall) :
    log.putAll (first ++ second) = (log.putAll first).bind fun result =>
        (result.1.putAll second).map fun later => (later.1, result.2 ++ later.2) := by
  induction first generalizing log with
  | nil => simp [putAll]
  | cons call calls ih =>
    simp only [cons_append, putAll]
    split
    · rw [ih]
      cases putAll _ calls with
      | none => rfl
      | some result => simp [Function.comp_def]
    · rfl

/-- A `Put` that wraps the file number to zero leaves its item alone in file
zero. -/
theorem Journal.wrap_putSlice (journal : log.Journal start records)
    (now : Nat → Nat) (nonempty : item ≠ []) (positionFits : log.position.Fits)
    (wraps : ¬(log.position.writeFrom log.fileSize).filenum < 2 ^ 32) :
    Chain (log.putSlice now item).files { filenum := 0, offset := 0 }
        [{ item := item, position := { filenum := 0, offset := recordEnd 0 item.length } }]
        { filenum := 0, offset := recordEnd 0 item.length } ∧
      (log.putSlice now item).getProducerStatus =
        some { filenum := 0, offset := castUInt64 (castInt32 (recordEnd 0 item.length)) } ∧
      log.position.filenum ≠ 0 := by
  have aligned := journal.aligned
  have full : log.fileSize < log.version.proOffset := by
    by_contra roomy
    have fromHere : log.position.writeFrom log.fileSize = log.position := if_neg roomy
    rw [fromHere] at wraps
    exact wraps positionFits.1
  have fromNext : log.position.writeFrom log.fileSize = log.position.nextFile := if_pos full
  have rolled : log.checkRoll = log.roll := if_pos (aligned.size_eq.symm ▸ full)
  have lastNumber : log.proNum + 1 = 2 ^ 32 := by
    have bounded := positionFits.1
    rw [fromNext, BinlogOffset.nextFile_filenum] at wraps
    rw [position_filenum, aligned.proNum_eq] at wraps bounded
    omega
  have rollNumber : log.roll.proNum = 0 := by
    have wrapped : castUInt32 ((log.proNum : Int) + 1) = 0 := by
      unfold castUInt32
      omega
    exact wrapped
  have rollFiles : log.roll.files = log.files.newWritableFile 0 := by
    rw [← rollNumber]
    rfl
  have rollOffset : log.roll.version.proOffset = 0 := rfl
  have rollPublished : log.roll.version.proNum = 0 := by
    rw [(aligned_roll log).proNum_eq, rollNumber]
  have effect := aligned.putSlice_effect now item
  rw [rolled] at effect
  refine ⟨?_, ?_, ?_⟩
  · have contentsEq : (log.putSlice now item).files.contents 0 = [] ++ frame now 0 item := by
      rw [effect.files_eq, rollNumber, rollFiles, rollOffset,
        Files.contents_append_self, Files.contents_newWritableFile_self]
    have present : (log.putSlice now item).files.fileExists 0 = true := by
      simp [effect.files_eq, rollNumber]
    exact Chain.single [] now present contentsEq rfl (seekable_of_blockStart rfl) nonempty
  · rw [getProducerStatus, effect.opened_eq, (aligned_roll log).opened,
      effect.version_proNum_eq, effect.proOffset_eq, rollPublished, rollOffset]
    rfl
  · rw [position_filenum, aligned.proNum_eq]
    omega

/-- A reader that returns the item just put with the published position shows
that the true end of the item is published. -/
theorem Journal.position_eq_of_drains (journal : log.Journal start records)
    (now : Nat → Nat) (nonempty : item ≠ [])
    (numberFits : (log.position.writeFrom log.fileSize).filenum < 2 ^ 32)
    (sought : Reader.seek (log.putSlice now item) start.filenum start.offset =
      some reader) (drains : Drains (log.putSlice now item) reader
      (records ++ [{ item := item, position := (log.putSlice now item).position }])) :
    (log.putSlice now item).position = log.position.place log.fileSize item.length ∧
      (log.position.place log.fileSize item.length).Kept := by
  have chain := journal.chain_putSlice now nonempty numberFits
  have effect := journal.aligned.putSlice_effect now item
  have published : (log.putSlice now item).getProducerStatus =
      some (log.putSlice now item).position := by
    rw [getProducerStatus, effect.opened_eq, journal.aligned.checkRoll.opened]
    rfl
  rw [chain.marked_start.seek_eq] at sought
  cases sought
  have same := drains.eq_of_chain chain published (Reader.at_positioned _ _) (by simp)
  have samePosition : (log.putSlice now item).position =
      log.position.place log.fileSize item.length := by
    simpa using append_cancel_left same
  refine ⟨samePosition, ?_⟩
  have fromOffset := congrArg BinlogOffset.offset (journal.aligned.position_checkRoll numberFits)
  rw [position_offset] at fromOffset
  have sameOffset := congrArg BinlogOffset.offset samePosition
  rwa [position_offset, effect.proOffset_eq, fromOffset, ← BinlogOffset.place_offset] at sameOffset

/-- Where the next position does not fit, what was put is not read back. -/
theorem Journal.not_readsBack {fileSize term : Nat} {calls : List PutCall} {call : PutCall}
    (journal : log.Journal { filenum := 0, offset := 0 } records)
    (putEq : (fresh fileSize term).putAll calls = some (log, records))
    (recordsFit : ∀ record ∈ records, record.position.Fits)
    (positionFits : log.position.Fits) (nonempty : call.item ≠ [])
    (misfit : ¬(log.position.place log.fileSize call.item.length).Fits) :
    ¬ReadsBack fileSize term (calls ++ [call]) := by
  rintro ⟨final, outs, allEq, reads⟩
  rw [putAll_append, putEq, Option.bind_some] at allEq
  have aligned := journal.aligned
  by_cases bounded : call.item.length < 2 ^ 31
  · rw [Binlog.putAll, put_of_opened aligned.opened call.now bounded] at allEq
    simp only [Binlog.putAll, Option.map_some, Option.some.injEq, Prod.mk.injEq] at allEq
    obtain ⟨rfl, rfl⟩ := allEq
    obtain ⟨reader, sought, drains⟩ := reads [] _ rfl
    by_cases numberFits : (log.position.writeFrom log.fileSize).filenum < 2 ^ 32
    · -- The reader returns the true end of the item, not the published one.
      have kept := (journal.position_eq_of_drains call.now nonempty numberFits sought drains).2
      rw [BinlogOffset.Kept, BinlogOffset.place_offset] at kept
      have fromSmall : (log.position.writeFrom log.fileSize).offset < 2 ^ 31 := by
        unfold BinlogOffset.writeFrom
        split_ifs
        · exact Nat.two_pow_pos 31
        · exact positionFits.2
      have endSmall := recordEnd_le (log.position.writeFrom log.fileSize).offset call.item.length
      refine misfit ⟨?_, ?_⟩
      · rwa [BinlogOffset.place_filenum]
      · rw [BinlogOffset.place_offset]
        exact (castUInt64_castInt32_eq_iff (by omega)).mp kept
    · -- File zero now starts with the new item and ends behind it.
      obtain ⟨chain, published, notFirst⟩ :=
        journal.wrap_putSlice call.now nonempty positionFits numberFits
      rw [Chain.positionAfter, seek_zero chain.marked_start.fileExists] at sought
      cases sought
      cases records with
      | nil => exact notFirst (by rw [← journal.chain.eq_of_nil])
      | cons record records =>
        obtain ⟨sameRecord, next, nextAt, drainsNext⟩ :=
          drains.uncons_of_chain chain published (Reader.at_positioned 0 0)
        have endFits := (recordsFit record mem_cons_self).2
        rw [sameRecord] at endFits
        have kept := (castUInt64_castInt32_eq_iff (endFits.trans (by decide))).mpr endFits
        rw [kept] at published
        simpa using drainsNext.eq_nil_of_end published nextAt
  · rw [Binlog.putAll, put, if_neg (by simp [aligned.opened]), if_neg bounded] at allEq
    simp at allEq

/-- A sequence of `Put`s is read back, after each of them, exactly when every
position of the layout fits the integers it is published through. -/
theorem readsBack_iff_allFit (fileSize term : Nat) (calls : List PutCall)
    (nonempty : ∀ call ∈ calls, call.item ≠ []) :
    (∀ count, ReadsBack fileSize term (calls.take count)) ↔
      AllFit fileSize { filenum := 0, offset := 0 } calls := by
  constructor
  · intro readsBack
    by_contra misfit
    obtain ⟨earlier, call, later, rfl, fits, first⟩ := exists_first_misfit misfit
    have earlierNonempty : ∀ other ∈ earlier, other.item ≠ [] :=
      fun other member => nonempty other (mem_append_left _ member)
    obtain ⟨log, putEq, sizeEq, journal⟩ :=
      (journal_fresh fileSize term).putAll earlierNonempty fits
    rw [nil_append] at journal
    have recordsFit := fits.idealRecords_fit
    have positionEq := journal.chain.positionAfter_eq_stop
    have positionFits : log.position.Fits := by
      rw [← positionEq]
      exact Chain.positionAfter_of_forall (by decide) recordsFit
    have prefixReads := readsBack (earlier.length + 1)
    rw [take_append, take_of_length_le (Nat.le_succ _),
      Nat.add_sub_cancel_left, take_succ_cons, take_zero]
      at prefixReads
    refine journal.not_readsBack putEq recordsFit positionFits
      (nonempty call (by simp)) ?_ prefixReads
    rw [sizeEq, ← positionEq]
    exact first
  · intro fits count
    rw [← take_append_drop count calls] at fits
    exact readsBack_of_allFit fileSize term
      (fun call member => nonempty call (mem_of_mem_take member))
      (allFit_of_append fits)

/-- Two short items around a roll satisfy the condition and are read back. -/
theorem readsBack_two_items :
    ReadsBack 4 0 [{ item := [1], now := fun _ => 0 }, { item := [2, 3], now := fun _ => 0 }] :=
  (readsBack_iff_allFit 4 0 [{ item := [1], now := fun _ => 0 },
      { item := [2, 3], now := fun _ => 0 }] (by simp)).mpr
    (by decide +kernel) 2

/-- An item of the largest size an `int` holds already ends beyond the offsets
an `int` holds. -/
theorem not_readsBack_of_length (fileSize term : Nat) (now : Nat → Nat)
    {item : Bytes} (large : 2 ^ 31 ≤ item.length + 1) :
    ¬ReadsBack fileSize term [{ item := item, now := now }] := by
  have nothingPut : (fresh fileSize term).putAll [] = some (fresh fileSize term, []) := rfl
  have misread : _ → _ → ¬ReadsBack fileSize term ([] ++ [{ item := item, now := now }]) :=
    (journal_fresh fileSize term).not_readsBack nothingPut (by simp)
      ⟨Nat.two_pow_pos 32, Nat.two_pow_pos 31⟩
  refine misread ?_ ?_
  · rintro rfl
    simp at large
  · rintro ⟨-, endFits⟩
    rw [BinlogOffset.place_offset] at endFits
    have grows : item.length < recordEnd ((fresh fileSize
        term).position.writeFrom (fresh fileSize term).fileSize).offset
        item.length :=
      (Nat.le_add_left _ _).trans_lt (add_length_lt_recordEnd _ _)
    exact (large.trans grows).not_gt endFits

/-- One item of `2 ^ 31 - 1` bytes is not read back with its recorded
position. -/
theorem not_readsBack_largest_item :
    ¬ReadsBack 104857600 0 [{ item := List.replicate (2 ^ 31 - 1) 0, now := fun _ => 0 }] :=
  not_readsBack_of_length 104857600 0 _ (by rw [length_replicate]; decide)

end Pika.Binlog
