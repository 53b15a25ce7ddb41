import Pika.Binlog.ProducerStatus
import Pika.Replication.ItemReaders

/-!
# The first available offset

`StableLog` keeps in `first_offset_` where the first item of its files ends.
`UpdateFirstOffset` looks for it with a reader from the start of the lowest
file, when the object is constructed and after a purge.  The search gives up at
bad records, and a purge that is refused on its way does not start one.
-/

namespace Pika.Replication

open Foundation List Option
open Binlog (BinlogOffset Chain Files Output PutCall Reader Record)
open Sync (LogOffset getFixed recordOffset)

/-- The loop of `UpdateFirstOffset`, with a bound on the changes of file for
every `Get`: the new `first_offset_`, if there is one. -/
def firstOffsetLoop (log : Binlog) : List Nat → Output → Reader → Option (Option LogOffset)
  | [], _, _ => none
  | fuel :: fuels, output, reader =>
    (reader.get log fuel output).bind fun
      | (.ok, output, next) =>
        match decodeItem output.scratch with
        | none => some none
        | some item =>
          if item.execTime ≠ 0 then
            some (some (itemOffset { filenum := output.filenum, offset := output.offset } item))
          else firstOffsetLoop log fuels output next
      | _ => some none

/-- The loop finds in a log what it finds among the items that are read from
it. -/
theorem firstOffsetLoop_of_drains (drains : Binlog.Drains log reader records) (output : Output) :
    ∃ fuels, firstOffsetLoop log fuels output reader = some (updateFirstOffset records) := by
  induction records generalizing reader output with
  | nil =>
    obtain ⟨fuel, message, next, got⟩ := drains output
    exact ⟨[fuel], by simp [firstOffsetLoop, got, updateFirstOffset]⟩
  | cons record records ih =>
    obtain ⟨fuel, next, got, later⟩ := drains output
    obtain ⟨fuels, found⟩ := ih later
      { scratch := record.item
        filenum := record.position.filenum
        offset := record.position.offset }
    refine ⟨fuel :: fuels, ?_⟩
    simp only [firstOffsetLoop, got, updateFirstOffset, bind_some]
    cases decodeItem record.item with
    | none => rfl
    | some item => by_cases zero : item.execTime = 0 <;> simp [zero, found]

theorem eq_of_firstOffsetLoop (drains : Binlog.Drains log reader records)
    (returned : firstOffsetLoop log fuels output reader = some found) :
    found = updateFirstOffset records := by
  induction fuels generalizing reader output records with
  | nil => cases returned
  | cons fuel fuels ih =>
    obtain ⟨result, other, returned⟩ := bind_eq_some_iff.mp returned
    cases records with
    | nil =>
      obtain ⟨_, message, next, got⟩ := drains output
      cases Reader.get_unique other got
      exact (Option.some.inj returned).symm
    | cons record records =>
      obtain ⟨_, next, got, later⟩ := drains output
      cases Reader.get_unique other got
      rw [updateFirstOffset]
      cases decoded : decodeItem record.item with
      | none => simpa [decoded] using returned.symm
      | some item =>
        by_cases zero : item.execTime = 0
        · simp only [decoded, zero] at returned ⊢
          exact ih later returned
        · simpa [decoded, zero] using returned.symm

structure StableLog where
  logger : Binlog
  /-- The items in the files, oldest first. -/
  stored : List Record
  firstOffset : LogOffset

/-- What happens to a stable log. -/
inductive StableOperation where
  | put (call : PutCall)
  | setProducerStatus (now proNum proOffset term index : Nat)
  | truncateTo (offset : LogOffset)
  /-- `PurgeFiles`: which files it deletes, and whether it comes to its end. -/
  | purgeFiles (deleted : List Nat) (finished : Bool) (fuels : List Nat)
  /-- The process starts again. -/
  | construct (fileSize : Nat) (fuels : List Nat)

/-- The files without some of them. -/
def removeFiles (gone : Nat → Bool) (files : Files) : Files :=
  fun number => if gone number then none else files number

namespace StableLog

/-- An item with a time. -/
def timed (record : Record) : Bool := getFixed (field 2 4 record.item) ≠ 0

/-- What `first_offset_` should be. -/
def firstItem (stable : StableLog) : Option LogOffset :=
  (stable.stored.find? timed).map recordOffset

def Right (stable : StableLog) : Prop := stable.firstOffset = stable.firstItem.getD .zero

/-- `UpdateFirstOffset` of the lowest file. -/
def updateFirstOffset (fuels : List Nat) (stable : StableLog) : Option StableLog :=
  match ((List.range' 0 (2 ^ 32)).find? stable.logger.files.fileExists).bind fun filenum =>
    Reader.seek stable.logger filenum 0 with
  | none => some stable
  | some reader =>
    (firstOffsetLoop stable.logger fuels { scratch := [], filenum := 0, offset := 0 } reader).map
      fun found => { stable with firstOffset := found.getD stable.firstOffset }

/-- The writer has changed, and of the items those at some positions are left. -/
def move (next : Binlog) (left : BinlogOffset → Bool) (stable : StableLog) : StableLog :=
  { stable with logger := next, stored := stable.stored.filter (left ·.position) }

/-- `Put`, which may go to a file that it empties. -/
def put (item : Binlog.Bytes) (next : Binlog) (stable : StableLog) : StableLog :=
  let moved := stable.move next fun position =>
    position.filenum ≠ next.proNum ∨ next.proNum = stable.logger.proNum
  let position : BinlogOffset :=
    { filenum := next.proNum, offset := (next.files.contents next.proNum).length }
  { moved with stored := moved.stored ++ [{ item, position }] }

/-- The deletions of `PurgeFiles`. -/
def purge (deleted : List Nat) (stable : StableLog) : StableLog :=
  let files := removeFiles (decide <| · ∈ deleted) stable.logger.files
  stable.move { stable.logger with files := files } fun position => position.filenum ∉ deleted

/-- The log is opened again, and cut at the published offset. -/
def reopen (fileSize : Nat) (stable : StableLog) : StableLog :=
  stable.move (stable.logger.reopen fileSize) fun position =>
    position.filenum = stable.logger.version.proNum →
      position.offset ≤ stable.logger.version.proOffset

def step (stable : StableLog) : StableOperation → Option StableLog
  | .put call =>
    match stable.logger.put call.now call.item with
    | some (.ok, next) => some (stable.put call.item next)
    | some _ => some stable
    | none => none
  | .setProducerStatus now proNum proOffset term index =>
    some (stable.move (stable.logger.setProducerStatus now proNum proOffset term index).2
      fun position => position.filenum ≠ 0 ∧ position.filenum ≠ proNum)
  | .truncateTo { bOffset, lOffset } =>
    -- `PurgeFileAfter`, and then `Truncate`.
    let files := removeFiles (decide <| bOffset.filenum < ·) stable.logger.files
    some (stable.move ({ stable.logger with files := files }.truncate
      bOffset.filenum bOffset.offset lOffset.index).2 fun position => ¬bOffset < position)
  | .purgeFiles deleted finished fuels =>
    if finished ∧ deleted ≠ [] then (stable.purge deleted).updateFirstOffset fuels
    else some (stable.purge deleted)
  | .construct fileSize fuels =>
    { stable.reopen fileSize with firstOffset := .zero }.updateFirstOffset fuels

/-- A step after which the items can still be read from the start of the lowest
file, and after which nothing stays in `first_offset_` that is gone. -/
def Plain (stable : StableLog) : StableOperation → Prop
  | .put call =>
    binlogItemWithoutContentDecode call.item = true ∧
      (stable.logger.position.writeFrom stable.logger.fileSize).filenum < 2 ^ 32 ∧
      (stable.logger.position.place stable.logger.fileSize call.item.length).Kept
  | .setProducerStatus _ proNum proOffset _ _ =>
    proNum < 2 ^ 32 ∧ proOffset < 4 ∧
      ∀ number, stable.logger.files.fileExists number = true → number = 0 ∨ number = proNum
  | .truncateTo offset => offset.bOffset ∈ stable.stored.map Record.position
  | .purgeFiles deleted finished _ =>
    finished = true ∧
      (∃ kept, stable.logger.files.fileExists kept = true ∧ ∀ number,
        stable.logger.files.fileExists number = true → (number ∈ deleted ↔ number < kept)) ∧
      ((stable.purge deleted).firstItem = none → stable.firstOffset = .zero)
  | .construct .. => True

/-- A stable log over an empty directory. -/
def initial (fileSize term : Nat) : StableLog where
  logger := .fresh fileSize term
  stored := []
  firstOffset := .zero

/-- The items lie one behind the other from the start of file `first`, which is
the lowest. -/
structure Sound (stable : StableLog) (first : Nat) : Prop where
  journal : stable.logger.Journal { filenum := first, offset := 0 } stable.stored
  present : ∀ number, stable.logger.files.fileExists number = true ↔
    first ≤ number ∧ number ≤ stable.logger.position.filenum
  bounded : stable.logger.position.filenum < 2 ^ 32
  decodes : ∀ record ∈ stable.stored, binlogItemWithoutContentDecode record.item = true

variable {stable next : StableLog}

/-- A search that ends at an item with a time has that in `first_offset_`, and
one that ends elsewhere leaves it. -/
structure Found (stable : StableLog) (outcome : List Nat → Option StableLog) : Prop where
  returns : ∃ fuels, (outcome fuels).isSome
  eq_of_mem : ∀ fuels, ∀ next ∈ outcome fuels,
    next = { stable with firstOffset := stable.firstItem.getD stable.firstOffset }

theorem Found.right (found : stable.Found outcome)
    (unset : stable.firstItem = none → stable.firstOffset = .zero) :
    ∀ fuels, ∀ next ∈ outcome fuels, next.Right := by
  intro fuels next returned
  cases found.eq_of_mem fuels next returned
  change stable.firstItem.getD stable.firstOffset = stable.firstItem.getD .zero
  cases item : stable.firstItem with
  | none => exact unset item
  | some offset => rfl

section

variable (sound : stable.Sound first)
include sound

/-- `UpdateFirstOffset` finds the first item of a readable log. -/
theorem Sound.found :
    stable.Found fun fuels => stable.updateFirstOffset fuels := by
  have below : first ≤ stable.logger.position.filenum := sound.journal.chain.filenum_le
  have lowest : (List.range' 0 (2 ^ 32)).find? stable.logger.files.fileExists = some first := by
    have within := sound.bounded
    rw [List.find?_range'_eq_some, sound.present, mem_range'_1]
    refine ⟨⟨le_rfl, below⟩, by omega, fun number _ earlier => ?_⟩
    rw [Bool.not_eq_true', ← Bool.not_eq_true, sound.present]
    omega
  have drains := Binlog.drains_of_chain sound.journal.chain
    sound.journal.aligned.getProducerStatus_eq (Reader.at_positioned _ _)
  have foundEq := updateFirstOffset_eq stable.stored
  rw [takeWhile_eq_self_iff.mpr sound.decodes] at foundEq
  simp only [updateFirstOffset, lowest, bind_some, sound.journal.chain.marked_start.seek_eq]
  constructor
  · obtain ⟨fuels, found⟩ := firstOffsetLoop_of_drains drains _
    exact ⟨fuels, by rw [found, map_some, isSome_some]⟩
  · intro fuels next returned
    obtain ⟨found, came, rfl⟩ := map_eq_some_iff.mp returned
    rw [eq_of_firstOffsetLoop drains came, foundEq]
    rfl

theorem Sound.withOffset (offset : LogOffset) :
    { stable with firstOffset := offset }.Sound first :=
  ⟨sound.journal, sound.present, sound.bounded, sound.decodes⟩

theorem Sound.move {next : Binlog}
    (journal : next.Journal { filenum := kept, offset := 0 } (stable.move next left).stored)
    (present : ∀ number, next.files.fileExists number = true ↔
      kept ≤ number ∧ number ≤ next.position.filenum)
    (bounded : next.position.filenum < 2 ^ 32) :
    (stable.move next left).Sound kept :=
  ⟨journal, present, bounded, fun record member =>
    sound.decodes record (mem_of_mem_filter member)⟩

theorem Sound.put (plain : stable.Plain (.put call)) :
    (stable.put call.item (stable.logger.putSlice call.now call.item)).Sound first := by
  obtain ⟨decodes, numberFits, kept⟩ := plain
  have aligned := sound.journal.aligned
  have below : first ≤ stable.logger.position.filenum := sound.journal.chain.filenum_le
  have nonempty : call.item ≠ [] := by
    intro empty
    rw [empty] at decodes
    exact absurd decodes (by decide)
  obtain ⟨nextAligned, nextPosition⟩ := aligned.putSlice call.now call.item numberFits kept
  have journal := sound.journal.putSlice call.now nonempty numberFits kept
  have exists_iff := aligned.fileExists_putSlice call.now call.item
  generalize stable.logger.putSlice call.now call.item = next at *
  have number : next.proNum = next.position.filenum := nextAligned.proNum_eq.symm
  have current : stable.logger.proNum = stable.logger.position.filenum := aligned.proNum_eq.symm
  have ended : { filenum := next.proNum, offset := (next.files.contents next.proNum).length } =
      next.position := by
    rw [nextAligned.size_eq, ← nextAligned.proNum_eq, Binlog.position]
  have here : next.position.filenum = stable.logger.position.filenum ∨
      next.position.filenum = stable.logger.position.filenum + 1 := by
    rw [nextPosition, BinlogOffset.place_filenum, BinlogOffset.writeFrom]
    split_ifs <;> simp
  have all : ∀ record ∈ stable.stored,
      record.position.filenum ≠ next.proNum ∨ next.proNum = stable.logger.proNum := by
    intro record member
    have ends := (sound.journal.chain.of_mem member).2
    rw [BinlogOffset.lt_iff] at ends
    omega
  have stored : (stable.put call.item next).stored =
      stable.stored ++ [{ item := call.item, position := next.position }] := by
    change stable.stored.filter _ ++ _ = _
    rw [ended, filter_eq_self.mpr (by simpa using all)]
  refine ⟨by rwa [stored, nextPosition], fun other => ?_, ?_, ?_⟩
  · change next.files.fileExists other = true ↔ first ≤ other ∧ other ≤ next.position.filenum
    rw [exists_iff, Bool.or_eq_true, decide_eq_true_iff, sound.present, number]
    omega
  · change next.position.filenum < 2 ^ 32
    rwa [nextPosition, BinlogOffset.place_filenum]
  · rw [stored]
    exact forall_mem_append.mpr ⟨sound.decodes, by simpa using decodes⟩

theorem Sound.setProducerStatus
    (plain : stable.Plain (.setProducerStatus now proNum proOffset term index))
    (stepped : stable.step (.setProducerStatus now proNum proOffset term index) = some next) :
    next.Sound proNum := by
  obtain ⟨numberFits, small, only⟩ := plain
  have opened := sound.journal.aligned.opened
  have paddable : Binlog.Paddable ({ filenum := proNum, offset := 0 } : BinlogOffset).offset :=
    .inl rfl
  obtain ⟨log, taken, -, place, journal⟩ :=
    Binlog.journal_setProducerStatus opened now term index paddable
  have restart : stable.logger.setProducerStatus now proNum proOffset term index = (.ok, log) := by
    rw [← taken]
    simp only [Binlog.setProducerStatus, if_pos small, if_pos (show 0 < 4 by decide)]
  have gone : ∀ record ∈ stable.stored,
      ¬(record.position.filenum ≠ 0 ∧ record.position.filenum ≠ proNum) := by
    intro record member apart
    have exist := (sound.journal.chain.of_mem member).1.fileExists
    exact (only _ exist).elim apart.1 apart.2
  cases stepped
  rw [restart]
  refine sound.move ?_ ?_ (place ▸ numberFits)
  · rwa [StableLog.move, filter_eq_nil_iff.mpr (by simpa using gone)]
  · intro number
    have effect := Binlog.setProducerStatus_of_opened now proNum 0 term index opened
    rw [taken] at effect
    have files : log.files = Binlog.restartedFiles proNum _ _ := congrArg Binlog.files effect
    rw [place, files, Files.fileExists]
    by_cases here : number = proNum
    · simp [here, Binlog.restartedFiles_self]
    · refine iff_of_false (fun exist => ?_) fun bounds => here (bounds.2.antisymm bounds.1)
      by_cases zero : number = 0
      · simp [zero, Binlog.restartedFiles_zero (zero ▸ Ne.symm here)] at exist
      · rw [Binlog.restartedFiles_of_ne here zero] at exist
        exact (only number exist).elim zero here

/-- The writer goes on behind some of the items, with the files up to there. -/
theorem Sound.resume {next : Binlog} {files : Files} {stop : BinlogOffset}
    (chain : Chain stable.logger.files { filenum := first, offset := 0 } records stop)
    (same : ∀ number ≤ stop.filenum, files number = stable.logger.files number)
    (above : ∀ number, stop.filenum < number → files number = none)
    (aligned : next.Aligned) (place : next.position = stop)
    (filesEq : next.files = files.appendWritableFile stop.filenum stop.offset)
    (stored : (stable.move next left).stored = records) :
    (stable.move next left).Sound first := by
  have inside := (sound.present _).mp chain.marked_stop.fileExists
  refine sound.move ⟨aligned, ?_⟩ ?_ (place ▸ Nat.lt_of_le_of_lt inside.2 sound.bounded)
  · rw [stored, place, filesEq]
    exact (chain.transfer (.of_agree (fun number _ => same number) inside.1)).cut
  · intro number
    have present := sound.present number
    rw [place, filesEq, Files.fileExists_appendWritableFile, Bool.or_eq_true, decide_eq_true_iff]
    rcases Nat.lt_or_ge stop.filenum number with further | upTo
    · simp [Files.fileExists, above number further]
      omega
    · rw [Files.fileExists, same number upTo, ← Files.fileExists, present]
      omega

theorem Sound.truncateTo (plain : stable.Plain (.truncateTo offset))
    (stepped : stable.step (.truncateTo offset) = some next) : next.Sound first := by
  obtain ⟨bOffset, lOffset⟩ := offset
  obtain ⟨record, member, rfl⟩ := mem_map.mp plain
  obtain ⟨earlier, later, recordsEq, before, rest⟩ := sound.journal.chain.cut_behind member
  have same : ∀ number ≤ record.position.filenum,
      removeFiles (decide <| record.position.filenum < ·) stable.logger.files number =
        stable.logger.files number := by
    intro number upTo
    simp [removeFiles, upTo]
  have exist : (removeFiles (decide <| record.position.filenum < ·)
      stable.logger.files).fileExists record.position.filenum = true := by
    rw [Files.fileExists, same _ le_rfl]
    exact before.marked_stop.fileExists
  have front : ∀ other ∈ earlier ++ [record], ¬record.position < other.position :=
    fun other among => (before.of_mem among).2
  have behind : ∀ other ∈ later, record.position < other.position := fun other among =>
    rel_of_pairwise_cons rest.ascending (mem_map_of_mem among)
  cases stepped
  rw [Binlog.truncate, if_pos exist]
  refine sound.resume before same ?_ (Binlog.aligned_initLogFile_appendWritableFile _ _ _ _ rfl) rfl
    (Files.appendWritableFile_twice _ _ _) ?_
  · intro number further
    simp [removeFiles, further]
  · rw [StableLog.move, recordsEq, filter_append, filter_eq_self.mpr (by simpa using front),
      filter_eq_nil_iff.mpr (by simpa using behind), append_nil]

theorem Sound.reopen (fileSize : Nat) :
    (stable.reopen fileSize).Sound first := by
  refine sound.resume sound.journal.chain (fun _ _ => rfl) ?_
    (Binlog.aligned_initLogFile_appendWritableFile
      { stable.logger with fileSize := fileSize, opened := false, blockOffset := 0 }
      stable.logger.files stable.logger.version.proNum stable.logger.version rfl) rfl rfl ?_
  · intro number further
    have absent := (sound.present number).not.mpr (by omega)
    simpa [Files.fileExists] using absent
  · refine filter_eq_self.mpr fun record member => ?_
    have ends := (sound.journal.chain.of_mem member).2
    rw [BinlogOffset.lt_iff, Binlog.position_filenum, Binlog.position_offset] at ends
    simp
    omega

/-- The files in front of one that stays are deleted. -/
theorem Sound.lose {files : Files} (exist : stable.logger.files.fileExists kept = true)
    (agree : ∀ number, kept ≤ number → files number = stable.logger.files number)
    (removed : ∀ number < kept, files number = none)
    (left_iff : ∀ position : BinlogOffset, stable.logger.files.fileExists position.filenum = true →
      (left position = true ↔ kept ≤ position.filenum)) :
    (stable.move { stable.logger with files := files } left).Sound kept := by
  have aligned := sound.journal.aligned
  obtain ⟨above, within⟩ := (sound.present kept).mp exist
  have current := agree stable.logger.proNum (aligned.proNum_eq ▸ within)
  obtain ⟨earlier, later, same, before, chain⟩ :
      ∃ earlier later, stable.stored = earlier ++ later ∧
        (∀ record ∈ earlier, ¬{ filenum := kept, offset := 0 } < record.position) ∧
        Chain stable.logger.files { filenum := kept, offset := 0 } later
          stable.logger.position := by
    rcases Nat.eq_or_lt_of_le above with rfl | further
    · exact ⟨[], _, rfl, nofun, sound.journal.chain⟩
    · exact sound.journal.chain.fileStart further within
  have gone : ∀ record ∈ earlier, ¬left record.position = true := by
    intro record member
    have among : record ∈ stable.stored := same ▸ mem_append_left _ member
    have positive := sound.journal.chain.offset_pos among
    have front := before record member
    simp only [BinlogOffset.lt_iff] at front
    rw [left_iff _ (sound.journal.chain.of_mem among).1.fileExists]
    omega
  have stays : ∀ record ∈ later, left record.position = true := by
    intro record member
    have behind := rel_of_pairwise_cons chain.ascending (mem_map_of_mem member)
    simp only [BinlogOffset.lt_iff] at behind
    rw [left_iff _ (chain.of_mem member).1.fileExists]
    omega
  refine sound.move ?_ ?_ sound.bounded
  · rw [StableLog.move, same, filter_append, filter_eq_nil_iff.mpr gone,
      filter_eq_self.mpr stays, nil_append]
    refine ⟨⟨aligned.opened, aligned.proNum_eq, ?_, ?_, aligned.blockAt⟩,
      chain.transfer (.of_agree (fun number further _ => agree number further) within)⟩
    · exact (congrArg Option.isSome current).trans aligned.fileExists
    · exact (congrArg (fun file => (Option.getD file []).length) current).trans aligned.size_eq
  · intro number
    rcases Nat.lt_or_ge number kept with earlier | further
    · simp [Files.fileExists, removed number earlier, earlier]
    · have := sound.present number
      rw [Files.fileExists, ← agree number further] at this
      exact this.trans (and_congr_left' (iff_of_true (above.trans further) further))

theorem Sound.purge (plain : stable.Plain (.purgeFiles deleted finished fuels)) :
    ∃ kept, (stable.purge deleted).Sound kept := by
  obtain ⟨-, ⟨kept, exist, below⟩, -⟩ := plain
  refine ⟨kept, ?_⟩
  unfold StableLog.purge
  refine sound.lose exist ?_ ?_ fun position inside => ?_
  · intro number further
    cases held : stable.logger.files number with
    | none => simp [removeFiles, held]
    | some contents =>
      simp [removeFiles, held, below number (by simp [Files.fileExists, held]), further]
  · intro number earlier
    cases held : stable.logger.files number with
    | none => simp [removeFiles, held]
    | some contents =>
      simp [removeFiles, below number (by simp [Files.fileExists, held]), earlier]
  · simp [below _ inside]

end

theorem exists_sound_step (held : ∃ first, stable.Sound first) (plain : stable.Plain operation)
    (stepped : stable.step operation = some next) : ∃ kept, next.Sound kept := by
  obtain ⟨first, sound⟩ := held
  cases operation with
  | put call =>
    rw [StableLog.step, Binlog.put, if_neg (by simp [sound.journal.aligned.opened])] at stepped
    split_ifs at stepped
    cases stepped
    exact ⟨first, sound.put plain⟩
  | setProducerStatus now proNum proOffset term index =>
    exact ⟨proNum, sound.setProducerStatus plain stepped⟩
  | truncateTo offset => exact ⟨first, sound.truncateTo plain stepped⟩
  | purgeFiles deleted finished fuels =>
    obtain ⟨kept, purged⟩ := sound.purge plain
    rw [StableLog.step] at stepped
    split_ifs at stepped
    · cases purged.found.eq_of_mem fuels next stepped
      exact ⟨kept, purged.withOffset _⟩
    · cases stepped
      exact ⟨kept, purged⟩
  | construct fileSize fuels =>
    have started := (sound.reopen fileSize).withOffset .zero
    cases started.found.eq_of_mem fuels next stepped
    exact ⟨first, started.withOffset _⟩

theorem sound_initial (fileSize term : Nat) : (initial fileSize term).Sound 0 where
  journal := Binlog.journal_fresh fileSize term
  present number := by
    cases number <;> simp [initial, Binlog.fresh, Binlog.initLogFile, Files.fileExists,
      Files.newWritableFile, Files.empty, Binlog.position]
  bounded := Nat.two_pow_pos 32
  decodes := nofun

/-- Operations that return, and only with the right `first_offset_`. -/
def Refreshes (stable : StableLog) (operation : List Nat → StableOperation) : Prop :=
  (∃ fuels, (stable.step (operation fuels)).isSome) ∧
    ∀ fuels, ∀ next ∈ stable.step (operation fuels), next.Right

/-- In a log that was only ever changed by plain steps, a constructor and a
purge find the first item. -/
theorem refreshes_of_run (fileSize term : Nat) (operations : List StableOperation)
    (stable : StableLog) (plain : RunAdmissible step Plain (initial fileSize term) operations)
    (ran : run step (initial fileSize term) operations = some stable) :
    (∀ fileSize, stable.Refreshes (.construct fileSize)) ∧
      ∀ deleted, deleted ≠ [] → stable.Plain (.purgeFiles deleted true []) →
        stable.Refreshes (.purgeFiles deleted true) := by
  obtain ⟨first, sound⟩ := invariant_of_run (fun _ _ _ => exists_sound_step)
    ⟨0, sound_initial fileSize term⟩ plain ran
  constructor
  · intro fileSize
    have found := ((sound.reopen fileSize).withOffset .zero).found
    exact ⟨found.returns, found.right fun _ => rfl⟩
  · intro deleted some purging
    obtain ⟨kept, purged⟩ := sound.purge purging
    have stepEq : ∀ fuels, stable.step (.purgeFiles deleted true fuels) =
        (stable.purge deleted).updateFirstOffset fuels := fun fuels => if_pos ⟨rfl, some⟩
    simp only [Refreshes, stepEq]
    exact ⟨purged.found.returns, purged.found.right purging.2.2⟩

/-- An item with an execution time. -/
def timedItem : Binlog.Bytes :=
  Binlog.putFixed 2 1 ++ Binlog.putFixed 4 5 ++ Binlog.putFixed 28 0

instance (stable : StableLog) (call : PutCall) : Decidable (stable.Plain (.put call)) :=
  inferInstanceAs (Decidable (_ ∧ _ ∧ _))

/-- An item in each of two files, with a restart between them. -/
def twoFiles : List StableOperation :=
  [.put { item := timedItem, now := fun _ => 0 }, .construct 0 [1],
    .put { item := timedItem, now := fun _ => 0 }]

/-- The constructor finds the first item, and the purge of its file the
second. -/
theorem refreshes_twoFiles : ∃ stable, run step (initial 0 0) twoFiles = some stable ∧
    stable.firstOffset ≠ .zero ∧ (∀ fileSize, stable.Refreshes (.construct fileSize)) ∧
      stable.Refreshes (.purgeFiles [0] true) := by
  have plain : RunAdmissible step Plain (initial 0 0) twoFiles := by
    refine ⟨by decide +kernel, fun next stepped => ⟨trivial, fun later reopened => ⟨?_, ?_⟩⟩⟩
    · exact (by decide +kernel : ∀ next ∈ (initial 0 0).step (.put _),
        ∀ later ∈ next.step (.construct 0 [1]), later.Plain (.put _)) next stepped later reopened
    · exact fun _ _ => trivial
  obtain ⟨stable, ran, facts⟩ := (Option.any_eq_true _ _).mp (by decide +kernel :
    (run step (initial 0 0) twoFiles).any (fun stable => stable.firstOffset ≠ .zero ∧
      stable.logger.files.fileExists 1 = true ∧ (stable.purge [0]).firstItem ≠ none) = true)
  obtain ⟨found, present, left⟩ := of_decide_eq_true facts
  obtain ⟨constructs, purges⟩ := refreshes_of_run _ _ _ stable plain ran
  refine ⟨stable, ran, found, constructs, purges [0] (List.cons_ne_nil _ _) ⟨rfl, ?_, ?_⟩⟩
  · exact ⟨1, present, fun number _ => by simp⟩
  · exact fun nothing => absurd nothing left

instance (stable : StableLog) : Decidable stable.Right := inferInstanceAs (Decidable (_ = _))

/-- Behind the padding of `SetProducerStatus` an item is not found, a purge that
is refused on its way leaves `first_offset_` unset, and one that deletes the
last item with a time leaves it set. -/
theorem not_right_padding :
    let put item : StableOperation := .put { item, now := fun _ => 0 }
    (run step (initial 104857600 0)
        [.setProducerStatus 0 1 9 0 0, put timedItem, .construct 104857600 [1]]).any
        (fun stable => ¬stable.Right) ∧
      (run step (initial 0 0) [put timedItem, put timedItem, .purgeFiles [0] false []]).any
        (fun stable => ¬stable.Right) ∧
      (run step (initial 0 0) [put timedItem, .construct 0 [1],
        put (Binlog.putFixed 2 1 ++ Binlog.putFixed 32 0), .purgeFiles [0] true [2, 2]]).any
        (fun stable => ¬stable.Right) := by
  decide +kernel

end StableLog
end Pika.Replication
