import Pika.Binlog.Seek

/-!
# Chains of records

A chain says that a list of records lies in the binlog files one after the
other, from one position to another, going to the next file at the end of
each.  Along a chain every position can be sought and `Get` returns the records
in order.
-/

namespace Pika.Binlog

open Foundation List

/-- An item with the position behind it. -/
structure Record where
  item : Bytes
  /-- The position behind the item. -/
  position : BinlogOffset
  deriving DecidableEq, Repr

namespace BinlogOffset

/-- The position behind an item of `length` bytes written at a position. -/
def afterItem (position : BinlogOffset) (length : Nat) : BinlogOffset :=
  { filenum := position.filenum, offset := recordEnd position.offset length }

/-- The start of the file behind a position. -/
def nextFile (position : BinlogOffset) : BinlogOffset :=
  { filenum := position.filenum + 1, offset := 0 }

section

variable (position : BinlogOffset)
include position

@[simp] theorem afterItem_filenum (length : Nat) :
    (position.afterItem length).filenum = position.filenum := by
  rw [afterItem]

@[simp] theorem afterItem_offset (length : Nat) :
    (position.afterItem length).offset = recordEnd position.offset length := by
  rw [afterItem]

@[simp] theorem nextFile_filenum :
    position.nextFile.filenum = position.filenum + 1 := rfl

@[simp] theorem nextFile_offset : position.nextFile.offset = 0 := rfl

theorem lt_afterItem (length : Nat) :
    position < position.afterItem length := by
  have grows := add_length_lt_recordEnd position.offset length
  rw [lt_iff, afterItem_filenum, afterItem_offset]
  omega

theorem lt_nextFile : position < position.nextFile := by
  rw [lt_iff, nextFile_filenum]
  omega

end

end BinlogOffset

/-- A position of an existing file that can be sought. -/
structure Marked (files : Files) (position : BinlogOffset) : Prop where
  fileExists : files.fileExists position.filenum = true
  offset_le : position.offset ≤ (files.contents position.filenum).length
  seekable : Seekable ((files.contents position.filenum).take position.offset)

/-- Files that agree from file `first` to a position. -/
structure Files.Keeps (files other : Files) (first : Nat) (stop : BinlogOffset) : Prop where
  fileExists : ∀ number, first ≤ number → number ≤ stop.filenum →
    files.fileExists number = true → other.fileExists number = true
  below : ∀ number, first ≤ number → number < stop.filenum →
    other.contents number = files.contents number
  atStop : ∃ rest, other.contents stop.filenum =
    (files.contents stop.filenum).take stop.offset ++ rest

namespace Files.Keeps

variable {files other : Files} {stop position : BinlogOffset}

theorem of_agree (agree : ∀ number, first ≤ number → number ≤ stop.filenum →
      other number = files number) (bounded : first ≤ stop.filenum) :
    files.Keeps other first stop where
  fileExists number above upTo exist := by rwa [Files.fileExists, agree number above upTo]
  below number above earlier := by simp [Files.contents, agree number above earlier.le]
  atStop := by
    refine ⟨(files.contents stop.filenum).drop stop.offset, ?_⟩
    rw [take_append_drop, Files.contents, agree _ bounded le_rfl, Files.contents]

theorem contents_eq (keeps : files.Keeps other first stop) (above : first ≤ position.filenum)
    (reached : ¬stop < position) :
    ∃ rest, other.contents position.filenum =
      (files.contents position.filenum).take position.offset ++ rest := by
  rw [BinlogOffset.lt_iff] at reached
  by_cases last : position.filenum = stop.filenum
  · obtain ⟨rest, contentsEq⟩ := keeps.atStop
    have shorter : position.offset ≤ stop.offset := by omega
    refine ⟨((files.contents stop.filenum).take stop.offset).drop position.offset ++ rest, ?_⟩
    rw [last, contentsEq, ← append_assoc, ← Nat.min_eq_left shorter, ← take_take,
      Nat.min_eq_left shorter, take_append_drop]
  · refine ⟨(files.contents position.filenum).drop position.offset, ?_⟩
    rw [keeps.below _ above (by omega), take_append_drop]

theorem marked (keeps : files.Keeps other first stop) (above : first ≤ position.filenum)
    (reached : ¬stop < position) (before : Marked files position) :
    Marked other position := by
  obtain ⟨rest, contentsEq⟩ := keeps.contents_eq above reached
  have lengthEq := length_take_of_le before.offset_le
  rw [BinlogOffset.lt_iff] at reached
  refine ⟨keeps.fileExists _ above (by omega) before.fileExists, ?_, ?_⟩
  · rw [contentsEq, length_append, lengthEq]
    exact Nat.le_add_right _ _
  · rw [contentsEq, take_left' lengthEq]
    exact before.seekable

end Files.Keeps

/-- Files that change at most by an append to file `last` and behind it. -/
structure Files.Grows (files grown : Files) (last : Nat) : Prop where
  below : ∀ number < last, grown.contents number = files.contents number
  atLast : ∃ added, grown.contents last = files.contents last ++ added
  fileExists : ∀ number ≤ last, files.fileExists number = true → grown.fileExists number = true

namespace Files.Grows

variable {files grown : Files}

theorem contents_eq (grows : files.Grows grown last) (bounded : number ≤ last) :
    ∃ added, grown.contents number = files.contents number ++ added := by
  rcases Nat.lt_or_eq_of_le bounded with earlier | rfl
  · exact ⟨[], by rw [grows.below number earlier, List.append_nil]⟩
  · exact grows.atLast

theorem append (files : Files) (last : Nat) (bytes : Bytes) :
    files.Grows (files.append last bytes) last where
  below number earlier := contents_append_of_ne files bytes earlier.ne
  atLast := ⟨bytes, contents_append_self files last bytes⟩
  fileExists number _ present := by simp [present]

/-- Files that agree up to `last` grow from each other. -/
theorem of_agree (agree : ∀ number ≤ last, grown number = files number) :
    files.Grows grown last where
  below number earlier := by simp [Files.contents, agree number earlier.le]
  atLast := ⟨[], by simp [Files.contents, agree last le_rfl]⟩
  fileExists number bounded present := by
    rwa [Files.fileExists, agree number bounded]

theorem keeps (grows : files.Grows grown last) (first : Nat) (bounded : stop.filenum ≤ last) :
    files.Keeps grown first stop where
  fileExists number _ upTo := grows.fileExists number (upTo.trans bounded)
  below number _ earlier := grows.below number (earlier.trans_le bounded)
  atStop := by
    obtain ⟨added, contentsEq⟩ := grows.contents_eq bounded
    refine ⟨(files.contents stop.filenum).drop stop.offset ++ added, ?_⟩
    rw [contentsEq, ← append_assoc, take_append_drop]

/-- Positions of the growing files stay marked. -/
theorem marked (grows : files.Grows grown last)
    (bounded : position.filenum ≤ last) (before : Marked files position) :
    Marked grown position :=
  (grows.keeps _ bounded).marked le_rfl (BinlogOffset.lt_irrefl _) before

end Files.Grows

/-- The records between two positions of the files. -/
inductive Chain (files : Files) : BinlogOffset → List Record → BinlogOffset → Prop where
  | done (marked : Marked files position) : Chain files position [] position
  | item {position stop : BinlogOffset} {item rest : Bytes} {records : List Record}
      (marked : Marked files position)
      (nonempty : item ≠ [])
      (now : Nat → Nat)
      (split : (files.contents position.filenum).drop position.offset =
        frame now position.offset item ++ rest)
      (tail : Chain files (position.afterItem item.length) records stop) :
      Chain files position
        ({ item := item, position := position.afterItem item.length } :: records)
        stop
  | roll {position stop : BinlogOffset} {record : Record} {records : List Record}
      (marked : Marked files position)
      (atEnd : (files.contents position.filenum).length = position.offset)
      (bounded : position.filenum + 1 < 2 ^ 32)
      (tail : Chain files position.nextFile (record :: records) stop) :
      Chain files position (record :: records) stop

namespace Chain

variable {files : Files} {start stop : BinlogOffset} {records : List Record}

theorem marked_start (chain : Chain files start records stop) : Marked files start := by
  cases chain with
  | done marked => exact marked
  | item marked => exact marked
  | roll marked => exact marked

theorem marked_stop (chain : Chain files start records stop) : Marked files stop := by
  induction chain with
  | done marked => exact marked
  | item _ _ _ _ _ ih => exact ih
  | roll _ _ _ _ ih => exact ih

theorem eq_of_nil (chain : Chain files start [] stop) : start = stop := by
  cases chain
  rfl

section

variable (chain : Chain files start records stop)
include chain

theorem start_lt_stop (nonempty : records ≠ []) :
    start < stop := by
  induction chain with
  | done => contradiction
  | @item position stop item rest records _ _ _ _ tail ih =>
    have step := position.lt_afterItem item.length
    by_cases last : records = []
    · subst last
      exact tail.eq_of_nil ▸ step
    · exact BinlogOffset.lt_trans step (ih last)
  | @roll position stop record records _ _ _ _ ih =>
    exact BinlogOffset.lt_trans position.lt_nextFile (ih nonempty)

theorem not_stop_lt_start : ¬stop < start := by
  intro backward
  cases records with
  | nil =>
    rw [chain.eq_of_nil] at backward
    exact BinlogOffset.lt_irrefl _ backward
  | cons record records =>
    have forward := chain.start_lt_stop (cons_ne_nil _ _)
    exact BinlogOffset.lt_irrefl _ (BinlogOffset.lt_trans backward forward)

theorem filenum_le : start.filenum ≤ stop.filenum := by
  induction chain with
  | done => exact le_rfl
  | item _ _ _ _ _ ih => simpa using ih
  | roll _ _ _ _ ih =>
    rw [BinlogOffset.nextFile_filenum] at ih
    omega

/-- A chain stays in files that agree from its first file to its end. -/
theorem transfer
    (keeps : files.Keeps other start.filenum stop) : Chain other start records stop := by
  have reached := chain.not_stop_lt_start
  induction chain with
  | done marked => exact .done (keeps.marked le_rfl reached marked)
  | @item position stop item rest records marked nonempty now split tail ih =>
    have above : position.filenum ≤ (position.afterItem item.length).filenum := le_rfl
    have onward := tail.not_stop_lt_start
    obtain ⟨behind, contentsEq⟩ := keeps.contents_eq above onward
    rw [BinlogOffset.afterItem_filenum, BinlogOffset.afterItem_offset,
      ← add_length_frame now, take_add, split, take_left] at contentsEq
    have otherSplit : (other.contents position.filenum).drop position.offset =
        frame now position.offset item ++ behind := by
      rw [contentsEq, append_assoc, drop_left' (length_take_of_le marked.offset_le)]
    exact .item (keeps.marked le_rfl reached marked) nonempty now otherSplit (ih keeps onward)
  | @roll position stop record records marked atEnd bounded tail ih =>
    have earlier := tail.filenum_le
    rw [BinlogOffset.nextFile_filenum] at earlier
    have fromNext : files.Keeps other position.nextFile.filenum stop :=
      ⟨fun number above => keeps.fileExists number (Nat.le_of_succ_le above),
        fun number above => keeps.below number (Nat.le_of_succ_le above), keeps.atStop⟩
    refine .roll (keeps.marked le_rfl reached marked) ?_ bounded
      (ih fromNext tail.not_stop_lt_start)
    rw [← atEnd, keeps.below _ le_rfl earlier]

/-- A chain stays when its last file grows. -/
theorem mono (grows : files.Grows grown stop.filenum) :
    Chain grown start records stop :=
  chain.transfer (grows.keeps _ le_rfl)

end

theorem append (first : Chain files start records middle) (second : Chain files middle later stop) :
    Chain files start (records ++ later) stop := by
  induction first with
  | done => exact second
  | item marked nonempty now split _ ih => exact .item marked nonempty now split (ih second)
  | roll marked atEnd bounded _ ih => exact .roll marked atEnd bounded (ih second)

/-- The first record of a chain ends beyond the start, and the rest of the
chain goes on from there. -/
theorem uncons (chain : Chain files start (record :: records) stop) :
    start < record.position ∧ Chain files record.position records stop := by
  generalize whole : record :: records = list at chain
  induction chain with
  | done => contradiction
  | @item position stop item rest others _ _ _ _ tail _ =>
    cases whole
    exact ⟨position.lt_afterItem item.length, tail⟩
  | @roll position stop other others _ _ _ _ ih =>
    obtain ⟨later, tail⟩ := ih whole
    exact ⟨BinlogOffset.lt_trans position.lt_nextFile later, tail⟩

section

variable (chain : Chain files start records stop)
include chain

theorem ascending :
    (start :: records.map Record.position).Pairwise (· < ·) := by
  induction records generalizing start with
  | nil => exact pairwise_singleton _ _
  | cons record records ih =>
    obtain ⟨behind, tail⟩ := chain.uncons
    have later := ih tail
    rw [map_cons, pairwise_cons]
    refine ⟨forall_mem_cons.mpr ⟨behind, ?_⟩, later⟩
    intro position member
    exact BinlogOffset.lt_trans behind (rel_of_pairwise_cons later member)

/-- A chain can be cut behind each of its records. -/
theorem cut_behind (member : record ∈ records) :
    ∃ earlier later, records = (earlier ++ [record]) ++ later ∧
      Chain files start (earlier ++ [record]) record.position ∧
      Chain files record.position later stop := by
  induction chain with
  | done => cases member
  | item marked nonempty now split tail ih =>
    rcases mem_cons.mp member with rfl | further
    · exact ⟨[], _, rfl, .item marked nonempty now split (.done tail.marked_start), tail⟩
    · obtain ⟨earlier, later, rfl, before, rest⟩ := ih further
      exact ⟨_ :: earlier, later, rfl, .item marked nonempty now split before, rest⟩
  | roll marked atEnd bounded tail ih =>
    obtain ⟨earlier, later, same, before, rest⟩ := ih member
    refine ⟨earlier, later, same, ?_, rest⟩
    cases earlier <;> exact .roll marked atEnd bounded before

theorem of_mem (member : record ∈ records) :
    Marked files record.position ∧ ¬stop < record.position := by
  obtain ⟨_, _, -, -, rest⟩ := chain.cut_behind member
  exact ⟨rest.marked_start, rest.not_stop_lt_start⟩

theorem offset_pos (member : record ∈ records) :
    0 < record.position.offset := by
  induction chain with
  | done => cases member
  | item _ _ _ _ _ ih =>
    rcases mem_cons.mp member with rfl | further
    · exact Nat.zero_lt_of_lt (add_length_lt_recordEnd _ _)
    · exact ih further
  | roll _ _ _ _ ih => exact ih member

/-- From its start or the end of one of its records, a chain goes on with the
records behind. -/
theorem split_at (member : position ∈ start :: records.map Record.position) :
    ∃ earlier later, records = earlier ++ later ∧
      (∀ record ∈ earlier, ¬position < record.position) ∧
      Chain files position later stop := by
  rcases mem_cons.mp member with rfl | further
  · exact ⟨[], records, rfl, nofun, chain⟩
  · obtain ⟨record, among, rfl⟩ := mem_map.mp further
    obtain ⟨earlier, later, same, before, rest⟩ := chain.cut_behind among
    exact ⟨_, later, same, fun _ inside => (before.of_mem inside).2, rest⟩

/-- A chain goes through the start of every file that it rolls into. -/
theorem fileStart (behind : start.filenum < number) (bounded : number ≤ stop.filenum) :
    ∃ earlier later, records = earlier ++ later ∧ (∀ record ∈ earlier,
        ¬{ filenum := number, offset := 0 } < record.position) ∧
      Chain files { filenum := number, offset := 0 } later stop := by
  induction chain with
  | done => omega
  | @item position stop item rest others _ _ _ _ _ ih =>
    rw [BinlogOffset.afterItem_filenum] at ih
    obtain ⟨earlier, later, rfl, before, tail⟩ := ih behind bounded
    refine ⟨_ :: earlier, later, rfl, ?_, tail⟩
    refine forall_mem_cons.mpr ⟨?_, before⟩
    simp only [BinlogOffset.lt_iff, BinlogOffset.afterItem_filenum]
    omega
  | @roll position stop record records _ _ _ tail ih =>
    rw [BinlogOffset.nextFile_filenum] at ih
    by_cases next : number = position.filenum + 1
    · subst next
      exact ⟨[], _, rfl, nofun, tail⟩
    · exact ih (by omega) bounded

end

/-- An item at the end of a file is a chain of one record. -/
theorem single {position : BinlogOffset} {item : Bytes} (before : Bytes)
    (now : Nat → Nat) (present : files.fileExists position.filenum = true)
    (contentsEq : files.contents position.filenum = before ++ frame now position.offset item)
    (lengthEq : before.length = position.offset) (seekable : Seekable before)
    (nonempty : item ≠ []) :
    Chain files position [{ item := item, position := position.afterItem item.length }]
      (position.afterItem item.length) := by
  have total : (before ++ frame now position.offset item).length =
      recordEnd position.offset item.length := by
    rw [length_append, lengthEq, add_length_frame]
  have here : Marked files position := by
    refine ⟨present, ?_, ?_⟩
    · rw [contentsEq, ← lengthEq, length_append]
      exact Nat.le_add_right _ _
    · rwa [contentsEq, ← lengthEq, take_left]
  have behind : Marked files (position.afterItem item.length) := by
    refine ⟨?_, ?_, ?_⟩ <;> rw [BinlogOffset.afterItem_filenum]
    · exact present
    · rw [BinlogOffset.afterItem_offset, contentsEq, total]
    · rw [BinlogOffset.afterItem_offset, contentsEq, ← total, take_length, ← lengthEq]
      exact seekable.append_frame now item
  have split : (files.contents position.filenum).drop position.offset =
      frame now position.offset item ++ [] := by
    rw [contentsEq, ← lengthEq, drop_left, List.append_nil]
  exact .item here nonempty now split (.done behind)

/-- The position reached after some records of a chain. -/
def positionAfter (start : BinlogOffset) : List Record → BinlogOffset
  | [] => start
  | record :: records => positionAfter record.position records

theorem positionAfter_append_cons (start : BinlogOffset) (earlier : List Record)
    (record : Record) (later : List Record) :
    positionAfter start (earlier ++ record :: later) = positionAfter record.position later := by
  induction earlier generalizing start with
  | nil => rfl
  | cons first earlier ih => exact ih first.position

/-- What holds of the start and behind every record holds of the position
reached. -/
theorem positionAfter_of_forall {property : BinlogOffset → Prop} (atStart : property start)
    (behindRecords : ∀ record ∈ records, property record.position) :
    property (positionAfter start records) := by
  induction records generalizing start with
  | nil => exact atStart
  | cons record records ih =>
    exact ih (behindRecords record mem_cons_self) fun other member =>
        behindRecords other (mem_cons_of_mem _ member)

/-- From the position behind any of its records, a chain goes on with the
others. -/
theorem drop (chain : Chain files start (earlier ++ records) stop) :
    Chain files (positionAfter start earlier) records stop := by
  induction earlier generalizing start with
  | nil => exact chain
  | cons record earlier ih => exact ih chain.uncons.2

theorem positionAfter_eq_stop (chain : Chain files start records stop) :
    positionAfter start records = stop := by
  rw [← List.append_nil records] at chain
  exact chain.drop.eq_of_nil

end Chain

/-- `Seek` to a marked position succeeds and leaves the reader there. -/
theorem Marked.seek_eq (marked : Marked log.files position) :
    Reader.seek log position.filenum position.offset =
      some (Reader.positioned position.filenum position.offset) := by
  have sought := Reader.seek_of_seekable marked.seekable marked.fileExists
    (take_append_drop _ _).symm
  rwa [length_take, Nat.min_eq_left marked.offset_le] at sought

namespace Reader

variable {reader : Reader}

/-- At the published position, `Get` reports the end of the log. -/
theorem getLoop_of_end (published : log.getProducerStatus = some status)
    (standing : reader.At status.filenum status.offset) (fuel : Nat) :
    getLoop log (fuel + 1) output reader =
      some (.endFile "End of cur log file", output, reader) := by
  rw [getLoop, if_pos]
  simp [readToTheEnd, published, standing.curFilenum_eq, standing.curOffset_eq]

theorem readToTheEnd_of_ne (published : log.getProducerStatus = some status)
    (standing : reader.At position.filenum position.offset) (different : status ≠ position) :
    reader.readToTheEnd log = false := by
  simpa [readToTheEnd, published, standing.curFilenum_eq, standing.curOffset_eq] using different

/-- At the end of a file, `Get` goes on in the next one. -/
theorem getLoop_of_roll {position : BinlogOffset} (notEnd : reader.readToTheEnd log = false)
    (standing : reader.At position.filenum position.offset)
    (atEnd : (log.files.contents position.filenum).length ≤ position.offset)
    (nextNumber : castUInt32 ((position.filenum : Int) + 1) = number)
    (present : log.files.fileExists number = true) (fuel : Nat) :
    getLoop log (fuel + 1) output reader = getLoop log fuel output (positioned number 0) := by
  obtain ⟨next, sameFile, consumed⟩ := standing.consume_at_end atEnd
  have nextEq : next.openNext = positioned number 0 := by
    simp [openNext, positioned, sameFile, nextNumber]
  rw [getLoop, notEnd, consumed]
  simp [Status.isEndFile, sameFile, nextNumber, present, nextEq]

/-- In front of a record of a chain, `Get` either returns the record or meets
the published position before its end. -/
theorem getLoop_of_chain {start stop : BinlogOffset} {record : Record}
    (chain : Chain log.files start (record :: records) stop)
    (published : log.getProducerStatus = some status)
    (standing : reader.At start.filenum start.offset) (output : Output)
    (cleared : output.scratch = []) :
    ∃ fuel, (∃ next : Reader, status < record.position ∧ getLoop log fuel output reader =
            some (.endFile "End of cur log file", output, next)) ∨
      ∃ next : Reader, next.At record.position.filenum record.position.offset ∧
          getLoop log fuel output reader = some (.ok,
              { scratch := record.item
                filenum := record.position.filenum
                offset := record.position.offset }, next) := by
  generalize whole : record :: records = list at chain
  induction chain generalizing reader with
  | done => contradiction
  | @item position stop item rest others marked nonempty now split _ _ =>
    cases whole
    refine ⟨1, ?_⟩
    by_cases same : status = position
    · subst same
      exact .inl ⟨reader, status.lt_afterItem item.length, getLoop_of_end published standing 0⟩
    · obtain ⟨next, nextAt, consumed⟩ := standing.consume_frame nonempty split cleared
      refine .inr ⟨next, ?_, ?_⟩
      · rwa [BinlogOffset.afterItem_filenum, BinlogOffset.afterItem_offset]
      · rw [getLoop, readToTheEnd_of_ne published standing same, consumed]
        simp [Status.isEndFile]
  | @roll position stop other others marked atEnd bounded tail ih =>
    by_cases same : status = position
    · subst same
      have later := (Chain.roll marked atEnd bounded tail).uncons.1
      cases whole
      exact ⟨1, .inl ⟨reader, later, getLoop_of_end published standing 0⟩⟩
    · obtain ⟨fuel, outcome⟩ := ih (at_positioned _ _) whole
      have number := castUInt32_succ bounded
      refine ⟨fuel + 1, ?_⟩
      rwa [getLoop_of_roll (readToTheEnd_of_ne published standing same)
        standing atEnd.le number tail.marked_start.fileExists]

theorem getLoop_mono (returned : getLoop log fuel output reader = some result)
    (enough : fuel ≤ more) :
    getLoop log more output reader = some result := by
  induction fuel generalizing more output reader with
  | zero => simp [getLoop] at returned
  | succ fuel ih =>
    obtain ⟨more, rfl⟩ := Nat.exists_eq_add_of_lt enough
    rw [show fuel + more + 1 = (fuel + more) + 1 from rfl]
    simp only [getLoop] at returned ⊢
    split_ifs at returned ⊢ with atEnd eof present
    · exact returned
    · exact ih returned (Nat.le_add_right _ _)
    · exact returned
    · exact returned

end Reader
end Pika.Binlog
