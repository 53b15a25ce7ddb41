import Pika.Binlog.Takeover

/-!
# A follower's log next to its master's

A follower restarts its log at the master's position and puts items of the
same lengths.  The two logs stay at equal positions as long as the published
offset decides on the same rolls as the size of the master's file, and every
end of the follower comes back from the `int` it is published through.
-/

namespace Pika.Binlog

open Foundation List
open BinlogOffset (ext_iff nextFile_filenum nextFile_offset place_filenum place_offset
  writeFrom_of_lt writeFrom_of_not_lt)

/-- Both logs take the paired calls, record equal positions, and from every
position since `start` a reader of the follower returns what follows. -/
def InStep (start : BinlogOffset) (records : List Record)
    (master follower : Binlog) (pairs : List (PutCall × PutCall)) : Prop :=
  ∃ masterEnd followerEnd masterRecords followerRecords,
    master.putAll (pairs.map Prod.fst) = some (masterEnd, masterRecords) ∧
      follower.putAll (pairs.map Prod.snd) = some (followerEnd, followerRecords) ∧
      followerRecords.map Record.position = masterRecords.map Record.position ∧
      ∀ earlier later, records ++ followerRecords = earlier ++ later →
        ∃ reader, Reader.seek followerEnd
              (Chain.positionAfter start earlier).filenum
              (Chain.positionAfter start earlier).offset = some reader ∧
          Drains followerEnd reader later

/-- A follower that restarts at the master's position is in step with the
master after each of the following `Put`s. -/
def InLockstep (master follower : Binlog) (now term index : Nat)
    (pairs : List (PutCall × PutCall)) : Prop :=
  ∃ restarted, follower.setProducerStatus now master.position.filenum
          master.position.offset term index = (.ok, restarted) ∧
      restarted.position = master.position ∧
      ∀ count, InStep master.position [] master restarted (pairs.take count)

/-- The size of a file after the next item, which goes to a new file once the
size is beyond the threshold. -/
def sizeAfter (fileSize size length : Nat) : Nat :=
  recordEnd (if fileSize < size then 0 else size) length

/-- The size of the master's file and the published offset decide on the same
rolls, and every end is kept.  `size` is the size of the master's file. -/
def Agree (fileSize : Nat) : Nat → BinlogOffset → List Nat → Prop
  | _, _, [] => True
  | size, position, length :: lengths =>
    (fileSize < size ↔ fileSize < position.offset) ∧
      (position.place fileSize length).Kept ∧
      Agree fileSize (sizeAfter fileSize size length)
        (position.place fileSize length) lengths

/-! ## The master's log -/

/-- A log written by `Put`s alone, whatever offset it publishes. -/
structure Tracks (log : Binlog) (size : Nat) : Prop where
  opened : log.opened = true
  proNum_eq : log.version.proNum = log.proNum
  size_eq : (log.files.contents log.proNum).length = size
  blockAt : BlockAt log.blockOffset size
  proOffset_eq : log.version.proOffset = castUInt64 (castInt32 size)
  paddable : Paddable size

theorem tracks_fresh (fileSize term : Nat) : (fresh fileSize term).Tracks 0 where
  opened := rfl
  proNum_eq := rfl
  size_eq := rfl
  blockAt := BlockAt.of_mod 0
  proOffset_eq := rfl
  paddable := .inl rfl

variable {log next master follower : Binlog} {size : Nat}

theorem Tracks.low (tracks : log.Tracks size) :
    castInt32 log.version.proOffset = castInt32 size := by
  rw [tracks.proOffset_eq, castInt32_castUInt64, castInt32_castInt32]

theorem Tracks.paddable_position (tracks : log.Tracks size) : Paddable log.position.offset := by
  have same := (castInt32_eq_iff _ _).mp tracks.low
  have paddable := tracks.paddable
  rw [Paddable, position_offset]
  simp only [Paddable, kBlockSize] at paddable ⊢
  omega

/-- The file number after a `Put`. -/
def numberAfter (log : Binlog) (size : Nat) : Nat :=
  if log.fileSize < size then castUInt32 (log.proNum + 1) else log.proNum

theorem Tracks.putSlice (tracks : log.Tracks size) (now : Nat → Nat) (nonempty : item ≠ []) :
    (log.putSlice now item).Tracks (sizeAfter log.fileSize size item.length) ∧
      (log.putSlice now item).fileSize = log.fileSize ∧
      (log.putSlice now item).version.proNum = log.numberAfter size := by
  have positive := length_pos_of_ne_nil nonempty
  by_cases full : log.fileSize < size
  · have rolled : log.checkRoll = log.roll := if_pos (tracks.size_eq.symm ▸ full)
    have aligned := aligned_roll log
    have effect : log.checkRoll.PutEffect (log.putSlice now item) now item 0 :=
      putSlice_effect (rolled.symm ▸ aligned.blockAt) (by rw [rolled]; rfl)
        now item
    rw [rolled] at effect
    have empty : (log.roll.files.contents log.roll.proNum).length = 0 := aligned.size_eq
    rw [sizeAfter, numberAfter, if_pos full, if_pos full]
    refine ⟨⟨?_, ?_, ?_, effect.blockAt, effect.proOffset_eq,
      paddable_recordEnd 0 positive⟩, ?_, ?_⟩
    · rw [effect.opened_eq, aligned.opened]
    · rw [effect.version_proNum_eq, effect.proNum_eq, aligned.proNum_eq]
    · rw [effect.files_eq, effect.proNum_eq, Files.contents_append_self,
        length_append, empty, add_length_frame]
    · rw [effect.fileSize_eq]
      rfl
    · rw [effect.version_proNum_eq]
      rfl
  · have stayed : log.checkRoll = log := if_neg (tracks.size_eq.symm ▸ full)
    have effect := putSlice_effect (stayed.symm ▸ tracks.blockAt)
      (by rw [stayed, tracks.low]) now item
    rw [stayed] at effect
    rw [sizeAfter, numberAfter, if_neg full, if_neg full]
    refine ⟨⟨?_, ?_, ?_, effect.blockAt, effect.proOffset_eq,
      paddable_recordEnd size positive⟩, effect.fileSize_eq, ?_⟩
    · rw [effect.opened_eq, tracks.opened]
    · rw [effect.version_proNum_eq, effect.proNum_eq, tracks.proNum_eq]
    · rw [effect.files_eq, effect.proNum_eq, Files.contents_append_self,
        length_append, tracks.size_eq, add_length_frame]
    · rw [effect.version_proNum_eq, tracks.proNum_eq]

/-- Where the end of the layout is kept, a `Put` publishes it exactly when the
published offset decides on a roll as the size does. -/
theorem Tracks.position_putSlice (tracks : log.Tracks size) (now : Nat → Nat) (nonempty : item ≠ [])
    (numberFits : (log.position.writeFrom log.fileSize).filenum < 2 ^ 32)
    (kept : (log.position.place log.fileSize item.length).Kept) :
    (log.putSlice now item).position = log.position.place log.fileSize item.length ↔
      (log.fileSize < size ↔ log.fileSize < log.position.offset) := by
  obtain ⟨next, -, number⟩ := tracks.putSlice now nonempty
  have numberEq := tracks.proNum_eq
  rw [ext_iff, position_filenum, position_offset, number,
    next.proOffset_eq, numberAfter, sizeAfter, place_filenum]
  rw [BinlogOffset.Kept, place_offset] at kept
  rw [place_offset]
  by_cases full : log.fileSize < size <;> by_cases published : log.fileSize < log.position.offset
  · rw [writeFrom_of_lt published] at numberFits kept ⊢
    rw [nextFile_filenum, position_filenum] at numberFits
    rw [nextFile_offset] at kept
    have wide : castUInt32 ((log.proNum : Int) + 1) = log.version.proNum + 1 := by
      rw [← numberEq, castUInt32_succ numberFits]
    simp only [full, published, wide, kept, if_true,
      nextFile_filenum, nextFile_offset, position_filenum, and_self]
  · have wide := castUInt32_succ_ne log.proNum
    rw [writeFrom_of_not_lt published]
    simp only [full, published, if_true, position_filenum, numberEq, wide,
      false_and, iff_false, not_true_eq_false]
  · rw [writeFrom_of_lt published]
    simpa [full, numberEq] using published
  · rw [writeFrom_of_not_lt published, position_offset]
      at kept
    rw [writeFrom_of_not_lt published]
    have sameLow := (castInt32_eq_iff _ _).mp tracks.low
    have sameEnd : castInt32 (recordEnd size item.length) =
        castInt32 (recordEnd log.version.proOffset item.length) := by
      have ends := recordEnd_mod_eq
        (show size % 2 ^ 32 = log.version.proOffset % 2 ^ 32 by omega)
        item.length
      rw [castInt32_eq_iff]
      omega
    rw [position_offset] at published ⊢
    simp only [full, published, if_false, position_filenum, numberEq, sameEnd, kept, and_self]

/-! ## Steps of both logs -/

variable {records : List Record}

theorem inStep_nil :
    InStep start records master follower [] ↔ ∀ earlier later, records = earlier ++ later →
        ∃ reader, Reader.seek follower
              (Chain.positionAfter start earlier).filenum
              (Chain.positionAfter start earlier).offset = some reader ∧
          Drains follower reader later := by
  simp [InStep, putAll]

/-- The first pair of calls leaves both logs at one position, and they go on
from there in step. -/
theorem inStep_cons (masterPut : master.put call.now call.item = some (.ok, masterNext))
    (followerPut : follower.put copy.now copy.item = some (.ok, followerNext)) :
    InStep start records master follower ((call, copy) :: pairs) ↔
      followerNext.position = masterNext.position ∧
        InStep start
          (records ++ [{ item := copy.item, position := followerNext.position }])
          masterNext followerNext pairs := by
  simp only [InStep, map_cons, putAll, masterPut, followerPut]
  constructor
  · rintro ⟨_, _, _, _, masterEq, followerEq, same, reads⟩
    obtain ⟨⟨masterEnd, masterRecords⟩, masterAll, ⟨⟩⟩ := Option.map_eq_some_iff.mp masterEq
    obtain ⟨⟨followerEnd, followerRecords⟩, followerAll, ⟨⟩⟩ := Option.map_eq_some_iff.mp followerEq
    rw [map_cons, map_cons, List.cons.injEq] at same
    refine ⟨same.1, masterEnd, followerEnd, masterRecords, followerRecords,
      masterAll, followerAll, same.2, ?_⟩
    simpa using reads
  · rintro ⟨samePosition, masterEnd, followerEnd, masterRecords,
      followerRecords, masterAll, followerAll, same, reads⟩
    refine ⟨masterEnd, followerEnd, _, _, by rw [masterAll]; rfl, by rw [followerAll]; rfl, ?_, ?_⟩
    · simp only [map_cons, samePosition, same]
    · simpa using reads

/-- The lengths of the items the master puts. -/
def lengths (pairs : List (PutCall × PutCall)) : List Nat :=
  pairs.map fun pair => pair.1.item.length

/-- From a master written by `Put`s and a follower's journal at one position,
the logs stay in step exactly when they agree. -/
theorem inStep_iff_agree (tracks : master.Tracks size) (journal : follower.Journal start records)
    (sameFileSize : follower.fileSize = master.fileSize)
    (samePosition : follower.position = master.position)
    (bounded : ∀ pair ∈ pairs, pair.1.item.length < 2 ^ 31)
    (nonempty : ∀ pair ∈ pairs, pair.1.item ≠ []) (sameLengths : ∀ pair ∈ pairs,
      pair.2.item.length = pair.1.item.length)
    (numbersFit : ∀ place ∈ places master.fileSize master.position
      (lengths pairs), place.filenum < 2 ^ 32) :
    (∀ count, InStep start records master follower (pairs.take count)) ↔
      Agree master.fileSize size master.position (lengths pairs) := by
  induction pairs generalizing master follower size records with
  | nil =>
    simp only [take_nil, forall_const, inStep_nil, lengths, map_nil, Agree, iff_true]
    intro earlier later split
    rw [split] at journal
    exact journal.seek_drains
  | cons pair pairs ih =>
    obtain ⟨call, copy⟩ := pair
    simp only [lengths, map_cons, places, forall_mem_cons]
      at bounded nonempty sameLengths numbersFit
    obtain ⟨callBounded, laterBounded⟩ := bounded
    obtain ⟨callNonempty, laterNonempty⟩ := nonempty
    obtain ⟨copyLength, laterLengths⟩ := sameLengths
    obtain ⟨numberFits, laterFit⟩ := numbersFit
    rw [place_filenum] at numberFits
    have copyNonempty : copy.item ≠ [] := by
      rw [← length_pos_iff, copyLength, length_pos_iff]
      exact callNonempty
    have masterPut := put_of_opened tracks.opened call.now callBounded
    have followerPut := put_of_opened journal.aligned.opened copy.now
      (copyLength.symm ▸ callBounded)
    obtain ⟨nextTracks, nextSize, -⟩ := tracks.putSlice call.now callNonempty
    have copySize := putSlice_fileSize journal.aligned copy.now copy.item
    have placeEq : follower.position.place follower.fileSize
        copy.item.length = master.position.place master.fileSize call.item.length := by
      rw [samePosition, sameFileSize, copyLength]
    have followerFits : (follower.position.writeFrom follower.fileSize).filenum < 2 ^ 32 := by
      rwa [samePosition, sameFileSize]
    -- What the rest needs once the follower's end is the place of the
    -- layout and the master's published one.
    have rest : (master.position.place master.fileSize call.item.length).Kept →
        (master.putSlice call.now call.item).position =
          master.position.place master.fileSize call.item.length →
        ((∀ count, InStep start
            (records ++
              [{ item := copy.item, position := (follower.putSlice copy.now copy.item).position }])
            (master.putSlice call.now call.item)
            (follower.putSlice copy.now copy.item) (pairs.take count)) ↔ Agree master.fileSize
            (sizeAfter master.fileSize size call.item.length)
            (master.position.place master.fileSize call.item.length)
            (lengths pairs)) := by
      intro kept masterPosition
      have followerKept := placeEq.symm ▸ kept
      have copyPosition :=
        (journal.aligned.putSlice copy.now copy.item followerFits followerKept).2
      have nextJournal := journal.putSlice copy.now copyNonempty followerFits followerKept
      rw [← copyPosition] at nextJournal
      have later := ih nextTracks nextJournal
        (by rw [copySize, nextSize, sameFileSize])
        (by rw [copyPosition, placeEq, masterPosition]) laterBounded laterNonempty laterLengths
        (by rwa [nextSize, masterPosition])
      rwa [nextSize, masterPosition] at later
    constructor
    · intro inStep
      have every := fun count => (inStep_cons masterPut followerPut).mp (inStep (count + 1))
      obtain ⟨followed, first⟩ := every 0
      rw [take_zero, inStep_nil] at first
      obtain ⟨reader, sought, drains⟩ := first [] _ rfl
      obtain ⟨copyPosition, kept⟩ := journal.position_eq_of_drains copy.now
        copyNonempty followerFits sought drains
      rw [placeEq] at copyPosition kept
      have masterPosition := followed.symm.trans copyPosition
      exact ⟨(tracks.position_putSlice call.now callNonempty numberFits
          kept).mp masterPosition, kept, (rest kept masterPosition).mp fun count => (every count).2⟩
    · rintro ⟨sameRoll, kept, agree⟩ count
      have masterPosition := (tracks.position_putSlice call.now callNonempty
        numberFits kept).mpr sameRoll
      have copyPosition := (journal.aligned.putSlice copy.now copy.item
        followerFits (placeEq.symm ▸ kept)).2
      cases count with
      | zero =>
        rw [take_zero, inStep_nil]
        intro earlier later split
        rw [split] at journal
        exact journal.seek_drains
      | succ count =>
        refine (inStep_cons masterPut followerPut).mpr ⟨?_,
          (rest kept masterPosition).mpr agree count⟩
        rw [copyPosition, placeEq, masterPosition]

/-! ## Whole runs -/

theorem eq_putSlice_of_put (put : log.put now item = some (.ok, next)) :
    item.length < 2 ^ 31 ∧ next = log.putSlice now item := by
  unfold Binlog.put at put
  split_ifs at put with closed bounded
  · simp at put
  · simp only [Option.some.injEq, Prod.mk.injEq, true_and] at put
    exact ⟨bounded, put.symm⟩

theorem length_lt_of_putAll (put : log.putAll calls = some (next, records)) :
    ∀ call ∈ calls, call.item.length < 2 ^ 31 := by
  induction calls generalizing log records with
  | nil => simp
  | cons call calls ih =>
    rw [putAll] at put
    split at put
    · rename_i after first
      obtain ⟨⟨_, later⟩, rest, ⟨⟩⟩ := Option.map_eq_some_iff.mp put
      exact forall_mem_cons.mpr
        ⟨(eq_putSlice_of_put first).1, ih rest⟩
    · simp at put

theorem Tracks.putAll (tracks : log.Tracks size) (nonempty : ∀ call ∈ calls, call.item ≠ [])
    (put : log.putAll calls = some (next, records)) :
    next.Tracks (next.files.contents next.proNum).length ∧ next.fileSize = log.fileSize := by
  induction calls generalizing log size records with
  | nil =>
    cases put
    rw [tracks.size_eq]
    exact ⟨tracks, rfl⟩
  | cons call calls ih =>
    obtain ⟨callNonempty, laterNonempty⟩ := forall_mem_cons.mp nonempty
    rw [Binlog.putAll] at put
    split at put
    · rename_i after first
      obtain ⟨⟨_, later⟩, rest, ⟨⟩⟩ := Option.map_eq_some_iff.mp put
      obtain ⟨-, rfl⟩ := eq_putSlice_of_put first
      obtain ⟨nextTracks, nextSize, -⟩ := tracks.putSlice call.now callNonempty
      obtain ⟨endTracks, endSize⟩ := ih nextTracks laterNonempty rest
      exact ⟨endTracks, endSize.trans nextSize⟩
    · simp at put

/-- From a published offset that is the size of the file, positions that fit
agree. -/
theorem agree_of_forall_fits {fileSize : Nat} {position : BinlogOffset}
    {lengths : List Nat} (sizeEq : size = position.offset)
    (fit : ∀ place ∈ places fileSize position lengths, place.Fits) :
    Agree fileSize size position lengths := by
  induction lengths generalizing size position with
  | nil => trivial
  | cons length lengths ih =>
    rw [places, forall_mem_cons] at fit
    refine ⟨by rw [sizeEq], fit.1.kept, ih ?_ fit.2⟩
    rw [sizeAfter, place_offset, BinlogOffset.writeFrom, sizeEq]
    split_ifs <;> rfl

/-- A follower that restarts at the position of a log written by `Put`s. -/
theorem Tracks.inLockstep_iff (tracks : master.Tracks size)
    (now term index : Nat) (opened : follower.opened = true)
    (sameFileSize : follower.fileSize = master.fileSize)
    (bounded : ∀ pair ∈ pairs, pair.1.item.length < 2 ^ 31)
    (nonempty : ∀ pair ∈ pairs, pair.1.item ≠ [])
    (sameLengths : ∀ pair ∈ pairs, pair.2.item.length = pair.1.item.length)
    (numbersFit : ∀ place ∈ places master.fileSize master.position
      (lengths pairs), place.filenum < 2 ^ 32) :
    InLockstep master follower now term index pairs ↔
      Agree master.fileSize size master.position (lengths pairs) := by
  obtain ⟨restarted, restart, restartedSize, restartedPosition, journal⟩ :=
    journal_setProducerStatus opened now term index tracks.paddable_position
  have inStep := inStep_iff_agree tracks journal
    (restartedSize.trans sameFileSize) restartedPosition bounded nonempty
    sameLengths numbersFit
  rw [← inStep, InLockstep, restart]
  constructor
  · rintro ⟨_, ⟨⟩, -, every⟩
    exact every
  · intro every
    exact ⟨restarted, rfl, restartedPosition, every⟩

/-- A follower that restarts at the position after any of a master's `Put`s
stays in lockstep with it exactly when the two agree on what follows. -/
theorem inLockstep_iff_agree (fileSize term now followerTerm index : Nat)
    (earlier : List PutCall) (pairs : List (PutCall × PutCall))
    {master final follower : Binlog} {records laterRecords : List Record}
    (produced : (fresh fileSize term).putAll earlier = some (master, records))
    (continued : master.putAll (pairs.map Prod.fst) = some (final, laterRecords))
    (earlierNonempty : ∀ call ∈ earlier, call.item ≠ [])
    (nonempty : ∀ pair ∈ pairs, pair.1.item ≠ [])
    (sameLengths : ∀ pair ∈ pairs, pair.2.item.length = pair.1.item.length)
    (opened : follower.opened = true) (sameFileSize : follower.fileSize = fileSize)
    (numbersFit : ∀ place ∈ places fileSize master.position (lengths pairs),
      place.filenum < 2 ^ 32) :
    InLockstep master follower now followerTerm index pairs ↔
      Agree fileSize (master.files.contents master.proNum).length
        master.position (lengths pairs) := by
  obtain ⟨tracks, sizeEq⟩ := (tracks_fresh fileSize term).putAll earlierNonempty produced
  have masterSize : master.fileSize = fileSize := sizeEq
  subst masterSize
  refine tracks.inLockstep_iff now followerTerm index opened sameFileSize ?_
    nonempty sameLengths numbersFit
  intro pair member
  exact length_lt_of_putAll continued pair.1 (mem_map_of_mem member)

/-- `Put` of one byte leaves a master at offset nine. -/
theorem exists_master_one_byte (fileSize : Nat) :
    ∃ master : Binlog, (fresh fileSize 0).putAll [{ item := [1], now := fun _ => 0 }] =
          some (master, [{ item := [1], position := { filenum := 0, offset := 9 } }]) ∧
        master.fileSize = fileSize ∧
        master.Aligned ∧
        master.position = { filenum := 0, offset := 9 } := by
  have place : ({ filenum := 0, offset := 0 } : BinlogOffset).place fileSize
      1 = { filenum := 0, offset := 9 } := by
    rw [BinlogOffset.place, writeFrom_of_not_lt (Nat.not_lt_zero _)]
    decide +kernel
  have fits : AllFit fileSize { filenum := 0, offset := 0 }
      [{ item := [1], now := fun _ => 0 }] := by
    simp [AllFit, places, place, BinlogOffset.Fits]
  obtain ⟨master, putEq, sizeEq, journal⟩ := (journal_fresh fileSize 0).putAll (by simp) fits
  have recordsEq : idealRecords fileSize { filenum := 0, offset := 0 }
      [{ item := [1], now := fun _ => 0 }] =
      [{ item := [1], position := { filenum := 0, offset := 9 } }] := by
    simp [idealRecords, place]
  have stop := journal.chain.positionAfter_eq_stop
  change (fresh fileSize 0).putAll _ = some (master, idealRecords fileSize
    { filenum := 0, offset := 0 } _) at putEq
  change Chain.positionAfter _ ([] ++ idealRecords fileSize
    { filenum := 0, offset := 0 } _) = _ at stop
  rw [recordsEq] at putEq stop
  exact ⟨master, putEq, sizeEq, journal.aligned, stop.symm⟩

theorem Aligned.tracks (aligned : log.Aligned) (kept : log.position.Kept)
    (paddable : Paddable log.version.proOffset) :
    log.Tracks log.version.proOffset where
  __ := aligned
  proOffset_eq := kept.symm
  paddable := paddable

/-- One byte before the takeover; then two bytes in a new file on both
sides. -/
theorem inLockstep_after_roll :
    ∃ master records,
      (fresh 4 0).putAll [{ item := [1], now := fun _ => 0 }] = some (master, records) ∧
        InLockstep master (fresh 4 0) 7 0 0
          [({ item := [2, 3], now := fun _ => 0 }, { item := [4, 5], now := fun _ => 8 })] := by
  obtain ⟨master, putEq, -, aligned, atNine⟩ := exists_master_one_byte 4
  have putNext := put_of_opened aligned.opened (fun _ => 0)
    (show ([2, 3] : Bytes).length < 2 ^ 31 by decide)
  have continued : master.putAll [{ item := [2, 3], now := fun _ => 0 }] =
      some (master.putSlice (fun _ => 0) [2, 3],
        [{ item := [2, 3], position := (master.putSlice (fun _ => 0) [2, 3]).position }]) := by
    simp [putAll, putNext]
  have fit : ∀ place ∈ places 4 { filenum := 0, offset := 9 } [2], place.Fits := by decide +kernel
  refine ⟨master, _, putEq, ?_⟩
  refine (inLockstep_iff_agree 4 0 7 0 0 _
    [({ item := [2, 3], now := fun _ => 0 },
      { item := [4, 5], now := fun _ => 8 })] putEq continued (by simp)
    (by simp) (by simp) rfl rfl ?_).mpr ?_
  · rw [atNine]
    exact fun place member => (fit place member).1
  · rw [aligned.size_eq, ← position_offset, atNine]
    exact agree_of_forall_fits rfl fit

/-- An end beyond the offsets an `int` holds is not kept. -/
theorem not_agree_of_length {fileSize length : Nat} {position : BinlogOffset}
    {lengths : List Nat} (positionFits : position.offset < 2 ^ 31)
    (large : 2 ^ 31 ≤ length + 1) (bounded : length < 2 ^ 31) :
    ¬Agree fileSize size position (length :: lengths) := by
  rintro ⟨-, kept, -⟩
  rw [BinlogOffset.Kept, place_offset] at kept
  have fromSmall : (position.writeFrom fileSize).offset < 2 ^ 31 := by
    unfold BinlogOffset.writeFrom
    split_ifs
    · exact Nat.two_pow_pos 31
    · exact positionFits
  have endSmall := recordEnd_le (position.writeFrom fileSize).offset length
  have grows := add_length_lt_recordEnd (position.writeFrom fileSize).offset length
  have endFits := (castUInt64_castInt32_eq_iff (by omega)).mp kept
  omega

/-- After one byte, an item of the largest size an `int` holds breaks the
lockstep. -/
theorem not_inLockstep_of_length (fileSize : Nat) {item : Bytes}
    (large : 2 ^ 31 ≤ item.length + 1) (bounded : item.length < 2 ^ 31) :
    ∃ master records,
      (fresh fileSize 0).putAll [{ item := [1], now := fun _ => 0 }] = some (master, records) ∧
        ¬InLockstep master (fresh fileSize 0) 7 0 0
          [({ item := item, now := fun _ => 0 }, { item := item, now := fun _ => 0 })] := by
  obtain ⟨master, putEq, sizeEq, aligned, atNine⟩ := exists_master_one_byte fileSize
  have offsetEq : master.version.proOffset = 9 := congrArg BinlogOffset.offset atNine
  have tracks := aligned.tracks (by rw [atNine]; decide +kernel)
    (by rw [offsetEq]; exact .inr (by decide))
  have nonempty : item ≠ [] := by
    rintro rfl
    simp at large
  have number : (({ filenum := 0, offset := 9 } : BinlogOffset).writeFrom
      fileSize).filenum < 2 ^ 32 := by
    unfold BinlogOffset.writeFrom
    split_ifs <;> decide
  refine ⟨master, _, putEq, ?_⟩
  rw [tracks.inLockstep_iff 7 0 0 rfl sizeEq.symm (by simpa using bounded)
    (by simpa using nonempty) (by simp)
    (by simpa [lengths, places, sizeEq, atNine] using number)]
  exact not_agree_of_length (by rw [atNine]; decide) large bounded

/-- A follower that takes over after one byte and puts an item of
`2 ^ 31 - 1` bytes is not in lockstep. -/
theorem not_inLockstep_largest_item :
    ∃ master records,
      (fresh 104857600 0).putAll [{ item := [1], now := fun _ => 0 }] = some (master, records) ∧
        ¬InLockstep master (fresh 104857600 0) 7 0 0
          [({ item := List.replicate (2 ^ 31 - 1) 0, now := fun _ => 0 },
            { item := List.replicate (2 ^ 31 - 1) 0, now := fun _ => 0 })] :=
  not_inLockstep_of_length 104857600
    (by rw [length_replicate]; decide)
    (by rw [length_replicate]; decide)

end Pika.Binlog
