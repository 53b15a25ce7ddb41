import Pika.Binlog.TailingWriter

/-!
# Where a following reader can stand

Between its steps a reader stands before completed records, inside one of them,
or at the end of a file that is closed.  Each step keeps this against the files
and the producer status a running `Put` shows, and `Get` returns only the next
completed record.
-/

namespace Pika.Binlog

open Foundation List

/-- The completed records that follow a position: a chain up to the end, or
nothing from the start of a file a roll has published. -/
def Ahead (files : Files) (stop : BinlogOffset) (rolled : Bool)
    (position : BinlogOffset) (rest : List Record) : Prop :=
  Chain files position rest stop ∨ rest = [] ∧ rolled = true ∧ position = stop.nextFile

/-- The end of a file that is closed, with records to follow in the next
one. -/
structure ClosedAt (files : Files) (stop : BinlogOffset) (rolled : Bool)
    (position : BinlogOffset) (rest : List Record) : Prop where
  atEnd : (files.contents position.filenum).length = position.offset
  closed : position.filenum < stop.filenum ∨ position.filenum = stop.filenum ∧ rolled = true
  bounded : position.filenum + 1 < 2 ^ 32
  nextExists : files.fileExists (position.filenum + 1) = true
  ahead : Ahead files stop rolled position.nextFile rest

/-- The part of an item that is still to be read. -/
structure Cut where
  /-- The clock of each remaining fragment. -/
  now : Nat → Nat
  /-- Where the remaining fragments start. -/
  offset : Nat
  /-- Whether nothing of the item has been read. -/
  isBegin : Bool
  left : Bytes

/-- The bytes of the remaining fragments. -/
def Cut.bytes (cut : Cut) : Bytes :=
  (fragments cut.now cut.offset cut.isBegin cut.left).flatMap Fragment.bytes

/-- The next fragment of a cut. -/
def Cut.fragment (cut : Cut) : Fragment :=
  nextFragment (cut.now 0) cut.offset cut.isBegin cut.left

/-- The cut behind the next fragment of an item that goes on. -/
def Cut.next (cut : Cut) : Cut where
  now iteration := cut.now (iteration + 1)
  offset := cut.offset + (padAt cut.offset + (kHeaderSize + roomAt cut.offset))
  isBegin := false
  left := cut.left.drop (roomAt cut.offset)

/-- A reader inside a completed record: what it has assembled and what is left
make up the item, and the rest of its fragments come next in the file. -/
structure Inside (files : Files) (stop : BinlogOffset) (record : Record)
    (later : List Record) (output : Output) (cut : Cut) : Prop where
  nonempty : cut.left ≠ []
  cleared : cut.isBegin = true → output.scratch = []
  assembled : output.scratch ++ cut.left = record.item
  split : ∃ more, (files.contents record.position.filenum).drop cut.offset = cut.bytes ++ more
  endEq : recordEnd cut.offset cut.left.length = record.position.offset
  chain : Chain files record.position later stop

/-- Where a session can stand while the records `rest` are ahead of it. -/
inductive Following (files : Files) (stop : BinlogOffset) (rolled : Bool) :
    List Record → Session → Prop where
  | unset (unset : reader.queue = none) :
      Following files stop rolled rest
        { phase := .idle, output := output, reader := reader }
  | idle {reader : Reader} {position : BinlogOffset}
      (standing : reader.At position.filenum position.offset)
      (ahead : Ahead files stop rolled position rest) :
      Following files stop rolled rest
        { phase := .idle, output := output, reader := reader }
  | check {reader : Reader} {position : BinlogOffset} {output : Output}
      (standing : reader.At position.filenum position.offset)
      (ahead : Ahead files stop rolled position rest)
      (cleared : output.scratch = []) :
      Following files stop rolled rest
        { phase := .check, output := output, reader := reader }
  | skipInside {reader : Reader} {cut : Cut}
      (standing : reader.At record.position.filenum cut.offset)
      (inside : Inside files stop record later output cut) :
      Following files stop rolled (record :: later)
        { phase := .skip, output := output, reader := reader }
  | skipClosed {reader : Reader} {position : BinlogOffset} {output : Output}
      (standing : reader.At position.filenum position.offset)
      (closed : ClosedAt files stop rolled position rest)
      (cleared : output.scratch = []) :
      Following files stop rolled rest
        { phase := .skip, output := output, reader := reader }
  | headerInside {cut : Cut} (room : 0 < roomAt cut.offset)
      (inside : Inside files stop record later output cut) :
      Following files stop rolled (record :: later)
        { phase := .header
          output := output
          reader := Reader.positioned record.position.filenum (cut.offset + padAt cut.offset) }
  | headerClosed {reader : Reader} {position : BinlogOffset} {output : Output}
      (sameFile : reader.curFilenum = position.filenum)
      (sameQueue : reader.queue = some { number := position.filenum, position := position.offset })
      (closed : ClosedAt files stop rolled position rest)
      (cleared : output.scratch = []) :
      Following files stop rolled rest
        { phase := .header, output := output, reader := reader }
  | payload {cut : Cut} (room : 0 < roomAt cut.offset)
      (inside : Inside files stop record later output cut) :
      Following files stop rolled (record :: later)
        { phase := .payload cut.fragment.type.code cut.fragment.payload.length
          output := output
          reader := Reader.headed record.position.filenum (cut.offset + padAt cut.offset) }
  | probe {reader : Reader} {position : BinlogOffset} {output : Output}
      (sameFile : reader.curFilenum = position.filenum)
      (closed : ClosedAt files stop rolled position rest)
      (cleared : output.scratch = []) :
      Following files stop rolled rest
        { phase := .probe, output := output, reader := reader }
  | openNext {reader : Reader} {position : BinlogOffset} {output : Output}
      (sameFile : reader.curFilenum = position.filenum)
      (closed : ClosedAt files stop rolled position rest)
      (cleared : output.scratch = []) :
      Following files stop rolled rest
        { phase := .openNext, output := output, reader := reader }

variable {files evolved : Files} {stop position : BinlogOffset}
variable {rolled later : Bool} {rest : List Record}

/-! ## While a Put runs -/

theorem Ahead.evolve (ahead : Ahead files stop rolled position rest)
    (evolves : files.Evolves evolved stop rolled) (kept : rolled = true → later = true) :
    Ahead evolved stop later position rest := by
  rcases ahead with chain | ⟨nothing, published, behind⟩
  · exact .inl (chain.mono evolves.toGrows)
  · exact .inr ⟨nothing, kept published, behind⟩

theorem ClosedAt.evolve (closedAt : ClosedAt files stop rolled position rest)
    (evolves : files.Evolves evolved stop rolled) (kept : rolled = true → later = true) :
    ClosedAt evolved stop later position rest where
  atEnd := by rw [evolves.closed _ closedAt.closed, closedAt.atEnd]
  closed := closedAt.closed.imp_right fun last => ⟨last.1, kept last.2⟩
  bounded := closedAt.bounded
  nextExists := evolves.fileExists _ closedAt.nextExists
  ahead := closedAt.ahead.evolve evolves kept

theorem Inside.evolve (inside : Inside files stop record others output cut)
    (evolves : files.Evolves evolved stop rolled) :
    Inside evolved stop record others output cut := by
  obtain ⟨nonempty, cleared, assembled, ⟨more, split⟩, endEq, chain⟩ := inside
  refine ⟨nonempty, cleared, assembled, ?_, endEq, chain.mono evolves.toGrows⟩
  obtain ⟨added, contentsEq⟩ := evolves.grows _ chain.filenum_le
  rw [contentsEq, drop_append, split, append_assoc]
  exact ⟨_, rfl⟩

/-- A session keeps its place when what it relies on is kept, with more records
behind those ahead of it. -/
theorem Following.move {others : Files} {ended : BinlogOffset}
    (following : Following files stop rolled rest session) (more : List Record)
    (ahead : ∀ {position rest}, Ahead files stop rolled position rest →
      Ahead others ended later position (rest ++ more))
    (closed : ∀ {position rest}, ClosedAt files stop rolled position rest →
      ClosedAt others ended later position (rest ++ more))
    (inside : ∀ {record rest output cut}, Inside files stop record rest output cut →
      Inside others ended record (rest ++ more) output cut) :
    Following others ended later (rest ++ more) session := by
  cases following with
  | unset unset => exact .unset unset
  | idle standing here => exact .idle standing (ahead here)
  | check standing here cleared => exact .check standing (ahead here) cleared
  | skipInside standing here => exact .skipInside standing (inside here)
  | skipClosed standing here cleared => exact .skipClosed standing (closed here) cleared
  | headerInside room here => exact .headerInside room (inside here)
  | headerClosed sameFile sameQueue here cleared =>
    exact .headerClosed sameFile sameQueue (closed here) cleared
  | payload room here => exact .payload room (inside here)
  | probe sameFile here cleared => exact .probe sameFile (closed here) cleared
  | openNext sameFile here cleared => exact .openNext sameFile (closed here) cleared

/-- A reader keeps its place while a `Put` runs. -/
theorem Following.evolve (following : Following files stop rolled rest session)
    (evolves : files.Evolves evolved stop rolled) (kept : rolled = true → later = true) :
    Following evolved stop later rest session := by
  simpa using following.move [] (fun ahead => by simpa using ahead.evolve evolves kept)
    (fun closed => by simpa using closed.evolve evolves kept)
    (fun inside => by simpa using inside.evolve evolves)

/-! ## When a Put completes -/

/-- The record a `Put` completes: it follows the earlier ones, and from a
published roll on it follows the start of the next file. -/
structure Completes (files : Files) (stop : BinlogOffset) (rolled : Bool)
    (record : Record) (next : BinlogOffset) : Prop where
  chain : Chain files stop [record] next
  behind : rolled = true → Chain files stop.nextFile [record] next

section

variable (completes : Completes files stop rolled record ended)
include completes

theorem Ahead.complete (ahead : Ahead files stop rolled position rest) :
    Ahead files ended false position (rest ++ [record]) := by
  rcases ahead with chain | ⟨rfl, published, rfl⟩
  · exact .inl (chain.append completes.chain)
  · exact .inl (completes.behind published)

theorem ClosedAt.complete (closedAt : ClosedAt files stop rolled position rest) :
    ClosedAt files ended false position (rest ++ [record]) where
  __ := closedAt
  closed := by
    apply Or.inl
    rcases closedAt.closed with earlier | ⟨last, published⟩
    · exact earlier.trans_le completes.chain.filenum_le
    · have later := (completes.behind published).filenum_le
      rw [BinlogOffset.nextFile_filenum] at later
      omega
  ahead := closedAt.ahead.complete completes

theorem Inside.complete (inside : Inside files stop current others output cut) :
    Inside files ended current (others ++ [record]) output cut :=
  { inside with chain := inside.chain.append completes.chain }

/-- A reader keeps its place when a `Put` completes, with one record more
ahead. -/
theorem Following.complete (following : Following files stop rolled rest session) :
    Following files ended false (rest ++ [record]) session :=
  following.move [record] (·.complete completes) (·.complete completes) (·.complete completes)

end

/-! ## Inside a record -/

theorem Cut.bytes_of_le {cut : Cut} (fits : cut.left.length ≤ roomAt cut.offset) :
    cut.bytes = cut.fragment.bytes := by
  rw [bytes, fragments, dif_neg (Nat.not_lt.mpr fits), flatMap_singleton]
  rfl

theorem Cut.bytes_of_lt {cut : Cut} (longer : roomAt cut.offset < cut.left.length) :
    cut.bytes = cut.fragment.bytes ++ cut.next.bytes := by
  rw [bytes, fragments, dif_pos longer, flatMap_cons]
  rfl

theorem Cut.fragment_type_ne_zero (cut : Cut) : cut.fragment.type ≠ .zero := by
  unfold fragment nextFragment RecordType.ofPlace
  split_ifs <;> simp

theorem Cut.length_payload_le (cut : Cut) :
    cut.fragment.payload.length ≤ kBlockSize - kHeaderSize :=
  (length_take_le _ _).trans (roomAt_le cut.offset)

namespace Inside

section

variable (inside : Inside files stop record others output cut)
include inside

/-- The next fragment comes next in the file. -/
theorem fragment_split :
    ∃ more, (files.contents record.position.filenum).drop cut.offset =
      cut.fragment.bytes ++ more := by
  obtain ⟨more, split⟩ := inside.split
  rcases Nat.lt_or_ge (roomAt cut.offset) cut.left.length with longer | fits
  · rw [Cut.bytes_of_lt longer, append_assoc] at split
    exact ⟨_, split⟩
  · rw [Cut.bytes_of_le fits] at split
    exact ⟨_, split⟩

/-- Behind the padding come the header and the payload of the next
fragment. -/
theorem header_split :
    ∃ more, (files.contents record.position.filenum).drop (cut.offset + padAt cut.offset) =
      header cut.fragment.type cut.fragment.payload.length cut.fragment.now ++
        (cut.fragment.payload ++ more) := by
  obtain ⟨more, split⟩ := inside.fragment_split
  rw [Fragment.bytes, append_assoc] at split
  replace split := Reader.drop_add_of_drop_eq split
  rw [length_replicate, append_assoc] at split
  exact ⟨more, split⟩

/-- The file reaches beyond the block tail before the next payload. -/
theorem skipAt_le :
    cut.offset + skipAt cut.offset ≤ (files.contents record.position.filenum).length := by
  obtain ⟨more, split⟩ := inside.fragment_split
  have lengths := congrArg List.length split
  simp only [length_drop, length_append, Fragment.length_bytes,
    Fragment.size, Cut.fragment, nextFragment, kHeaderSize] at lengths
  have place := padAt_roomAt_cases cut.offset
  have skipped := skipAt_cases cut.offset
  omega

theorem next (longer : roomAt cut.offset < cut.left.length) (filenum offset : Nat) :
    Inside files stop record others
      { scratch := output.scratch ++ cut.left.take (roomAt cut.offset)
        filenum := filenum
        offset := offset }
      cut.next := by
  obtain ⟨_, _, assembled, ⟨more, split⟩, endEq, chain⟩ := inside
  refine ⟨?_, by simp [Cut.next], ?_, ⟨more, ?_⟩, ?_, chain⟩
  · simpa [Cut.next] using longer
  · rw [Cut.next, append_assoc, take_append_drop, assembled]
  · have size : cut.fragment.size = padAt cut.offset + (kHeaderSize + roomAt cut.offset) := by
      simp [Fragment.size, Cut.fragment, nextFragment, longer.le]
    rw [Cut.bytes_of_lt longer, append_assoc] at split
    have behind := Reader.drop_add_of_drop_eq split
    rwa [Fragment.length_bytes, size] at behind
  · rw [Cut.next, length_drop, ← recordEnd_of_lt longer, endEq]

end

end Inside

/-! ## The reader's steps -/

/-- A reader step returns nothing or the records that come next, and leaves
the reader before the others. -/
def Advances (files : Files) (stop : BinlogOffset) (rolled : Bool)
    (rest : List Record) (result : Session × Option Status) : Prop :=
  ∃ read others, rest = read ++ others ∧
      (∀ returned, Tailing.recordReturn returned result.1 result.2 = returned ++ read) ∧
      Following files stop rolled others result.1

theorem Following.advances (following : Following files stop rolled rest result.1)
    (silent : result.2 ≠ some .ok) :
    Advances files stop rolled rest result := by
  refine ⟨[], rest, rfl, ?_, following⟩
  intro returned
  rw [append_nil]
  unfold Tailing.recordReturn
  split
  · contradiction
  · rfl

section Steps

variable {log : Binlog}
variable {reader : Reader}

/-- A reader that is not at the published position goes on inside the next
record or at the end of a closed file. -/
theorem Ahead.skip (ahead : Ahead log.files stop rolled position rest)
    (visible : Visible log records stop rolled)
    (standing : reader.At position.filenum position.offset)
    (notEnd : reader.readToTheEnd log = false) (cleared : output.scratch = []) :
    Following log.files stop rolled rest
      { phase := .skip, output := output, reader := reader } := by
  have elsewhere : (if rolled then stop.nextFile else stop) ≠ position := by
    simpa [Reader.readToTheEnd, visible.published, standing.curFilenum_eq,
      standing.curOffset_eq] using notEnd
  rcases ahead with chain | ⟨_, published, rfl⟩
  · cases chain with
    | done marked =>
      have published : rolled = true := by
        cases rolled <;> simp_all
      refine .skipClosed standing ?_ cleared
      exact
        { atEnd := visible.closed published
          closed := .inr ⟨rfl, published⟩
          bounded := visible.nextBounded published
          nextExists := visible.nextExists published
          ahead := .inr ⟨rfl, published, rfl⟩ }
    | @item _ _ item more records marked nonempty now split tail =>
      have inside : Inside log.files stop
          { item := item, position := position.afterItem item.length }
          records output
          { now := now, offset := position.offset, isBegin := true, left := item } := by
        refine ⟨nonempty, fun _ => cleared, ?_, ⟨more, ?_⟩, ?_, tail⟩
        · rw [cleared, nil_append]
        · rw [BinlogOffset.afterItem_filenum, split]
          rfl
        · rw [BinlogOffset.afterItem_offset]
      refine .skipInside ?_ inside
      rwa [BinlogOffset.afterItem_filenum]
    | roll marked atEnd bounded tail =>
      refine .skipClosed standing ?_ cleared
      exact
        { atEnd := atEnd
          closed := .inl tail.filenum_le
          bounded := bounded
          nextExists := tail.marked_start.fileExists
          ahead := .inl tail }
  · rw [if_pos published] at elsewhere
    contradiction

/-- The skip before a payload.  In front of a header without payload the reader
skips that header with the block tail. -/
theorem Inside.skip (inside : Inside log.files stop record others output cut)
    (standing : reader.At record.position.filenum cut.offset) :
    Following log.files stop rolled (record :: others)
      { phase := .header, output := output, reader := reader.skipBlockTail log.files } := by
  rw [standing.skipBlockTail_eq inside.skipAt_le]
  rcases Nat.eq_zero_or_pos (roomAt cut.offset) with noRoom | room
  · have longer : roomAt cut.offset < cut.left.length := by
      rw [noRoom]
      exact length_pos_of_ne_nil inside.nonempty
    have blockStart : cut.next.offset % kBlockSize = 0 := blockStart_after_full cut.offset
    have next := inside.next longer output.filenum output.offset
    rw [noRoom, take_zero, append_nil] at next
    have nextRoom : 0 < roomAt cut.next.offset := by
      rw [roomAt_of_blockStart blockStart]
      decide
    have following : Following log.files stop rolled _ _ := .headerInside nextRoom next
    rw [padAt_of_blockStart blockStart, Nat.add_zero] at following
    rwa [skipAt_of_no_room noRoom]
  · rw [skipAt_of_room room]
    exact .headerInside room inside

theorem Inside.readHeader_eq (inside : Inside files stop record others output cut)
    (room : 0 < roomAt cut.offset) :
    (Reader.positioned record.position.filenum (cut.offset + padAt cut.offset)).readHeader files =
      (.payload cut.fragment.type.code cut.fragment.payload.length,
        Reader.headed record.position.filenum (cut.offset + padAt cut.offset)) := by
  obtain ⟨more, split⟩ := inside.header_split
  refine Reader.readHeader_positioned split cut.fragment_type_ne_zero ?_ cut.length_payload_le
  simp [Cut.fragment, nextFragment, inside.nonempty, room.ne']

/-- The payload of the last fragment completes the item; that of another one
leads to the skip before the next. -/
theorem Inside.advances_payload (inside : Inside files stop record others output cut) :
    Advances files stop rolled (record :: others) (Session.settle
        ((Reader.headed record.position.filenum
          (cut.offset + padAt cut.offset)).readPayload files output
            cut.fragment.type.code cut.fragment.payload.length)) := by
  obtain ⟨more, split⟩ := inside.header_split
  replace split := Reader.drop_add_of_drop_eq split
  rw [length_header] at split
  rw [Reader.readPayload_headed split]
  have switched : Reader.switchRecord
      { recordType := cut.fragment.type.code
        fragment := cut.fragment.payload
        output := { output with
          filenum := record.position.filenum
          offset := cut.offset + padAt cut.offset + (kHeaderSize + cut.fragment.payload.length) }
        reader := Reader.afterRecord record.position.filenum
          (cut.offset + padAt cut.offset) cut.fragment.payload.length } = _ :=
    Reader.switchRecord_ofPlace cut.isBegin _ _ inside.cleared
  have standing := Reader.at_afterRecord record.position.filenum
    (show cut.fragment.payload.length ≤ roomAt cut.offset from length_take_le _ _)
  rcases Nat.lt_or_ge (roomAt cut.offset) cut.left.length with longer | fits
  · rw [decide_eq_false (Nat.not_le.mpr longer), if_neg (by decide)] at switched
    have filled : cut.fragment.payload.length = roomAt cut.offset := by
      simp [Cut.fragment, nextFragment, longer.le]
    simp only [Session.settle, switched]
    refine Following.advances (.skipInside ?_ (inside.next longer _ _)) (by simp)
    rw [Cut.next, ← filled]
    exact standing
  · rw [decide_eq_true fits, if_pos rfl] at switched
    have whole : cut.fragment.payload = cut.left := take_of_length_le fits
    simp only [Session.settle, switched, Status.isEndFile, Bool.false_eq_true, if_false]
    rw [whole] at standing ⊢
    rw [← recordEnd_of_le fits, inside.endEq] at standing
    refine ⟨[record], others, rfl, ?_, .idle standing (.inl inside.chain)⟩
    intro returned
    rw [Nat.add_assoc, ← recordEnd_of_le fits, inside.endEq]
    simp [Tailing.recordReturn, inside.assembled]

/-- Behind a closed file the reader opens the next one at its start. -/
theorem ClosedAt.openNext_eq (closedAt : ClosedAt files stop rolled position rest)
    (sameFile : reader.curFilenum = position.filenum) :
    castUInt32 ((reader.curFilenum : Int) + 1) = position.filenum + 1 ∧
      reader.openNext = Reader.positioned position.nextFile.filenum position.nextFile.offset := by
  have bounded := closedAt.bounded
  have number : castUInt32 ((reader.curFilenum : Int) + 1) = position.filenum + 1 := by
    rw [sameFile, castUInt32_succ bounded]
  refine ⟨number, ?_⟩
  simp [Reader.openNext, Reader.positioned, number]

theorem Following.step (following : Following log.files stop rolled rest session)
    (visible : Visible log records stop rolled) :
    Advances log.files stop rolled rest (session.step log) := by
  cases following with
  | unset unset => exact Following.advances (.unset unset) (by simp [Session.step])
  | idle standing ahead =>
    exact Following.advances (.idle standing ahead) (by simp [Session.step])
  | @check _ reader position output standing ahead cleared =>
    simp only [Session.step]
    cases atEnd : reader.readToTheEnd log with
    | true => exact Following.advances (.idle standing ahead) (by simp)
    | false => exact Following.advances (ahead.skip visible standing atEnd cleared) (by simp)
  | skipInside standing inside =>
    exact Following.advances (inside.skip standing) (by simp [Session.step])
  | skipClosed standing closed cleared =>
    obtain ⟨sameFile, sameQueue⟩ := standing.skipBlockTail_at_end closed.atEnd.le
    exact Following.advances (.headerClosed sameFile sameQueue closed cleared)
      (by simp [Session.step])
  | headerInside room inside =>
    simp only [Session.step, inside.readHeader_eq room]
    exact Following.advances (.payload room inside) (by simp)
  | headerClosed sameFile sameQueue closed cleared =>
    -- At the end of a closed file the header reports the end.
    simp only [Session.step, Reader.readHeader_at_end sameQueue closed.atEnd.le]
    exact Following.advances (.probe sameFile closed cleared) (by rintro ⟨⟩)
  | payload room inside => exact inside.advances_payload
  | probe sameFile closed cleared =>
    simp only [Session.step, (closed.openNext_eq sameFile).1, closed.nextExists, if_true]
    exact Following.advances (.openNext sameFile closed cleared) (by simp)
  | openNext sameFile closed cleared =>
    simp only [Session.step, (closed.openNext_eq sameFile).2]
    exact Following.advances (.check (Reader.at_positioned _ _) closed.ahead cleared) (by simp)

end Steps

end Pika.Binlog
