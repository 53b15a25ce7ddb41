import Pika.Binlog.Consume

/-!
# The physical records of arbitrary bytes

Any bytes, from any place in a block on, are a list of physical records up to
the first header that announces none.  `Consume` is a function of that list:
it assembles fragments by their types and stops at the first entry that is
neither a first nor a middle fragment.
-/

namespace Pika.Binlog

open Foundation

/-- What a header and the bytes behind it are to a reader. -/
inductive Entry where
  | fragment (whole : Bool) (type : Nat) (payload : Bytes)
  /-- A header of no type or of no payload. -/
  | blank
  /-- A header whose length exceeds a block. -/
  | oversized
  deriving DecidableEq, Repr

namespace Entry

/-- The entry at the start of some bytes, if they hold a header. -/
def ofBytes (bytes : Bytes) : Option Entry :=
  let length := headerLength (bytes.take kHeaderSize)
  let type := headerType (bytes.take kHeaderSize)
  if bytes.length < kHeaderSize then none
  else if kBlockSize - kHeaderSize < length then some oversized
  else if type = RecordType.zero.code ∨ length = 0 then some blank
  else
    some (fragment (decide (length ≤ (bytes.drop kHeaderSize).length)) type
      ((bytes.drop kHeaderSize).take length))

theorem length_of_ofBytes (found : ofBytes bytes = some entry) : kHeaderSize ≤ bytes.length := by
  by_contra short
  simp [ofBytes, Nat.lt_of_not_le short] at found

theorem payload_of_ofBytes (found : ofBytes bytes = some (fragment whole type payload)) :
    payload = (bytes.drop kHeaderSize).take (headerLength (bytes.take kHeaderSize)) := by
  simp only [ofBytes] at found
  split_ifs at found <;> cases found
  rfl

theorem whole_of_ofBytes (found : ofBytes bytes = some (fragment true type payload)) :
    headerLength (bytes.take kHeaderSize) ≤ (bytes.drop kHeaderSize).length := by
  simp only [ofBytes] at found
  split_ifs at found <;> simp at found ⊢
  exact found.1

end Entry

/-- The place in the block and the bytes behind a tail that a reader skips.
Beyond the end of a block the unsigned difference is large and nothing is
skipped. -/
def pastTail (inBlock : Nat) (bytes : Bytes) : Nat × Bytes :=
  let tail := castUInt64 (kBlockSize - inBlock)
  if tail ≤ kHeaderSize then (0, bytes.drop tail) else (inBlock, bytes)

theorem length_pastTail_le (inBlock : Nat) (bytes : Bytes) :
    (pastTail inBlock bytes).2.length ≤ bytes.length := by
  simp only [pastTail]
  split_ifs
  · exact (List.length_drop ..).trans_le (Nat.sub_le _ _)
  · exact le_rfl

/-- The entries of some bytes that start at a place in a block. -/
def stream (inBlock : Nat) (bytes : Bytes) : List Entry :=
  let place := pastTail inBlock bytes
  let size := kHeaderSize + headerLength (place.2.take kHeaderSize)
  match _found : Entry.ofBytes place.2 with
  | none => []
  | some (.fragment whole type payload) =>
    .fragment whole type payload :: stream (place.1 + size) (place.2.drop size)
  | some other => [other]
termination_by bytes.length
decreasing_by
  have header : kHeaderSize ≤ (pastTail inBlock bytes).2.length := Entry.length_of_ofBytes _found
  have skipped := length_pastTail_le inBlock bytes
  simp only [List.length_drop, kHeaderSize] at header ⊢
  omega

variable {inBlock : Nat} {bytes : Bytes}

theorem stream_of_none (missing : Entry.ofBytes (pastTail inBlock bytes).2 = none) :
    stream inBlock bytes = [] := by
  rw [stream]
  split <;> simp_all

theorem stream_of_fragment (found : Entry.ofBytes (pastTail inBlock bytes).2 =
      some (.fragment whole type payload)) :
    stream inBlock bytes = .fragment whole type payload :: stream
          ((pastTail inBlock bytes).1 + (kHeaderSize +
            headerLength ((pastTail inBlock bytes).2.take kHeaderSize)))
          ((pastTail inBlock bytes).2.drop (kHeaderSize + headerLength
              ((pastTail inBlock bytes).2.take kHeaderSize))) := by
  rw [stream]
  split <;> simp_all

theorem stream_of_mark (found : Entry.ofBytes (pastTail inBlock bytes).2 = some entry)
    (mark : ∀ whole type payload, entry ≠ .fragment whole type payload) :
    stream inBlock bytes = [entry] := by
  rw [stream]
  split <;> grind

/-- `Consume` over entries: the status and the assembled bytes. -/
def assemble : List Entry → Bytes → Status × Bytes
  | [], scratch => (.endFile "Eof", scratch)
  | .blank :: _, scratch => (.endFile "Eof", scratch)
  | .oversized :: _, scratch => (.ioError "Data Corruption", scratch)
  | .fragment _ type payload :: rest, scratch =>
    if type = RecordType.full.code then (.ok, payload)
    else if type = RecordType.first.code then assemble rest payload
    else if type = RecordType.middle.code then assemble rest (scratch ++ payload)
    else if type = RecordType.last.code then (.ok, scratch ++ payload)
    else if type = RecordType.eof.code then (.endFile "Eof", scratch)
    else if type = RecordType.badRecord.code then (.ioError "Data Corruption", scratch)
    else if type = RecordType.oldRecord.code then (.endFile "Eof", scratch)
    else (.ioError "Unknow reason", scratch)

namespace Reader

/-- A reader with its place in the block and the bytes it has not read. -/
structure Facing (files : Files) (reader : Reader) (inBlock : Nat) (bytes : Bytes) : Prop where
  lastRecordOffset_eq : reader.lastRecordOffset = inBlock
  queue_rest : ∃ file, reader.queue = some file ∧ file.rest files = bytes

/-- The entries in front of a reader. -/
def entries (files : Files) (reader : Reader) : List Entry :=
  match reader.queue with
  | none => []
  | some file => stream reader.lastRecordOffset (file.rest files)

variable {files : Files} {reader : Reader}

theorem facing_of_queue (opened : reader.queue = some file) :
    Facing files reader reader.lastRecordOffset (file.rest files) :=
  ⟨rfl, file, opened, rfl⟩

section

variable (facing : Facing files reader inBlock bytes)
include facing

theorem Facing.entries_eq :
    reader.entries files = stream inBlock bytes := by
  obtain ⟨rfl, file, opened, rfl⟩ := facing
  simp [entries, opened]

/-- A read returns the bytes in front of the reader, as far as there are
enough. -/
theorem Facing.read (count : Nat) :
    (reader.read files count).1 = (if bytes.length < count then .endFile "end file" else .ok) ∧
      (reader.read files count).2.1 = bytes.take count ∧
      Facing files (reader.read files count).2.2 inBlock (bytes.drop count) ∧
      (reader.read files count).2.2.curFilenum = reader.curFilenum := by
  obtain ⟨rfl, file, opened, rfl⟩ := facing
  simp only [Reader.read, opened, SequentialFile.read, List.length_take]
  refine ⟨?_, trivial, ⟨rfl, _, rfl, ?_⟩, trivial⟩
  · apply if_congr (by omega) rfl rfl
  · simp [SequentialFile.rest, ← List.drop_drop, List.drop_eq_drop_iff]

theorem Facing.skipBlockTail :
    Facing files (reader.skipBlockTail files)
        (pastTail inBlock bytes).1 (pastTail inBlock bytes).2 ∧
      (reader.skipBlockTail files).curFilenum = reader.curFilenum := by
  obtain ⟨rfl, file, opened, rfl⟩ := facing
  simp only [Reader.skipBlockTail, pastTail]
  split_ifs
  · have skipped : ∀ count, (reader.skip files count).queue = some (file.skip files count) := by
      intro count
      simp only [Reader.skip, opened, Option.map_some]
    refine ⟨⟨rfl, _, skipped _, ?_⟩, rfl⟩
    simp [SequentialFile.skip, SequentialFile.rest, ← List.drop_drop, List.drop_eq_drop_iff]
  · exact ⟨⟨rfl, file, opened, rfl⟩, rfl⟩

/-- The header that an entry announces decides how `ReadPhysicalRecord` goes
on. -/
theorem Facing.readHeader :
    (reader.readHeader files).1 = (match Entry.ofBytes bytes with
          | none => .stop .eof
          | some .oversized => .stop .badRecord
          | some .blank => .stop .oldRecord
          | some (.fragment _ type _) => .payload type (headerLength (bytes.take kHeaderSize))) ∧
      Facing files (reader.readHeader files).2 inBlock (bytes.drop kHeaderSize) ∧
      (reader.readHeader files).2.curFilenum = reader.curFilenum := by
  obtain ⟨statusEq, headerEq, next, sameFile⟩ := facing.read kHeaderSize
  refine ⟨?_, next, sameFile⟩
  simp only [Reader.readHeader, statusEq, headerEq, Entry.ofBytes]
  by_cases short : bytes.length < kHeaderSize
  · simp [short, Status.isEndFile]
  · simp only [short, if_false, Status.isEndFile, Bool.false_eq_true, ne_eq, not_true]
    split_ifs <;> rfl

/-- The payload a header announces, as far as the file holds it. -/
theorem Facing.readPayload (output : Output) (type length : Nat) :
    (reader.readPayload files output type length).recordType = type ∧
      (reader.readPayload files output type length).fragment = bytes.take length ∧
      (reader.readPayload files output type length).output.scratch = output.scratch ∧
      Facing files (reader.readPayload files output type length).reader
        (inBlock + (kHeaderSize + length)) (bytes.drop length) ∧
      (reader.readPayload files output type length).reader.curFilenum = reader.curFilenum := by
  obtain ⟨-, payloadEq, ⟨-, file, opened, restEq⟩, sameFile⟩ := facing.read length
  simp only [Reader.readPayload]
  refine ⟨trivial, payloadEq, ?_, ?_, ?_⟩
  · split_ifs <;> rfl
  · rw [facing.lastRecordOffset_eq]
    split_ifs <;> exact ⟨rfl, file, opened, restEq⟩
  · split_ifs <;> exact sameFile

/-- At a fragment, `ReadPhysicalRecord` returns it and moves behind it. -/
theorem Facing.readPhysicalRecord (found : Entry.ofBytes (pastTail inBlock bytes).2 =
      some (.fragment whole type payload)) (output : Output) :
    ∃ next : Reader, ∃ outcome : Output, reader.readPhysicalRecord files output =
          { recordType := type, fragment := payload, output := outcome, reader := next } ∧
        outcome.scratch = output.scratch ∧
        Facing files next ((pastTail inBlock bytes).1 + (kHeaderSize +
            headerLength ((pastTail inBlock bytes).2.take kHeaderSize)))
          ((pastTail inBlock bytes).2.drop (kHeaderSize +
            headerLength ((pastTail inBlock bytes).2.take kHeaderSize))) ∧
        next.curFilenum = reader.curFilenum := by
  obtain ⟨located, locatedFile⟩ := facing.skipBlockTail
  obtain ⟨announced, headed, headedFile⟩ := located.readHeader
  rcases headerRead : (reader.skipBlockTail files).readHeader files with ⟨action, headedReader⟩
  simp only [headerRead, found] at announced headed headedFile
  subst announced
  obtain ⟨typeEq, fragmentEq, scratchEq, behind, behindFile⟩ :=
    headed.readPayload output type (headerLength ((pastTail inBlock bytes).2.take kHeaderSize))
  rw [← Entry.payload_of_ofBytes found] at fragmentEq
  rw [List.drop_drop] at behind
  refine ⟨_, _, ?_, scratchEq, behind, behindFile.trans (headedFile.trans locatedFile)⟩
  simp only [Reader.readPhysicalRecord, readRecord, headerRead]
  rw [← fragmentEq]
  rfl

end

theorem assemble_of_stop (whole : Bool) (stops : (switchRecord record).1 = some status) :
    assemble (.fragment whole record.recordType record.fragment :: rest) record.output.scratch =
      (status, (switchRecord record).2.scratch) := by
  simp only [switchRecord] at stops ⊢
  simp only [assemble]
  split_ifs at stops ⊢ <;> cases stops <;> rfl

theorem assemble_of_continue (whole : Bool) (continues : (switchRecord record).1 = none) :
    assemble (.fragment whole record.recordType record.fragment :: rest) record.output.scratch =
      assemble rest (switchRecord record).2.scratch := by
  simp only [switchRecord] at continues ⊢
  simp only [assemble]
  split_ifs at continues ⊢ <;> cases continues <;> rfl

/-- A header that stops the read ends `Consume` and changes nothing. -/
theorem consume_of_readHeader_stop (stopped : (reader.skipBlockTail files).readHeader files =
      (.stop type, next)) (switched : switchRecord
      { recordType := type.code
        fragment := []
        output := output
        reader := next } = (some status, output)) :
    reader.consume files output = (status, output, next) := by
  have record : reader.readPhysicalRecord files output =
      { recordType := type.code, fragment := [], output := output, reader := next } := by
    simp only [readPhysicalRecord, readRecord, stopped]
  rw [consume_of_stop (by rw [record, switched]), record, switched]

/-- `Consume` is a function of the entries in front of the reader. -/
theorem Facing.consume (facing : Facing files reader inBlock bytes) (output : Output) :
    ((reader.consume files output).1, (reader.consume files output).2.1.scratch) =
          assemble (stream inBlock bytes) output.scratch ∧
      (reader.consume files output).2.2.curFilenum = reader.curFilenum := by
  -- Induction on the unread bytes: a record that continues consumes some.
  induction remaining : bytes.length using Nat.strongRecOn
    generalizing reader inBlock bytes output with
  | ind count ih =>
    obtain ⟨located, locatedFile⟩ := facing.skipBlockTail
    obtain ⟨outcome, headed, headedFile⟩ := located.readHeader
    rw [locatedFile] at headedFile
    rcases headerRead : (reader.skipBlockTail files).readHeader files with ⟨announced, next⟩
    rw [headerRead] at outcome headed headedFile
    cases found : Entry.ofBytes (pastTail inBlock bytes).2 with
    | none =>
      simp only [found] at outcome
      subst outcome
      rw [consume_of_readHeader_stop headerRead rfl, stream_of_none found]
      exact ⟨rfl, headedFile⟩
    | some entry =>
      cases entry with
      | blank | oversized =>
        simp only [found] at outcome
        subst outcome
        rw [consume_of_readHeader_stop headerRead rfl, stream_of_mark found nofun]
        exact ⟨rfl, headedFile⟩
      | fragment whole type payload =>
        obtain ⟨behind, output', record, sameScratch, facingBehind,
          behindFile⟩ := facing.readPhysicalRecord found output
        have fewer := length_pastTail_le inBlock bytes
        have header := Entry.length_of_ofBytes found
        rw [stream_of_fragment found, ← sameScratch]
        cases switched : (switchRecord (reader.readPhysicalRecord files output)).1 with
        | some status =>
          rw [consume_of_stop switched]
          rw [record] at switched ⊢
          exact ⟨(assemble_of_stop whole switched).symm, behindFile⟩
        | none =>
          rw [consume_of_continue switched]
          rw [record] at switched ⊢
          rw [assemble_of_continue whole switched, ← behindFile]
          apply ih _ _ facingBehind _ rfl
          simp only [List.length_drop, kHeaderSize] at header ⊢
          omega

end Reader
end Pika.Binlog
