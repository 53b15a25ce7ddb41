import Pika.Replication.ItemFormat

/-!
# The readers of binlog items

`HandleBGWorkerWriteBinlog` is sent items; `Init`, `ReadBinlogFileToWq`,
`GetBinlogOffset` and `UpdateFirstOffset` read them back.  All of them trust
`BinlogItemWithoutContentDecode`, which looks at two bytes, and two of them
point a RESP parser behind the header.
-/

namespace Pika.Replication

open Foundation Option
open Binlog (BinlogItem BinlogOffset Bytes Record Status putFixed)
open Command (binlogEncodeLen)
open Sync (LogOffset getFixed recordOffset)

/-- What becomes of a string. -/
inductive Fate (β : Type) where
  /-- An empty string is a keepalive. -/
  | keepalive
  /-- `BinlogItemWithoutContentDecode` fails. -/
  | undecoded
  /-- The RESP parser is not done. -/
  | unparsed
  /-- The item is used, and so is the command, if the content is parsed. -/
  | accepted (item : BinlogItem) (command : Option β)
  deriving DecidableEq

/-- `redis_parser_start` and `redis_parser_len`. -/
def parserInput (binlog : Bytes) : Extent := .behind binlogEncodeLen binlog

section Readers

-- The RESP parser in the state in which it is: the command when it is done.
variable {β : Type} (parser : Bytes → Option β)

/-- `ProcessInputBuffer` on the bytes behind the header of a decoded item.
There is no outcome when the parser leaves the string. -/
def parseItem (item : BinlogItem) (binlog : Bytes) : Option (Fate β) :=
  ((parserInput binlog).read binlog).map fun content =>
    match parser content with
    | none => .unparsed
    | some command => .accepted item (some command)

/-- The iteration of `HandleBGWorkerWriteBinlog` for a chip, behind the checks
of role, state and session. -/
def handleChip (binlog : Bytes) : Option (Fate β) :=
  if binlog = [] then some .keepalive
  else
    match decodeItem binlog with
    | none => some .undecoded
    | some item => parseItem parser item binlog

/-- The iteration of `Init` for a string read back. -/
def initItem (binlog : Bytes) : Option (Fate β) :=
  match decodeItem binlog with
  | none => some .undecoded
  | some item => parseItem parser item binlog

/-- The iteration of the readers that use the header only. -/
def headerItem (binlog : Bytes) : Fate β :=
  match decodeItem binlog with
  | none => .undecoded
  | some item => .accepted item none

/-- The functions that decode items. -/
inductive ItemReader where
  | handleBGWorkerWriteBinlog | init | readBinlogFileToWq
  | getBinlogOffset
  | getBinlogOffsets
  | updateFirstOffset
  deriving DecidableEq, Repr

namespace ItemReader

/-- The reader hands the content to a parser. -/
def parses : ItemReader → Bool
  | handleBGWorkerWriteBinlog | init => true
  | readBinlogFileToWq | getBinlogOffset | getBinlogOffsets
  | updateFirstOffset => false

/-- What a reader makes of a string. -/
def read (binlog : Bytes) : ItemReader → Option (Fate β)
  | handleBGWorkerWriteBinlog => handleChip parser binlog
  | init => initItem parser binlog
  | readBinlogFileToWq | getBinlogOffset | getBinlogOffsets
  | updateFirstOffset => some (headerItem binlog)

/-- A reader does not use a malformed string. -/
structure RejectsMalformed (reader : ItemReader) (binlog : Bytes) : Prop where
  header : binlogItemWithoutContentDecode binlog = true → binlogEncodeLen ≤ binlog.length
  /-- The parser stays in the string. -/
  inside : reader.parses = true → binlogItemWithoutContentDecode binlog = true →
      (parserInput binlog).Inside binlog
  /-- Strings that are accepted have as much content as their header says. -/
  content : ∀ item command, reader.read parser binlog = some (.accepted item command) →
      contentLength binlog = binlog.length - binlogEncodeLen

/-- If the reader has a parser, it is done with what it is handed. -/
def ParserDone (reader : ItemReader) (binlog : Bytes) : Prop :=
  reader.parses = true → ∃ content ∈ (parserInput binlog).read binlog, (parser content).isSome

end ItemReader

end Readers

section Fates

variable {β : Type} {parser : Bytes → Option β} {binlog : Bytes}

theorem initItem_of_not_decodes (undecoded : binlogItemWithoutContentDecode binlog = false) :
    initItem parser binlog = some .undecoded := by
  rw [← decodeItem_isSome, isSome_eq_false_iff, isNone_iff_eq_none] at undecoded
  rw [initItem, undecoded]

theorem initItem_of_decodes (decoded : decodeItem binlog = some item) :
    initItem parser binlog = parseItem parser item binlog := by
  rw [initItem, decoded]

/-- Chips that are not empty are read as strings from the disk are. -/
theorem handleChip_of_ne_nil (nonempty : binlog ≠ []) :
    handleChip parser binlog = initItem parser binlog :=
  if_neg nonempty

theorem handleChip_eq_accepted_iff :
    handleChip parser binlog = some (.accepted item command) ↔
      initItem parser binlog = some (.accepted item command) := by
  by_cases empty : binlog = []
  · subst empty
    have undecoded : binlogItemWithoutContentDecode [] = false := by decide
    simp [handleChip, initItem_of_not_decodes undecoded]
  · rw [handleChip_of_ne_nil empty]

theorem parseItem_eq_accepted_iff :
    parseItem parser item binlog = some (.accepted fields command) ↔
      ∃ content ∈ (parserInput binlog).read binlog,
        ∃ parsed ∈ parser content, fields = item ∧ command = some parsed := by
  rw [parseItem, map_eq_some_iff]
  apply exists_congr
  intro content
  apply and_congr_right
  intro _
  cases parser content with
  | none => simp
  | some parsed => simp [eq_comm]

/-- A reader accepts the strings that decode and on which its parser, if it has
one, is done. -/
theorem ItemReader.exists_accepted_iff (reader : ItemReader) :
    (∃ item command, reader.read parser binlog = some (.accepted item command)) ↔
      binlogItemWithoutContentDecode binlog = true ∧ reader.ParserDone parser binlog := by
  have parsed : (∃ item command, initItem parser binlog = some (.accepted item command)) ↔
      binlogItemWithoutContentDecode binlog = true ∧
        ∃ content ∈ (parserInput binlog).read binlog, (parser content).isSome := by
    rw [← decodeItem_isSome]
    cases decoded : decodeItem binlog with
    | none => simp [initItem, decoded]
    | some item =>
      simp only [initItem_of_decodes decoded, parseItem_eq_accepted_iff]
      simp [isSome_iff_exists]
  have headed : (∃ item command, (headerItem binlog : Fate β) = .accepted item command) ↔
      binlogItemWithoutContentDecode binlog = true := by
    rw [← decodeItem_isSome, headerItem]
    cases decodeItem binlog <;> simp
  cases reader with
  | handleBGWorkerWriteBinlog =>
    simpa [read, ParserDone, parses, handleChip_eq_accepted_iff] using parsed
  | init => simpa [read, ParserDone, parses] using parsed
  | readBinlogFileToWq | getBinlogOffset | getBinlogOffsets
  | updateFirstOffset => simpa [read, ParserDone, parses] using headed

/-- A reader rejects a malformed string unless it starts like an item: then the
string needs a complete header, and as much content as the header says if the
parser is done with it. -/
theorem ItemReader.rejectsMalformed_iff (parser : Bytes → Option β)
    (reader : ItemReader) (binlog : Bytes) :
    reader.RejectsMalformed parser binlog ↔ (binlog = [1] ∨ binlog.take 2 = [1, 0] →
        binlogEncodeLen ≤ binlog.length ∧ (reader.ParserDone parser binlog →
            contentLength binlog = binlog.length - binlogEncodeLen)) := by
  rw [← binlogItemWithoutContentDecode_iff]
  constructor
  · intro rejects decodes
    refine ⟨rejects.header decodes, fun done => ?_⟩
    obtain ⟨item, command, accepted⟩ := reader.exists_accepted_iff.mpr ⟨decodes, done⟩
    exact rejects.content item command accepted
  · intro wellFormed
    refine ⟨fun decodes => (wellFormed decodes).1, fun _ decodes => ?_, ?_⟩
    · exact (Extent.inside_behind_iff binlogEncodeLen binlog).mpr (wellFormed decodes).1
    · intro item command accepted
      obtain ⟨decodes, done⟩ := reader.exists_accepted_iff.mp ⟨item, command, accepted⟩
      exact (wellFormed decodes).2 done

/-- A chip that is nothing but a type field sends the parser out of the string,
and a command behind a header that announces no content is taken. -/
theorem not_rejectsMalformed_typeFieldOnly :
    parserInput [1, 0] = { start := 34, length := 2 ^ 64 - 32 } ∧
      ¬ItemReader.handleBGWorkerWriteBinlog.RejectsMalformed readArray [1, 0] ∧
      ¬ItemReader.handleBGWorkerWriteBinlog.RejectsMalformed readArray
        (putFixed 2 1 ++ putFixed 32 0 ++ respArray [ascii "ping"]) := by
  refine ⟨by decide, fun rejects => ?_, fun rejects => ?_⟩
  · exact absurd (rejects.header (by decide)) (by decide)
  · have accepted : ItemReader.handleBGWorkerWriteBinlog.read readArray
        (putFixed 2 1 ++ putFixed 32 0 ++ respArray [ascii "ping"]) = some (.accepted
        { execTime := 0, termId := 0, logicId := 0, filenum := 0, offset := 0 }
        (some [ascii "ping"])) := by decide +kernel
    exact absurd (rejects.content _ _ accepted) (by decide +kernel)

end Fates

/-! ## Reading back -/

/-- The offset that a reader makes of the header of a string. -/
def itemOffset (position : BinlogOffset) (item : BinlogItem) : LogOffset where
  bOffset := position
  lOffset := { term := item.termId, index := item.logicId }

/-- The loop of `UpdateFirstOffset`: the new `first_offset_`, if there is
one. -/
def updateFirstOffset : List Record → Option LogOffset
  | [] => none
  | record :: records =>
    match decodeItem record.item with
    | none => none
    | some item =>
      if item.execTime ≠ 0 then some (itemOffset record.position item)
      else updateFirstOffset records

theorem itemOffset_eq_recordOffset (decoded : decodeItem record.item = some item) :
    itemOffset record.position item = recordOffset record := by
  unfold decodeItem at decoded
  split_ifs at decoded
  cases decoded
  rfl

section Loops

variable {β : Type} {parser : Bytes → Option β}

/-- `UpdateFirstOffset` finds the first record with a time among those in front
of the first string that does not decode. -/
theorem updateFirstOffset_eq (records : List Record) :
    updateFirstOffset records = ((records.takeWhile fun record =>
        binlogItemWithoutContentDecode record.item).find? fun record =>
          getFixed (field 2 4 record.item) ≠ 0).map recordOffset := by
  induction records with
  | nil => rfl
  | cons record records ih =>
    rw [List.takeWhile_cons, ← decodeItem_isSome, updateFirstOffset]
    cases decoded : decodeItem record.item with
    | none => rfl
    | some item =>
      have time : item.execTime = getFixed (field 2 4 record.item) := by
        unfold decodeItem at decoded
        split_ifs at decoded
        cases decoded
        rfl
      simp only [time, ih, isSome_some, if_true,
        itemOffset_eq_recordOffset decoded, List.find?_cons]
      split_ifs with isZero <;> simp [isZero]

end Loops

end Pika.Replication
