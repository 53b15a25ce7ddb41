import Mathlib.Tactic.IntervalCases
import Pika.Command.Keys
import Pika.Foundation.Lines

/-!
# The info file of a full sync

The master writes its address and the binlog position of a dump into a file of
five or seven lines, which is sent last.  The slave reads it line by line and
keeps zeros for what is missing.
-/

namespace Pika.Partition

open Foundation List
open Binlog (Bytes)
open Command (string2l)

/-- The byte at the end of a line. -/
def newline : UInt8 := 10

/-- The functions that write the file. -/
inductive InfoWriter where
  | doBgSave (elapsed : Int)
  | dbSyncSendFile

def InfoWriter.firstLine : InfoWriter → Bytes
  | doBgSave elapsed => decimalInt elapsed ++ ascii "s"
  | dbSyncSendFile => ascii "0s"

structure InfoFile where
  writer : InfoWriter
  /-- `host()`, or the ip the slave sees. -/
  host : Bytes
  host_unmarked : newline ∉ host
  port : BitVec 32
  /-- `b_offset.filenum`. -/
  filenum : BitVec 32
  offset : BitVec 64
  /-- `l_offset.term` and `l_offset.index`, if the consensus level is not
  zero. -/
  logic : Option (BitVec 32 × BitVec 64)

namespace InfoFile

/-- The numbers behind the file number and the offset. -/
def logicNumbers (info : InfoFile) : List Nat :=
  match info.logic with
  | none => []
  | some (term, index) => [term.toNat, index.toNat]

/-- The file number and the offset, and the numbers behind. -/
def positions (info : InfoFile) : List Nat :=
  info.filenum.toNat :: info.offset.toNat :: info.logicNumbers

def numbers (info : InfoFile) : List Int := info.port.toInt :: info.positions.map Int.ofNat

def written (info : InfoFile) : List Bytes :=
  info.writer.firstLine :: info.host :: info.numbers.map decimalInt

def bytes (info : InfoFile) : Bytes := unlines newline info.written

end InfoFile

/-- What `TryUpdateMasterOffset` keeps of the file. -/
structure InfoFields where
  masterIp : Bytes
  masterPort : Int
  filenum : Int
  offset : Int
  term : Int
  index : Int
  deriving DecidableEq

/-- Before the first line. -/
def InfoFields.empty : InfoFields where
  masterIp := []
  masterPort := 0
  filenum := 0
  offset := 0
  term := 0
  index := 0

/-- The number of a line is kept. -/
def InfoFields.set (lineno : Nat) (number : Int) (fields : InfoFields) : InfoFields :=
  if lineno = 3 then { fields with masterPort := number }
  else if lineno = 4 then { fields with filenum := number }
  else if lineno = 5 then { fields with offset := number }
  else if lineno = 6 then { fields with term := number }
  else if lineno = 7 then { fields with index := number }
  else fields

/-- A number that is not negative. -/
def readNumber (line : Bytes) : Option Int :=
  (string2l line).filter fun number => decide (0 ≤ number)

/-- One turn of the loop. -/
def readLine (lineno : Nat) (line : Bytes) (fields : InfoFields) : Option InfoFields :=
  if lineno = 2 then some { fields with masterIp := line }
  else if 2 < lineno ∧ lineno < 8 then
    (readNumber line).map fun number => fields.set lineno number
  else if 8 < lineno then none
  else some fields

def readLines (lineno : Nat) (fields : InfoFields) : List Bytes → Option InfoFields
  | [] => some fields
  | line :: rest =>
    (readLine (lineno + 1) line fields).bind fun fields => readLines (lineno + 1) fields rest

/-- What `TryUpdateMasterOffset` reads, unless the format is wrong. -/
def readInfo (text : Bytes) : Option InfoFields := readLines 0 .empty (lines newline text)

/-! ## The reader -/

/-- The number in the place of a line, which is zero if there is none. -/
def numberAt (read : List Bytes) (index : Nat) : Option Int :=
  match read[index]? with
  | none => some 0
  | some line => readNumber line

/-- The loop keeps the numbers of the lines, if all of them are well formed. -/
theorem readLines_eq {read : List Bytes} (short : read.length ≤ 8) :
    readLines 0 .empty read = (numberAt read 2).bind fun masterPort =>
        (numberAt read 3).bind fun filenum =>
          (numberAt read 4).bind fun offset =>
            (numberAt read 5).bind fun term =>
              (numberAt read 6).map fun index =>
                { masterIp := (read[1]?).getD []
                  masterPort := masterPort
                  filenum := filenum
                  offset := offset
                  term := term
                  index := index } := by
  match read with
  | [] | [_] | [_, _] | [_, _, _] | [_, _, _, _] | [_, _, _, _, _]
  | [_, _, _, _, _, _] | [_, _, _, _, _, _, _] | [_, _, _, _, _, _, _, _] =>
    simp [readLines, readLine, numberAt, InfoFields.set, InfoFields.empty,
      Option.map_eq_bind, Option.bind_assoc]
  | _ :: _ :: _ :: _ :: _ :: _ :: _ :: _ :: _ :: _ =>
    simp only [length_cons] at short
    omega

theorem readLines_eq_some_iff {read : List Bytes} (short : read.length ≤ 8) {fields : InfoFields} :
    readLines 0 .empty read = some fields ↔ (read[1]?).getD [] = fields.masterIp ∧
        numberAt read 2 = some fields.masterPort ∧
        numberAt read 3 = some fields.filenum ∧
        numberAt read 4 = some fields.offset ∧
        numberAt read 5 = some fields.term ∧
        numberAt read 6 = some fields.index := by
  rw [readLines_eq short]
  simp only [Option.bind_eq_some_iff, Option.map_eq_some_iff]
  constructor
  · rintro ⟨port, hasPort, filenum, hasFilenum, offset, hasOffset, term,
      hasTerm, index, hasIndex, rfl⟩
    exact ⟨rfl, hasPort, hasFilenum, hasOffset, hasTerm, hasIndex⟩
  · rintro ⟨ip, hasPort, hasFilenum, hasOffset, hasTerm, hasIndex⟩
    refine ⟨_, hasPort, _, hasFilenum, _, hasOffset, _, hasTerm, _, hasIndex, ?_⟩
    rw [ip]

/-- A text is taken for an address if it names the address, or zeros where it
names nothing, and its numbers are well formed. -/
theorem readLines_address_iff {read : List Bytes} (short : read.length ≤ 8) :
    (∃ fields, readLines 0 .empty read = some fields ∧
        fields.masterIp = ip ∧ fields.masterPort = port) ↔
      (read[1]?).getD [] = ip ∧ numberAt read 2 = some port ∧
        ∀ index, 3 ≤ index → index < 7 → (numberAt read index).isSome := by
  simp only [readLines_eq_some_iff short]
  constructor
  · rintro ⟨fields, ⟨hasIp, hasPort, filenum, offset, term, last⟩, rfl, rfl⟩
    refine ⟨hasIp, hasPort, fun index lower upper => ?_⟩
    interval_cases index
    · exact Option.isSome_of_eq_some filenum
    · exact Option.isSome_of_eq_some offset
    · exact Option.isSome_of_eq_some term
    · exact Option.isSome_of_eq_some last
  · rintro ⟨hasIp, hasPort, others⟩
    obtain ⟨filenum, hasFilenum⟩ := Option.isSome_iff_exists.mp (others 3 (by omega) (by omega))
    obtain ⟨offset, hasOffset⟩ := Option.isSome_iff_exists.mp (others 4 (by omega) (by omega))
    obtain ⟨term, hasTerm⟩ := Option.isSome_iff_exists.mp (others 5 (by omega) (by omega))
    obtain ⟨index, hasIndex⟩ := Option.isSome_iff_exists.mp (others 6 (by omega) (by omega))
    exact
      ⟨{ masterIp := ip, masterPort := port, filenum := filenum,
         offset := offset, term := term, index := index },
        ⟨hasIp, hasPort, hasFilenum, hasOffset, hasTerm, hasIndex⟩, rfl, rfl⟩

theorem readNumber_eq_some_iff :
    readNumber line = some number ↔ decimalInt number = line ∧ 0 ≤ number ∧ number < 2 ^ 63 := by
  rw [readNumber, Option.filter_eq_some_iff, string2l, readIntIn_eq_some_iff]
  constructor
  · rintro ⟨⟨isNumeral, -, upper⟩, lower⟩
    exact ⟨isNumeral, of_decide_eq_true lower, upper⟩
  · rintro ⟨isNumeral, lower, upper⟩
    exact ⟨⟨isNumeral, by omega, upper⟩, decide_eq_true lower⟩

theorem isSome_readNumber_decimalInt_iff :
    (readNumber (decimalInt number)).isSome ↔ 0 ≤ number ∧ number < 2 ^ 63 := by
  rw [Option.isSome_iff_exists]
  constructor
  · rintro ⟨other, taken⟩
    obtain ⟨same, range⟩ := readNumber_eq_some_iff.mp taken
    rwa [← decimalInt_injective same]
  · intro range
    exact ⟨number, readNumber_eq_some_iff.mpr ⟨rfl, range⟩⟩

theorem length_of_readLines {read : List Bytes} (taken : readLines lineno fields read = some last) :
    read = [] ∨ lineno + read.length ≤ 8 := by
  induction read generalizing lineno fields with
  | nil => exact .inl rfl
  | cons line rest ih =>
    right
    rw [readLines, Option.bind_eq_some_iff] at taken
    obtain ⟨next, read, later⟩ := taken
    have small : lineno + 1 ≤ 8 := by
      by_contra large
      rw [readLine, if_neg (by omega), if_neg (by omega), if_pos (by omega)] at read
      cases read
    rw [length_cons]
    rcases ih later with rfl | bounded
    · simpa using small
    · omega

/-- A line that is to hold a number and does not. -/
def Malformed (received : Bytes) : Prop :=
  ∃ index line, 2 ≤ index ∧ index < 7 ∧ (lines newline received)[index]? = some line ∧
      ∀ number : Nat, number < 2 ^ 63 → line ≠ decimal number

theorem readInfo_of_malformed {received : Bytes} (malformed : Malformed received) :
    readInfo received = none := by
  obtain ⟨index, line, lower, upper, isLine, noNumber⟩ := malformed
  rw [Option.eq_none_iff_forall_ne_some]
  intro fields taken
  have short : (lines newline received).length ≤ 8 := by
    rcases length_of_readLines taken with none | bounded
    · simp [none]
    · omega
  have each := (readLines_eq_some_iff short).mp taken
  have unread : ∀ number, numberAt (lines newline received) index ≠ some number := by
    intro number read
    rw [numberAt, isLine] at read
    obtain ⟨isNumeral, sign, small⟩ := readNumber_eq_some_iff.mp read
    obtain ⟨number, rfl⟩ := Int.eq_ofNat_of_zero_le sign
    exact noNumber number (by omega) isNumeral.symm
  interval_cases index
  · exact unread _ each.2.1
  · exact unread _ each.2.2.1
  · exact unread _ each.2.2.2.1
  · exact unread _ each.2.2.2.2.1
  · exact unread _ each.2.2.2.2.2

/-! ## The writer -/

namespace InfoFile

variable {info : InfoFile}

theorem unmarked_written : ∀ line ∈ info.written, newline ∉ line := by
  intro line member
  rcases mem_cons.mp member with rfl | member
  · cases info.writer with
    | doBgSave elapsed =>
      rw [InfoWriter.firstLine, mem_append, not_or]
      exact ⟨not_mem_decimalInt (by decide) (by decide) elapsed, by decide⟩
    | dbSyncSendFile => decide
  · rcases mem_cons.mp member with rfl | member
    · exact info.host_unmarked
    · obtain ⟨number, -, rfl⟩ := mem_map.mp member
      exact not_mem_decimalInt (by decide) (by decide) number

theorem length_written_le : info.written.length ≤ 7 := by
  cases logic : info.logic with
  | none => simp [written, numbers, positions, logicNumbers, logic]
  | some pair => simp [written, numbers, positions, logicNumbers, logic]

theorem length_lines_le (cut : Cut newline info.written received) :
    (lines newline received).length ≤ 8 := by
  have total : info.written.length ≤ 7 := length_written_le
  have split := congrArg List.length cut.written_eq
  rw [length_append, length_cons] at split
  rw [cut.lines_eq unmarked_written, length_append]
  split_ifs <;> simp <;> omega

theorem lt_of_mem_positions (member : number ∈ info.positions) : number < 2 ^ 64 := by
  have term : ∀ word : BitVec 32, word.toNat < 2 ^ 64 := fun word => by omega
  simp only [positions, logicNumbers, mem_cons] at member
  rcases member with rfl | rfl | member
  · exact term _
  · exact info.offset.isLt
  · cases logic : info.logic with
    | none => simp [logic] at member
    | some pair =>
      simp only [logic, mem_cons, not_mem_nil, or_false] at member
      rcases member with rfl | rfl
      · exact term _
      · exact pair.2.isLt

theorem getElem?_written_positions :
    info.written[index + 3]? =
      (info.positions[index]?).map fun number => decimalInt (.ofNat number) := by
  simp only [written, numbers, map_cons, map_map,
    List.getElem?_cons_succ, List.getElem?_map]
  rfl

section

variable {received : Bytes} (cut : Cut newline info.written received)
include cut

/-- A position is well formed unless the text goes through one that is too
large. -/
theorem isSome_numberAt_iff (isNumber : info.positions[index]? = some number) :
    (numberAt (lines newline received) (index + 3)).isSome ↔
      (through newline info.written (index + 3) <+: received → number < 2 ^ 63) := by
  have isLine : info.written[index + 3]? = some (decimalInt number) := by
    rw [getElem?_written_positions, isNumber]
    rfl
  have bounded := lt_of_mem_positions (mem_of_getElem? isNumber)
  rcases cut.read_cases unmarked_written isLine (decimalInt_ne_nil _) with
    ⟨reached, read⟩ | ⟨missed, read | ⟨part, read, nonempty, partOf, proper⟩⟩
  · rw [numberAt, read]
    dsimp only
    rw [isSome_readNumber_decimalInt_iff]
    constructor
    · intro range _
      omega
    · intro range
      have small := range reached
      omega
  · rw [numberAt, read]
    exact iff_of_true rfl fun reached => absurd reached missed
  · obtain ⟨shorter, smaller, rfl⟩ := exists_decimal_of_prefix partOf nonempty proper
    rw [numberAt, read]
    apply iff_of_true _ fun reached => absurd reached missed
    have range : (0 : Int) ≤ shorter ∧ (shorter : Int) < 2 ^ 63 := by omega
    exact isSome_readNumber_decimalInt_iff.mpr range

/-- What is missing does no harm. -/
theorem isSome_numberAt_of_none (isNone : info.positions[index]? = none) :
    (numberAt (lines newline received) (index + 3)).isSome := by
  have noLine : info.written[index + 3]? = none := by
    rw [getElem?_written_positions, isNone]
    rfl
  have read : (lines newline received)[index + 3]? = none := by
    rw [cut.getElem?_lines unmarked_written, noLine]
    have here := cut.getElem?_before
    split_ifs with earlier both
    · rfl
    · rw [← both.1, noLine] at here
      cases here
    · rfl
  rw [numberAt, read]
  rfl

/-- The port is read if the text goes through it, or is the zero that stands
for a missing one. -/
theorem numberAt_port_iff :
    numberAt (lines newline received) 2 = some info.port.toInt ↔
      (info.port.toInt = 0 ∨ through newline info.written 2 <+: received) ∧
        (through newline info.written 2 <+: received → 0 ≤ info.port.toInt) := by
  have isLine : info.written[2]? = some (decimalInt info.port.toInt) := rfl
  rcases cut.read_cases unmarked_written isLine (decimalInt_ne_nil _) with
    ⟨reached, read⟩ | ⟨missed, read | ⟨part, read, nonempty, partOf, proper⟩⟩
  · have bounded : info.port.toInt < 2 ^ 63 := by
      have upper : info.port.toInt < 2 ^ 31 := BitVec.toInt_lt
      omega
    rw [numberAt, read]
    dsimp only
    rw [readNumber_eq_some_iff]
    constructor
    · rintro ⟨-, lower, -⟩
      exact ⟨.inr reached, fun _ => lower⟩
    · rintro ⟨-, lower⟩
      exact ⟨rfl, lower reached, bounded⟩
  · rw [numberAt, read]
    constructor
    · intro zero
      exact ⟨.inl (Option.some.inj zero).symm, fun reached => absurd reached missed⟩
    · rintro ⟨zero | reached, -⟩
      · rw [zero]
      · exact absurd reached missed
  · rw [numberAt, read]
    apply iff_of_false
    · intro taken
      exact proper (readNumber_eq_some_iff.mp taken).1.symm
    · rintro ⟨zero | reached, -⟩
      · -- The numeral of zero has no proper beginning.
        rw [zero] at partOf proper
        obtain ⟨shorter, smaller, rfl⟩ := exists_decimal_of_prefix partOf nonempty proper
        obtain rfl : shorter = 0 := Nat.le_zero.mp smaller
        exact proper rfl
      · exact missed reached

theorem host_iff :
    ((lines newline received)[1]?).getD [] = info.host ↔
      info.host = [] ∨ through newline info.written 1 <+: received := by
  have isLine : info.written[1]? = some info.host := rfl
  by_cases empty : info.host = []
  · apply iff_of_true _ (.inl empty)
    have here := cut.getElem?_before
    have partOf := cut.part_of
    rw [cut.getElem?_lines unmarked_written]
    split_ifs with earlier both
    · rw [isLine]
      rfl
    · rw [← both.1, isLine] at here
      rw [← Option.some.inj here, empty] at partOf
      exact absurd (prefix_nil.mp partOf) both.2
    · exact empty.symm
  · rcases cut.read_cases unmarked_written isLine empty with
      ⟨reached, read⟩ | ⟨missed, read | ⟨part, read, -, -, proper⟩⟩
    · rw [read]
      exact iff_of_true rfl (.inr reached)
    · rw [read]
      exact iff_of_false (Ne.symm empty) (not_or.mpr ⟨empty, missed⟩)
    · rw [read]
      exact iff_of_false proper (not_or.mpr ⟨empty, missed⟩)

end

/-- What is received names the address, or leaves out what is zero, and goes
through no number that is negative or too large. -/
structure Names (info : InfoFile) (received : Bytes) : Prop where
  host : info.host = [] ∨ through newline info.written 1 <+: received
  port : info.port.toInt = 0 ∨ through newline info.written 2 <+: received
  /-- It is not negative. -/
  sign : through newline info.written 2 <+: received → 0 ≤ info.port.toInt
  sizes : ∀ index number, info.positions[index]? = some number →
    through newline info.written (index + 3) <+: received → number < 2 ^ 63

/-- A cut file is taken for one of its master exactly if it still names it. -/
theorem readInfo_cut_iff {received : Bytes} (cut : Cut newline info.written received) :
    (∃ fields, readInfo received = some fields ∧
        fields.masterIp = info.host ∧ fields.masterPort = info.port.toInt) ↔
      info.Names received := by
  rw [readInfo, readLines_address_iff (length_lines_le cut), host_iff cut, numberAt_port_iff cut]
  constructor
  · rintro ⟨host, ⟨port, sign⟩, others⟩
    refine ⟨host, port, sign, fun index number isNumber => ?_⟩
    rw [← isSome_numberAt_iff cut isNumber]
    have inside : index + 3 < info.written.length := by
      have isLine : info.written[index + 3]? ≠ none := by
        rw [getElem?_written_positions, isNumber]
        exact nofun
      by_contra outside
      exact isLine (List.getElem?_eq_none (not_lt.mp outside))
    exact others (index + 3) (by omega) (inside.trans_le length_written_le)
  · rintro ⟨host, port, sign, sizes⟩
    refine ⟨host, ⟨port, sign⟩, fun index lower _ => ?_⟩
    obtain ⟨index, rfl⟩ := Nat.exists_eq_add_of_le' lower
    cases isNumber : info.positions[index]? with
    | none => exact isSome_numberAt_of_none cut isNumber
    | some number => exact (isSome_numberAt_iff cut isNumber).mpr (sizes index number isNumber)

/-- What is to be read. -/
def fields (info : InfoFile) : InfoFields where
  masterIp := info.host
  masterPort := info.port.toInt
  filenum := info.filenum.toNat
  offset := info.offset.toNat
  term := (info.logic.map fun logic => logic.1.toNat).getD 0
  index := (info.logic.map fun logic => logic.2.toNat).getD 0

theorem readNumber_ofNat_iff :
    readNumber (decimalInt (.ofNat number)) = some (.ofNat number) ↔ number < 2 ^ 63 := by
  rw [readNumber_eq_some_iff]
  simp only [Int.ofNat_eq_natCast, true_and]
  omega

theorem names_bytes_iff :
    info.Names info.bytes ↔ 0 ≤ info.port.toInt ∧ ∀ number ∈ info.positions, number < 2 ^ 63 := by
  have reached : ∀ index < info.written.length, through newline info.written index <+: info.bytes :=
    fun index inside => through_prefix_unlines inside
  have three : 2 < info.written.length := by simp [written, numbers]
  constructor
  · intro names
    refine ⟨names.sign (reached 2 three), fun number member => ?_⟩
    obtain ⟨index, isNumber⟩ := mem_iff_getElem?.mp member
    apply names.sizes index number isNumber
    apply reached
    have inside := (List.getElem?_eq_some_iff.mp isNumber).1
    simpa [written, numbers] using inside
  · rintro ⟨sign, sizes⟩
    exact
      { host := .inr (reached 1 (by omega))
        port := .inr (reached 2 three)
        sign := fun _ => sign
        sizes := fun index number isNumber _ => sizes number (mem_of_getElem? isNumber) }

theorem numberAt_positions_iff (isNumber : info.positions[index]? = some number) :
    numberAt info.written (index + 3) = some (.ofNat number) ↔ number < 2 ^ 63 := by
  rw [numberAt, getElem?_written_positions, isNumber]
  exact readNumber_ofNat_iff

theorem numberAt_logic_iff :
    (numberAt info.written 5 = some info.fields.term ∧
        numberAt info.written 6 = some info.fields.index) ↔
      ∀ number ∈ info.logicNumbers, number < 2 ^ 63 := by
  cases logic : info.logic with
  | none =>
    have missing : info.positions[2]? = none ∧ info.positions[3]? = none := by
      simp [positions, logicNumbers, logic]
    simp [numberAt, getElem?_written_positions, missing, fields, logicNumbers, logic]
  | some pair =>
    have term : info.positions[2]? = some pair.1.toNat := by simp [positions, logicNumbers, logic]
    have index : info.positions[3]? = some pair.2.toNat := by simp [positions, logicNumbers, logic]
    have hasTerm : info.fields.term = .ofNat pair.1.toNat := by simp [fields, logic]
    have hasIndex : info.fields.index = .ofNat pair.2.toNat := by simp [fields, logic]
    rw [hasTerm, hasIndex, numberAt_positions_iff term, numberAt_positions_iff index]
    simp [logicNumbers, logic]

theorem readInfo_bytes_iff : readInfo info.bytes = some info.fields ↔ info.Names info.bytes := by
  have short : info.written.length ≤ 8 := length_written_le.trans (by decide)
  have hasIp : (info.written[1]?).getD [] = info.fields.masterIp := rfl
  have port : numberAt info.written 2 = some info.fields.masterPort ↔ 0 ≤ info.port.toInt := by
    have upper : info.port.toInt < 2 ^ 31 := BitVec.toInt_lt
    have range : info.port.toInt < 2 ^ 63 := by omega
    apply readNumber_eq_some_iff.trans
    exact ⟨fun taken => taken.2.1, fun sign => ⟨rfl, sign, range⟩⟩
  have filenum : numberAt info.written 3 = some info.fields.filenum ↔ info.filenum.toNat < 2 ^ 63 :=
    numberAt_positions_iff rfl
  have offset : numberAt info.written 4 = some info.fields.offset ↔ info.offset.toNat < 2 ^ 63 :=
    numberAt_positions_iff rfl
  rw [readInfo, bytes, lines_unlines unmarked_written,
    readLines_eq_some_iff short, ← bytes, names_bytes_iff, port, filenum,
    offset, numberAt_logic_iff, positions, forall_mem_cons, forall_mem_cons]
  exact ⟨fun read => read.2, fun small => ⟨hasIp, small⟩⟩

end InfoFile

end Pika.Partition
