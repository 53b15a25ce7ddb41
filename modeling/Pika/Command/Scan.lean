import Pika.Command.Reply
import Pika.Command.Stability
import Pika.Foundation.Paging

/-!
# SCAN

SCAN reads its COUNT in batches of at most 1000 keys and replies with the
cursor of the last batch.  If the engine pages through the keys of a pattern,
a client that follows the cursors collects exactly these keys, whatever counts
it asks for, unless one reply would be too long.
-/

namespace Pika

open Foundation
open List hiding count
open Binlog (Bytes)

namespace Command

/-! ## The command -/

/-- The fields of a `ScanCmd`. -/
structure ScanFields where
  cursor : Int
  pattern : Bytes
  count : Int
  deriving DecidableEq

/-- The loop over the options of SCAN. -/
def scanOptions : List Bytes → ScanFields → Except CmdRet ScanFields
  | [], fields => .ok fields
  | opt :: rest, fields =>
    if sameWord opt "match" || sameWord opt "count" then
      match rest with
      | [] => .error .kSyntaxErr
      | value :: rest =>
        if sameWord opt "match" then scanOptions rest { fields with pattern := value }
        else
          match string2l value with
          | none => .error .kInvalidInt
          | some count =>
            if count ≤ 0 then .error .kInvalidInt
            else scanOptions rest { fields with count := count }
    else .error .kSyntaxErr

/-- `ScanCmd::DoInitial`. -/
def scanInitial (argv : List Bytes) : Except CmdRet ScanFields :=
  if CommandName.scanCmd.checkArg argv.length then
    match string2l (argument argv 1) with
    | none => .error .kInvalidInt
    | some cursor =>
      scanOptions (argv.drop 2)
        { cursor := cursor, pattern := ascii "*", count := 10 }
  else .error (.kWrongNum "scan")

/-- `Scan` of the engine for all types: a pattern, a cursor and a count give
the next cursor and keys. -/
abbrev EngineScan := Bytes → Int → Int → Int × List Bytes

def pikaScanStepLength : Int := 1000

/-- The variables of the loop in `ScanCmd::Do`, with the number of calls of the
engine. -/
structure ScanState where
  cursor : Int
  raw : Bytes
  totalKey : Nat
  /-- How often the engine was called. -/
  calls : Nat
  deriving DecidableEq

def encodeKeys (keys : List Bytes) : Bytes :=
  keys.flatMap fun key => bulk (decimal key.length) key

/-- One call of the engine. -/
def ScanState.batch (scan : Int → Int → Int × List Bytes) (batchCount : Int)
    (state : ScanState) : ScanState :=
  { cursor := (scan state.cursor batchCount).1
    raw := state.raw ++ encodeKeys (scan state.cursor batchCount).2
    totalKey := state.totalKey + (scan state.cursor batchCount).2.length
    calls := state.calls + 1 }

/-- The loop of `ScanCmd::Do`, and whether it ended at the limit. -/
def scanLoop (scan : Int → Int → Int × List Bytes) (rawLimit : Nat) :
    Nat → Int → ScanState → ScanState × Bool
  | 0, _, state => (state, false)
  | fuel + 1, left, state =>
    let batchCount := if left < pikaScanStepLength then left else pikaScanStepLength
    let left := if left > pikaScanStepLength then left - pikaScanStepLength else 0
    let next := state.batch scan batchCount
    if rawLimit ≤ next.raw.length then (next, true)
    else if next.cursor ≠ 0 ∧ left ≠ 0 then scanLoop scan rawLimit fuel left next
    else (next, false)

/-- The loop of a command; every round takes at least one from `left`. -/
def ScanFields.run (scan : EngineScan) (maxClientResponseSize : Int)
    (fields : ScanFields) : ScanState × Bool :=
  scanLoop (scan fields.pattern) (castUInt64 maxClientResponseSize)
    fields.count.toNat fields.count
    { cursor := fields.cursor, raw := [], totalKey := 0, calls := 0 }

def CmdRes.appendStringRaw (value : Bytes) (res : CmdRes) : CmdRes :=
  { res with raw := res.raw ++ value }

/-- The error of a reply that is too long. -/
def responseExceeds : CmdRes :=
  CmdRes.create.setResContent .kErrOther
    (ascii "Response exceeds the max-client-response-size limit")

/-- `ScanCmd::Do`. -/
def ScanFields.scanDo (scan : EngineScan) (maxClientResponseSize : Int)
    (fields : ScanFields) : CmdRes :=
  let (state, exceeds) := fields.run scan maxClientResponseSize
  if exceeds then responseExceeds
  else
    (((CmdRes.create.appendArrayLen 2).appendString
      (decimalInt state.cursor)).appendArrayLen state.totalKey).appendStringRaw
      state.raw

/-- SCAN as a whole. -/
def scanCommand (scan : EngineScan) (maxClientResponseSize : Int)
    (argv : List Bytes) : Except CmdRet CmdRes :=
  (scanInitial argv).map (ScanFields.scanDo scan maxClientResponseSize)

/-! ## The loop -/

/-- What a number of calls in a row makes of the variables. -/
structure ScanState.Advances (scan : Int → Int → Int × List Bytes)
    (state final : ScanState) (keys : List Bytes) : Prop where
  reads : Reads scan state.cursor keys final.cursor
  raw_eq : final.raw = state.raw ++ encodeKeys keys
  totalKey_eq : final.totalKey = state.totalKey + keys.length

section Loop

variable {scan : Int → Int → Int × List Bytes} {rawLimit : Nat}
variable {state next final : ScanState} {keys : List Bytes}

theorem encodeKeys_append (keys later : List Bytes) :
    encodeKeys (keys ++ later) = encodeKeys keys ++ encodeKeys later :=
  flatMap_append

theorem ScanState.advances_batch (positive : 0 < batchCount) :
    state.Advances scan (state.batch scan batchCount) (scan state.cursor batchCount).2 :=
  ⟨.call positive, rfl, rfl⟩

theorem ScanState.Advances.batch (positive : 0 < batchCount)
    (unfinished : (state.batch scan batchCount).cursor ≠ 0)
    (advances : (state.batch scan batchCount).Advances scan final keys) :
    state.Advances scan final ((scan state.cursor batchCount).2 ++ keys) where
  reads := .more positive unfinished rfl advances.reads
  raw_eq := by
    rw [advances.raw_eq, encodeKeys_append, ← append_assoc]
    rfl
  totalKey_eq := by
    rw [advances.totalKey_eq, length_append, ← Nat.add_assoc]
    rfl

/-- The loop makes at least one call and at most one for every thousand keys
asked for, and stops early only at the limit or at the end. -/
theorem scanLoop_spec {fuel : Nat} {left : Int} (positive : 0 < left) (enough : left ≤ fuel) :
    (∃ keys, state.Advances scan (scanLoop scan rawLimit fuel left state).1 keys) ∧
      ((scanLoop scan rawLimit fuel left state).1.calls : Int) ≤ state.calls + (left + 999) / 1000 ∧
      ((scanLoop scan rawLimit fuel left state).2 = true →
        rawLimit ≤ (scanLoop scan rawLimit fuel left state).1.raw.length) := by
  -- Each round has fuel, since it takes at least one from `left`.
  induction fuel generalizing left state with
  | zero => omega
  | succ fuel ih =>
    have batchPositive : 0 < if left < pikaScanStepLength then left else pikaScanStepLength := by
      unfold pikaScanStepLength
      split_ifs <;> omega
    have one := @ScanState.advances_batch scan state _ batchPositive
    rw [scanLoop]
    by_cases long : rawLimit ≤ (state.batch scan (if left < pikaScanStepLength then left
        else pikaScanStepLength)).raw.length
    · rw [if_pos long]
      refine ⟨⟨_, one⟩, ?_, fun _ => long⟩
      show ((state.calls + 1 : Nat) : Int) ≤ _
      omega
    rw [if_neg long]
    by_cases goesOn : (state.batch scan (if left < pikaScanStepLength then left
          else pikaScanStepLength)).cursor ≠ 0 ∧
        (if left > pikaScanStepLength then left - pikaScanStepLength
        else 0) ≠ 0
    · rw [if_pos goesOn]
      have more : left > 1000 := by
        have rest := goesOn.2
        unfold pikaScanStepLength at rest
        split_ifs at rest with more
        · exact more
        · exact absurd rfl rest
      have lower : (if left > pikaScanStepLength then
          left - pikaScanStepLength else 0) = left - 1000 := if_pos more
      rw [lower]
      obtain ⟨⟨keys, advances⟩, calls, limited⟩ :=
        @ih (state.batch scan (if left < pikaScanStepLength then left
          else pikaScanStepLength)) (left - 1000) (by omega) (by omega)
      refine ⟨⟨_, advances.batch batchPositive goesOn.1⟩, ?_, limited⟩
      have counted : ((state.batch scan (if left < pikaScanStepLength then
          left else pikaScanStepLength)).calls : Int) = state.calls + 1 := rfl
      omega
    · rw [if_neg goesOn]
      refine ⟨⟨_, one⟩, ?_, fun exceeds => by cases exceeds⟩
      show ((state.calls + 1 : Nat) : Int) ≤ _
      omega

end Loop

/-! ## The reply -/

/-- A cursor and an array of keys. -/
def scanReply (cursor : Int) (keys : List Bytes) : RespValue :=
  .array [.bulk (decimalInt cursor), .array (keys.map .bulk)]

theorem respTokens_map_bulk (keys : List Bytes) :
    respTokens (keys.map .bulk) = keys.map .bulk := by
  rw [respTokens_eq_flatMap, flatMap_map]
  exact flatMap_pure_eq_map ..

theorem tokens_scanReply (cursor : Int) (keys : List Bytes) :
    (scanReply cursor keys).tokens =
      [.header 2, .bulk (decimalInt cursor), .header keys.length] ++ keys.map .bulk := by
  simp [scanReply, RespValue.tokens, respTokens, respTokens_map_bulk]

theorem encodeKeys_eq_respBytes (keys : List Bytes) :
    encodeKeys keys = respBytes (keys.map .bulk) := by
  rw [respBytes, flatMap_map]
  rfl

theorem CmdRes.appendStringRaw_ofTokens (tokens later : List RespToken) :
    (CmdRes.ofTokens tokens).appendStringRaw (respBytes later) =
      CmdRes.ofTokens (tokens ++ later) := by
  rw [CmdRes.appendStringRaw, CmdRes.ofTokens, CmdRes.ofTokens, respBytes_append]

/-- The parts of a reply that fits are one value, whose array has as many
elements as it declares. -/
theorem reply_eq_ofTokens (cursor : Int) (keys : List Bytes) :
    (((CmdRes.create.appendArrayLen 2).appendString
      (decimalInt cursor)).appendArrayLen keys.length).appendStringRaw
      (encodeKeys keys) = CmdRes.ofTokens (scanReply cursor keys).tokens := by
  rw [CmdRes.create_eq_ofTokens, CmdRes.appendArrayLen_ofTokens,
    CmdRes.appendString_ofTokens, CmdRes.appendArrayLen_ofTokens,
    encodeKeys_eq_respBytes, CmdRes.appendStringRaw_ofTokens, tokens_scanReply]
  rfl

/-- What a SCAN replies: the keys that some calls in a row read, with the cursor
at which they end, or an error if their encoding reaches the limit. -/
inductive ScanReplies (scan : EngineScan) (maxClientResponseSize : Int) (fields : ScanFields) :
    CmdRes → Prop
  | keys {next : Int} {keys : List Bytes}
      (reads : Reads (scan fields.pattern) fields.cursor keys next) :
      ScanReplies scan maxClientResponseSize fields (CmdRes.ofTokens (scanReply next keys).tokens)
  | exceeds {next : Int} {keys : List Bytes}
      (reads : Reads (scan fields.pattern) fields.cursor keys next)
      (long : castUInt64 maxClientResponseSize ≤ (encodeKeys keys).length) :
      ScanReplies scan maxClientResponseSize fields responseExceeds

theorem scanReplies_scanDo (scan : EngineScan) (maxClientResponseSize : Int)
    {fields : ScanFields} (positive : 0 < fields.count) :
    ScanReplies scan maxClientResponseSize fields (fields.scanDo scan maxClientResponseSize) := by
  obtain ⟨⟨keys, advances⟩, -, limited⟩ :=
    @scanLoop_spec (scan fields.pattern) (castUInt64 maxClientResponseSize)
      { cursor := fields.cursor, raw := [], totalKey := 0, calls := 0 }
      fields.count.toNat fields.count positive (Int.self_le_toNat _)
  have reads := advances.reads
  have raw := advances.raw_eq
  have total := advances.totalKey_eq
  rw [Nat.zero_add] at total
  rw [nil_append] at raw
  unfold ScanFields.scanDo ScanFields.run
  by_cases exceeds : (scanLoop (scan fields.pattern)
      (castUInt64 maxClientResponseSize) fields.count.toNat fields.count
      { cursor := fields.cursor, raw := [], totalKey := 0, calls := 0 }).2 = true
  · rw [raw] at limited
    simp only [exceeds, if_true]
    exact .exceeds reads (limited exceeds)
  · simp only [exceeds, Bool.false_eq_true, if_false]
    rw [raw, total, reply_eq_ofTokens]
    exact .keys reads

/-! ## Arguments -/

theorem count_pos_of_scanOptions (accepted : scanOptions words fields = .ok result)
    (positive : 0 < fields.count) :
    0 < result.count := by
  fun_induction scanOptions words fields with
  | case1 fields =>
    cases accepted
    exact positive
  | case3 opt fields known value rest isMatch ih => exact ih accepted positive
  | case6 opt fields known value rest notMatch count read refused ih =>
    exact ih accepted (Int.not_le.mp refused)
  | case2 | case4 | case5 | case7 => cases accepted

/-- An accepted SCAN asks for at least one key. -/
theorem count_pos_of_scanInitial (accepted : scanInitial argv = .ok fields) :
    0 < fields.count := by
  unfold scanInitial at accepted
  by_cases counted : CommandName.scanCmd.checkArg argv.length = true
  · rw [if_pos counted] at accepted
    cases read : string2l (argument argv 1) with
    | none => simp [read] at accepted
    | some cursor =>
      simp only [read] at accepted
      exact count_pos_of_scanOptions accepted (Int.natCast_pos.mpr (by decide))
  · rw [if_neg counted] at accepted
    cases accepted

/-- `SCAN cursor MATCH pattern COUNT count`. -/
def scanArgv (cursor : Int) (pattern : Bytes) (count : Int) : List Bytes :=
  [ascii "scan", decimalInt cursor, ascii "match", pattern, ascii "count", decimalInt count]

/-- A number of an `int64_t`. -/
def IsInt64 (number : Int) : Prop := -2 ^ 63 ≤ number ∧ number < 2 ^ 63

theorem scanInitial_scanArgv (pattern : Bytes) (cursorFits : IsInt64 cursor)
    (countFits : IsInt64 count) (positive : 0 < count) :
    scanInitial (scanArgv cursor pattern count) =
      .ok { cursor := cursor, pattern := pattern, count := count } := by
  have isMatch : sameWord (ascii "match") "match" = true := by decide +kernel
  have isCount : sameWord (ascii "count") "count" = true := by decide +kernel
  have notMatch : sameWord (ascii "count") "match" = false := by decide +kernel
  have counted : CommandName.scanCmd.checkArg (scanArgv cursor pattern count).length = true := rfl
  have options : scanOptions [ascii "match", pattern, ascii "count", decimalInt count]
      { cursor := cursor, pattern := ascii "*", count := 10 } =
      .ok { cursor := cursor, pattern := pattern, count := count } := by
    simp [scanOptions, isMatch, isCount, notMatch,
      string2l_decimalInt countFits.1 countFits.2, Int.not_le.mpr positive]
  have first : argument (scanArgv cursor pattern count) 1 = decimalInt cursor := rfl
  unfold scanInitial
  rw [if_pos counted, first, string2l_decimalInt cursorFits.1 cursorFits.2]
  exact options

/-! ## A client that follows the cursors -/

/-- A client asks for the keys of a pattern with the counts of a list, each
time at the cursor of the last reply, until the cursor is zero; then it has
collected keys.  An error ends it without a result. -/
inductive ScanSession (serve : List Bytes → Except CmdRet CmdRes) (pattern : Bytes) :
    Int → List Int → Option (List Bytes) → Prop
  | refused {cursor count : Int} {reply : CmdRes}
      (served : serve (scanArgv cursor pattern count) = .ok reply)
      (failed : reply.ret ≠ .kNone) :
      ScanSession serve pattern cursor [count] none
  | last {cursor count : Int} {reply : CmdRes} {keys : List Bytes}
      (served : serve (scanArgv cursor pattern count) = .ok reply)
      (read : reply.message = respBytes (scanReply 0 keys).tokens) :
      ScanSession serve pattern cursor [count] (some keys)
  | more {cursor next count : Int} {counts : List Int} {reply : CmdRes}
      {keys : List Bytes} {outcome : Option (List Bytes)}
      (served : serve (scanArgv cursor pattern count) = .ok reply)
      (read : reply.message = respBytes (scanReply next keys).tokens)
      (unfinished : next ≠ 0)
      (behind : ScanSession serve pattern next counts outcome) :
      ScanSession serve pattern cursor (count :: counts) (outcome.map fun later => keys ++ later)

/-- A COUNT that SCAN accepts. -/
def IsCount (count : Int) : Prop := 0 < count ∧ count < 2 ^ 63

theorem IsCount.isInt64 (isCount : IsCount count) : IsInt64 count :=
  ⟨by have positive := isCount.1; omega, isCount.2⟩

/-- Replies with one text have one cursor and the same keys. -/
theorem scanReply_inj {keys : List Bytes} (same : respBytes (scanReply cursor keys).tokens =
      respBytes (scanReply other otherKeys).tokens) :
    cursor = other ∧ keys = otherKeys := by
  have tokens := respBytes_injective same
  rw [tokens_scanReply, tokens_scanReply] at tokens
  simp only [cons_append, nil_append, List.cons.injEq,
    RespToken.bulk.injEq, true_and] at tokens
  obtain ⟨cursors, -, maps⟩ := tokens
  refine ⟨decimalInt_injective cursors, ?_⟩
  exact map_injective_iff.mpr (fun _ _ => RespToken.bulk.inj) maps

/-- The error of a long reply is not a cursor and keys. -/
theorem message_responseExceeds_ne (cursor : Int) (keys : List Bytes) :
    responseExceeds.message ≠ respBytes (scanReply cursor keys).tokens := by
  intro same
  rw [tokens_scanReply] at same
  have first := congrArg List.head? same
  cases first

section Session

variable {scan : EngineScan} {maxClientResponseSize : Int} {pattern : Bytes}
variable {sequence keys : List Bytes} {cursor next count : Int}

/-- SCAN at a cursor of the engine replies with keys or with an error. -/
theorem scanCommand_scanArgv (cursorFits : IsInt64 cursor) (isCount : IsCount count) :
    ∃ reply, scanCommand scan maxClientResponseSize (scanArgv cursor pattern count) = .ok reply ∧
        ScanReplies scan maxClientResponseSize
          { cursor := cursor, pattern := pattern, count := count } reply := by
  refine ⟨_, ?_, scanReplies_scanDo scan maxClientResponseSize isCount.1⟩
  rw [scanCommand, scanInitial_scanArgv pattern cursorFits isCount.isInt64 isCount.1]
  rfl

/-- Keys that a client reads in a reply were read from the engine. -/
theorem reads_of_message (cursorFits : IsInt64 cursor) (isCount : IsCount count)
    (served : scanCommand scan maxClientResponseSize (scanArgv cursor pattern count) = .ok reply)
    (read : reply.message = respBytes (scanReply next keys).tokens) :
    Reads (scan pattern) cursor keys next := by
  obtain ⟨answer, answered, replies⟩ :=
    @scanCommand_scanArgv scan maxClientResponseSize pattern cursor count cursorFits isCount
  rw [answered] at served
  cases served
  cases replies with
  | keys reads =>
    rw [CmdRes.message_ofTokens] at read
    obtain ⟨rfl, rfl⟩ := scanReply_inj read
    exact reads
  | exceeds => exact absurd read (message_responseExceeds_ne next keys)

variable (pages : Pages (scan pattern) sequence)
variable (fits : ∀ cursor, pages.issued cursor → IsInt64 cursor)

include fits

/-- A session from a cursor collects what is left there. -/
theorem collected_eq_rest (session : ScanSession (scanCommand scan maxClientResponseSize) pattern
      cursor counts outcome) (areCounts : ∀ count ∈ counts, IsCount count)
    (issued : pages.issued cursor) :
    ∀ collected, outcome = some collected → collected = pages.rest cursor := by
  induction session with
  | refused => exact fun collected none => by cases none
  | last served read =>
    rintro collected ⟨⟩
    have reads := reads_of_message (fits _ issued) (areCounts _ mem_cons_self) served read
    have whole := pages.append_after_of_reads reads issued
    rw [pages.after_zero, append_nil] at whole
    exact whole
  | more served read unfinished behind ih =>
    obtain ⟨isCount, areCounts⟩ := forall_mem_cons.mp areCounts
    have reads := reads_of_message (fits _ issued) isCount served read
    have whole := pages.append_after_of_reads reads issued
    rw [pages.after_of_ne unfinished] at whole
    intro collected same
    rw [Option.map_eq_some_iff] at same
    obtain ⟨later, laterEq, rfl⟩ := same
    rw [ih areCounts (pages.issued_of_reads reads issued) later laterEq, whole]

/-- A session ends, whatever counts it goes through. -/
theorem exists_session (counts : Nat → Int) (areCounts : ∀ index, IsCount (counts index))
    (issued : pages.issued cursor) :
    ∃ number outcome, ScanSession (scanCommand scan maxClientResponseSize) pattern cursor
        ((List.range number).map counts) outcome := by
  induction work : pages.work cursor using Nat.strongRecOn generalizing cursor counts with
  | ind bound ih =>
    obtain ⟨reply, served, replies⟩ :=
      @scanCommand_scanArgv scan maxClientResponseSize pattern cursor
        (counts 0) (fits cursor issued) (areCounts 0)
    cases replies with
    | exceeds reads long => exact ⟨1, none, .refused served fun none => by cases none⟩
    | @keys next keys reads =>
      by_cases finished : next = 0
      · subst finished
        exact ⟨1, some keys, .last served (CmdRes.message_ofTokens _)⟩
      · have less := pages.work_lt_of_reads reads issued finished
        obtain ⟨number, outcome, behind⟩ :=
          ih (pages.work next) (work ▸ less) (fun index => counts (index + 1))
            (fun index => areCounts (index + 1))
            (pages.issued_of_reads reads issued) rfl
        refine ⟨number + 1, outcome.map fun later => keys ++ later, ?_⟩
        rw [range_succ_eq_map, map_cons, map_map]
        exact .more served (CmdRes.message_ofTokens _) finished behind

end Session

/-! ## Complete scans -/

/-- What SCAN promises of a pattern whose keys are a sequence. -/
structure CompleteScan (scan : EngineScan) (maxClientResponseSize : Int)
    (pattern : Bytes) (sequence : List Bytes) : Prop where
  /-- A session that ends without an error has collected the sequence. -/
  collected : ∀ counts keys, (∀ count ∈ counts, IsCount count) →
    ScanSession (scanCommand scan maxClientResponseSize) pattern 0 counts
      (some keys) → keys = sequence
  /-- A session ends, whatever counts are chosen. -/
  ends : ∀ counts : Nat → Int, (∀ index, IsCount (counts index)) → ∃ number outcome,
      ScanSession (scanCommand scan maxClientResponseSize) pattern 0
        ((List.range number).map counts) outcome
  /-- A reply is a cursor and an array of as many keys as it declares, or an
  error without a cursor whose keys reach the limit. -/
  replies : ∀ argv fields, scanInitial argv = .ok fields →
    ScanReplies scan maxClientResponseSize fields (fields.scanDo scan maxClientResponseSize)
  /-- The engine is called at most once for every thousand keys asked for. -/
  calls : ∀ argv fields, scanInitial argv = .ok fields →
    ((fields.run scan maxClientResponseSize).1.calls : Int) ≤ (fields.count + 999) / 1000

/-- If the engine pages through a sequence, SCAN does. -/
theorem completeScan (scan : EngineScan) (maxClientResponseSize : Int)
    (pattern : Bytes) (sequence : List Bytes) (pages : Pages (scan pattern) sequence)
    (fits : ∀ cursor, pages.issued cursor → IsInt64 cursor) :
    CompleteScan scan maxClientResponseSize pattern sequence where
  collected counts keys areCounts session := by
    rw [collected_eq_rest pages fits session areCounts pages.issued_zero keys
      rfl, pages.rest_zero]
  ends counts areCounts := exists_session pages fits counts areCounts pages.issued_zero
  replies argv fields accepted :=
    scanReplies_scanDo scan maxClientResponseSize (count_pos_of_scanInitial accepted)
  calls argv fields accepted := by
    obtain ⟨-, calls, -⟩ := @scanLoop_spec (scan fields.pattern) (castUInt64 maxClientResponseSize)
        { cursor := fields.cursor, raw := [], totalKey := 0, calls := 0 }
        fields.count.toNat fields.count (count_pos_of_scanInitial accepted)
        (Int.self_le_toNat _)
    rw [Int.natCast_zero, Int.zero_add] at calls
    exact calls

/-- Two keys that an engine serves by their indices. -/
theorem completeScan_twoKeys :
    CompleteScan (fun _ => listScan [ascii "a", ascii "b"]) 1024 (ascii "*")
      [ascii "a", ascii "b"] :=
  completeScan _ 1024 (ascii "*") _ (listPages [ascii "a", ascii "b"]) (by
    rintro cursor ⟨lower, upper⟩
    have length : [ascii "a", ascii "b"].length = 2 := rfl
    rw [length] at upper
    constructor <;> omega)

end Command

end Pika
