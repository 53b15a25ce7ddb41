import Mathlib.Data.List.Lex
import Pika.Command.LimitSlice
import Pika.Foundation.Bound

/-!
# Members between two members

ZRANGEBYLEX, ZREVRANGEBYLEX, ZLEXCOUNT and ZREMRANGEBYLEX act on the members
between two bounds, where a minus sign and a plus sign stand for the
infinities.  A parsed bound is a string and a flag.  The string of a bound at
the member of one minus or plus sign is that of an infinity, so these bounds
mean something else to the commands and to the engine.
-/

namespace Pika.Command

open Foundation
open Binlog (Bytes)

/-! ## Bounds -/

/-- The values that strings are ordered by. -/
def byteValues (text : Bytes) : List Nat := text.map UInt8.toNat

/-- A bound of a lexicographic range. -/
inductive LexBound where
  | least
  | greatest
  | member (bound : Bound Bytes)
  deriving DecidableEq

namespace LexBound

/-- A member satisfies a lower bound. -/
def AtLeast : LexBound → Bytes → Prop
  | least, _ => True
  | greatest, _ => False
  | member bound, text => (bound.map byteValues).AtLeast (byteValues text)

/-- A member satisfies an upper bound. -/
def AtMost : LexBound → Bytes → Prop
  | least, _ => False
  | greatest, _ => True
  | member bound, text => (bound.map byteValues).AtMost (byteValues text)

instance : (bound : LexBound) → (text : Bytes) → Decidable (bound.AtLeast text)
  | least, _ => isTrue trivial
  | greatest, _ => isFalse id
  | member bound, text => inferInstanceAs
      (Decidable ((bound.map byteValues).AtLeast (byteValues text)))

instance : (bound : LexBound) → (text : Bytes) → Decidable (bound.AtMost text)
  | least, _ => isFalse id
  | greatest, _ => isTrue trivial
  | member bound, text => inferInstanceAs
      (Decidable ((bound.map byteValues).AtMost (byteValues text)))

/-- The bound that a raw bound means. -/
def ofRaw (raw : Bytes) : Option LexBound :=
  if raw = ascii "-" then some least
  else if raw = ascii "+" then some greatest
  else
    match raw with
    | [] => none
    | first :: text =>
      if first = 40 then some (member (.exclusive text))
      else if first = 91 then some (member (.closed text))
      else none

/-- What the engine takes a string and a flag for. -/
def ofString (close : Bool) (text : Bytes) : LexBound :=
  if text = ascii "-" then least
  else if text = ascii "+" then greatest
  else member (if close then .closed text else .exclusive text)

/-- A bound with the member of one minus or plus sign taken for an infinity. -/
def collapse : LexBound → LexBound
  | least => least
  | greatest => greatest
  | member bound =>
    if bound.value = ascii "-" then least
    else if bound.value = ascii "+" then greatest
    else member bound

theorem ofString_eq_greatest_iff : ofString close text = greatest ↔ text = ascii "+" := by
  have different : ascii "+" ≠ ascii "-" := by decide
  unfold ofString
  split_ifs with minus plus
  · simp [minus, different.symm]
  · simp [plus]
  · simp [plus]

theorem ofString_eq_least_iff : ofString close text = least ↔ text = ascii "-" := by
  unfold ofString
  split_ifs with minus plus
  · simp [minus]
  · simp [minus]
  · simp [minus]

/-- A parsed bound is the raw one, collapsed. -/
theorem map_ofString_memberBound (raw : Bytes) :
    (memberBound raw).map (fun parsed => ofString parsed.1 parsed.2) =
      (ofRaw raw).map collapse := by
  unfold memberBound ofRaw
  split_ifs with minus plus
  · rfl
  · rfl
  · cases raw with
    | nil => rfl
    | cons first text =>
      dsimp only
      split_ifs
      · rfl
      · rfl
      · rfl

end LexBound

/-- The lower bound that the engine sees. -/
def MemberRange.lower (range : MemberRange) : LexBound :=
  LexBound.ofString range.leftClose range.minMember

/-- The upper bound that the engine sees. -/
def MemberRange.upper (range : MemberRange) : LexBound :=
  LexBound.ofString range.rightClose range.maxMember

/-- The parsed range is the one between the raw bounds, collapsed. -/
theorem bounds_of_doMemberRange (parsed : doMemberRange rawMinMember rawMaxMember = some range) :
    ∃ lower upper, LexBound.ofRaw rawMinMember = some lower ∧
      LexBound.ofRaw rawMaxMember = some upper ∧
      range.lower = lower.collapse ∧ range.upper = upper.collapse := by
  have minimum := LexBound.map_ofString_memberBound rawMinMember
  have maximum := LexBound.map_ofString_memberBound rawMaxMember
  obtain ⟨first, readFirst, rest⟩ := Option.bind_eq_some_iff.mp parsed
  obtain ⟨second, readSecond, rfl⟩ := Option.map_eq_some_iff.mp rest
  rw [readFirst] at minimum
  rw [readSecond] at maximum
  obtain ⟨lower, rawLower, low⟩ := Option.map_eq_some_iff.mp minimum.symm
  obtain ⟨upper, rawUpper, high⟩ := Option.map_eq_some_iff.mp maximum.symm
  exact ⟨lower, upper, rawLower, rawUpper, low.symm, high.symm⟩

/-- The commands skip a range that begins at the greatest or ends at the least
bound. -/
theorem MemberRange.skips_iff (range : MemberRange) :
    range.Skips ↔ range.lower = .greatest ∨ range.upper = .least := by
  rw [MemberRange.lower, MemberRange.upper, LexBound.ofString_eq_greatest_iff,
    LexBound.ofString_eq_least_iff]
  rfl

/-! ## Ranges -/

/-- What a command asks for. -/
structure LexQuery where
  lower : LexBound
  upper : LexBound
  deriving DecidableEq

namespace LexQuery

/-- A member satisfies both bounds. -/
def holds (query : LexQuery) (text : Bytes) : Bool :=
  query.lower.AtLeast text && query.upper.AtMost text

/-- The members that satisfy both bounds. -/
def within (query : LexQuery) (members : List Bytes) : List Bytes := members.filter query.holds

/-- The members that do not satisfy both bounds. -/
def beyond (query : LexQuery) (members : List Bytes) : List Bytes :=
  members.filter fun text => !query.holds text

/-- The query with its bounds collapsed. -/
def collapse (query : LexQuery) : LexQuery where
  lower := query.lower.collapse
  upper := query.upper.collapse

/-- Nothing is asked for: the range is skipped. -/
def Void (query : LexQuery) : Prop := query.lower = .greatest ∨ query.upper = .least

instance (query : LexQuery) : Decidable query.Void := inferInstanceAs (Decidable (_ ∨ _))

/-- Collapsing the bounds makes no difference to the members of a set. -/
def Agrees (query : LexQuery) (members : List Bytes) : Prop :=
  ∀ text ∈ members, query.collapse.holds text = query.holds text

theorem within_collapse_eq_iff {query : LexQuery} :
    query.collapse.within members = query.within members ↔ query.Agrees members :=
  filter_eq_filter_iff

theorem beyond_collapse_eq_iff {query : LexQuery} :
    query.collapse.beyond members = query.beyond members ↔ query.Agrees members := by
  apply filter_eq_filter_iff.trans
  simp [Agrees]

theorem within_of_void {query : LexQuery} (void : query.Void) (members : List Bytes) :
    query.within members = [] := by
  apply List.filter_eq_nil_iff.mpr
  intro text _
  rcases void with lower | upper
  · simp [holds, lower, LexBound.AtLeast]
  · simp [holds, upper, LexBound.AtMost]

/-- A collapsed bound holds nothing or all that the bound holds. -/
theorem atLeast_collapse {bound : LexBound}
    (present : bound.collapse ≠ .greatest) (holds : bound.AtLeast text) :
    bound.collapse.AtLeast text := by
  cases bound with
  | least => trivial
  | greatest => exact absurd rfl present
  | member bound =>
    rw [LexBound.collapse] at present ⊢
    split_ifs at present ⊢
    · trivial
    · exact absurd rfl present
    · exact holds

theorem atMost_collapse {bound : LexBound} (present : bound.collapse ≠ .least)
    (holds : bound.AtMost text) :
    bound.collapse.AtMost text := by
  cases bound with
  | least => exact absurd rfl present
  | greatest => trivial
  | member bound =>
    rw [LexBound.collapse] at present ⊢
    split_ifs at present ⊢
    · exact absurd rfl present
    · trivial
    · exact holds

/-- Collapsed bounds are met by nothing or by all that meets the bounds, so
counting the members tells whether they are the same. -/
theorem length_within_collapse_eq_iff {query : LexQuery} :
    (query.collapse.within members).length = (query.within members).length ↔
      query.Agrees members := by
  rw [← within_collapse_eq_iff]
  constructor
  · intro lengths
    by_cases void : query.collapse.Void
    · rw [within_of_void void] at lengths ⊢
      exact (List.length_eq_zero_iff.mp lengths.symm).symm
    · obtain ⟨low, high⟩ := not_or.mp void
      have kept : ∀ text, query.holds text = true → query.collapse.holds text = true := by
        intro text holds
        simp only [LexQuery.holds, Bool.and_eq_true, decide_eq_true_eq] at holds ⊢
        exact ⟨atLeast_collapse low holds.1, atMost_collapse high holds.2⟩
      exact ((List.monotone_filter_right members kept).eq_of_length lengths.symm).symm
  · intro same
    rw [same]

end LexQuery

/-- The range that the engine sees. -/
def MemberRange.query (range : MemberRange) : LexQuery where
  lower := range.lower
  upper := range.upper

/-- An engine whose calls on members implement the range they are given, with
the strings of one minus and one plus sign as infinities. -/
structure LexEngine (Score Db : Type) extends SortedSetEngine Score Db where
  members : Db → Bytes → List Bytes
  finds : ∀ db key range, (zRangebylex db key range).1.Found ∧
      (zRangebylex db key range).2.items = range.query.within (members db key)
  counts : ∀ db key range, (zLexcount db key range).1.Found ∧
      (zLexcount db key range).2 = castInt32 (range.query.within (members db key)).length
  countsRemoved : ∀ db key range, (zRemrangebylex db key range).1.1.Found ∧
      (zRemrangebylex db key range).1.2 = castInt32 (range.query.within (members db key)).length
  removes : ∀ db key range other, members (zRemrangebylex db key range).2 other =
      if other = key then range.query.beyond (members db key)
      else members db other

/-! ## Commands -/

inductive LexCommand where
  | zRangebylex | zRevrangebylex | zLexcount | zRemrangebylex
  deriving DecidableEq

namespace LexCommand

/-- The arguments that are the lower and the upper bound. -/
def rawBounds (command : LexCommand) (argv : List Bytes) : Bytes × Bytes :=
  match command with
  | zRevrangebylex => (argument argv 3, argument argv 2)
  | zRangebylex | zLexcount | zRemrangebylex => (argument argv 2, argument argv 3)

/-- A command on a range is accepted without LIMIT. -/
def withoutLimit : Except CmdRet ZsetRangebylex → Bool
  | .error _ => false
  | .ok cmd => cmd.limit = .clear

/-- A command is accepted, without LIMIT. -/
def accepted (command : LexCommand) (argv : List Bytes) : Bool :=
  match command with
  | zRangebylex => withoutLimit (zRangebylexInitial argv)
  | zRevrangebylex => withoutLimit (zRevrangebylexInitial argv)
  | zLexcount => (zLexcountInitial argv).toBool
  | zRemrangebylex => (zRemrangebylexInitial argv).toBool

/-- What an accepted command without LIMIT asks for, by its own arguments. -/
def query (command : LexCommand) (argv : List Bytes) : Option LexQuery :=
  if command.accepted argv then
    (LexBound.ofRaw (command.rawBounds argv).1).bind fun lower =>
      (LexBound.ofRaw (command.rawBounds argv).2).map fun upper => { lower, upper }
  else none

section

variable {Score Db : Type}
variable (engine : LexEngine Score Db) (db : Db)

/-- The members of a key that satisfy both bounds. -/
def wanted (argv : List Bytes) (query : LexQuery) : List Bytes :=
  query.within (engine.members db (argument argv 1))

/-- A command acts on exactly the members that satisfy both bounds, and one
that counts or removes them replies with an integer. -/
def Answers (command : LexCommand) (argv : List Bytes) (query : LexQuery) : Prop :=
  match command with
  | zRangebylex =>
    (zRangebylexInitial argv).toOption.bind (zRangebylexDo engine.toSortedSetEngine db) =
      some (arrayReply (wanted engine db argv query))
  | zRevrangebylex =>
    (zRevrangebylexInitial argv).toOption.bind (zRevrangebylexDo engine.toSortedSetEngine db) =
      some (arrayReply (wanted engine db argv query).reverse)
  | zLexcount =>
    ((zLexcountInitial argv).toOption.map fun (key, range) =>
        zLexcountDo engine.toSortedSetEngine db key range) =
      some (CmdRes.ofTokens [.integer (wanted engine db argv query).length])
  | zRemrangebylex =>
    ((zRemrangebylexInitial argv).toOption.map fun (key, range) =>
        let (reply, after) := zRemrangebylexDo engine.toSortedSetEngine db key range
        (reply, engine.members after)) =
      some (CmdRes.ofTokens [.integer (wanted engine db argv query).length], fun other =>
          if other = argument argv 1 then query.beyond (engine.members db other)
          else engine.members db other)

/-- No member of the key is affected by a sign that is taken for an infinity.
The commands that count find what an `int32_t` can hold, and ZREMRANGEBYLEX,
which does not reply with an integer then, skips no range. -/
def Serves (command : LexCommand) (argv : List Bytes) (query : LexQuery) : Prop :=
  query.Agrees (engine.members db (argument argv 1)) ∧
    match command with
    | zRangebylex | zRevrangebylex => True
    | zLexcount => (wanted engine db argv query).length < 2 ^ 31
    | zRemrangebylex => ¬ query.collapse.Void ∧ (wanted engine db argv query).length < 2 ^ 31

end

/-! ## Parsing -/

/-- A parsed range is that of a query. -/
theorem eq_of_memberRangeInitial (initial : memberRangeInitial command name argv = .ok parsed) :
    parsed.1 = argument argv 1 ∧ ∃ lower upper, LexBound.ofRaw (argument argv 2) = some lower ∧
        LexBound.ofRaw (argument argv 3) = some upper ∧
        parsed.2.lower = lower.collapse ∧ parsed.2.upper = upper.collapse := by
  unfold memberRangeInitial at initial
  split_ifs at initial
  cases range : doMemberRange (argument argv 2) (argument argv 3) with
  | none =>
    rw [range] at initial
    cases initial
  | some found =>
    rw [range] at initial
    cases initial
    exact ⟨rfl, bounds_of_doMemberRange range⟩

theorem eq_of_zsetRangebylexInitial (initial : zsetRangebylexInitial command name argv = .ok cmd) :
    cmd.key = argument argv 1 ∧ ∃ lower upper, LexBound.ofRaw (argument argv 2) = some lower ∧
        LexBound.ofRaw (argument argv 3) = some upper ∧
        cmd.range.lower = lower.collapse ∧
        cmd.range.upper = upper.collapse := by
  unfold zsetRangebylexInitial at initial
  cases parsed : memberRangeInitial command name argv with
  | error code =>
    rw [parsed] at initial
    cases initial
  | ok found =>
    obtain ⟨key, range⟩ := found
    have bounds := eq_of_memberRangeInitial parsed
    rw [parsed] at initial
    dsimp only at initial
    split_ifs at initial
    · cases initial
      exact bounds
    · cases limit : limitArguments (argument argv 5) (argument argv 6) with
      | error code =>
        rw [limit] at initial
        cases initial
      | ok given =>
        rw [limit] at initial
        cases initial
        exact bounds

theorem mem_query_iff {command : LexCommand} {query : LexQuery} :
    query ∈ command.query argv ↔ command.accepted argv = true ∧
        LexBound.ofRaw (command.rawBounds argv).1 = some query.lower ∧
        LexBound.ofRaw (command.rawBounds argv).2 = some query.upper := by
  unfold LexCommand.query
  split_ifs with accepts
  · cases LexBound.ofRaw (command.rawBounds argv).1 with
    | none => simp
    | some lower =>
      cases LexBound.ofRaw (command.rawBounds argv).2 with
      | none => simp
      | some upper =>
        obtain ⟨first, second⟩ := query
        simp [accepts]
  · simp [accepts]

theorem eq_of_withoutLimit {initial : Except CmdRet ZsetRangebylex}
    (accepts : withoutLimit initial = true) :
    ∃ cmd, initial = .ok cmd ∧ cmd.limit = .clear := by
  cases initial with
  | error code => cases accepts
  | ok cmd => exact ⟨cmd, rfl, of_decide_eq_true accepts⟩

theorem zRangebylexInitial_of_query {query : LexQuery} (asked : query ∈ zRangebylex.query argv) :
    ∃ range, zRangebylexInitial argv = .ok { key := argument argv 1, range, limit := .clear } ∧
      range.query = query.collapse := by
  obtain ⟨accepts, low, high⟩ := mem_query_iff.mp asked
  obtain ⟨⟨key, range, limit⟩, initial, rfl⟩ := eq_of_withoutLimit accepts
  obtain ⟨rfl, lower, upper, first, second, sameLow, sameHigh⟩ :=
    eq_of_zsetRangebylexInitial initial
  cases first.symm.trans low
  cases second.symm.trans high
  refine ⟨range, initial, ?_⟩
  rw [MemberRange.query, sameLow, sameHigh]
  rfl

theorem zRevrangebylexInitial_of_query {query : LexQuery}
    (asked : query ∈ zRevrangebylex.query argv) :
    ∃ range, zRevrangebylexInitial argv = .ok { key := argument argv 1, range, limit := .clear } ∧
      range.query = query.collapse := by
  obtain ⟨accepts, low, high⟩ := mem_query_iff.mp asked
  obtain ⟨cmd, initial, clear⟩ := eq_of_withoutLimit accepts
  obtain ⟨⟨key, range, limit⟩, parsed, rfl⟩ := Except.map_eq_ok_iff.mp initial
  obtain ⟨rfl, lower, upper, first, second, sameLow, sameHigh⟩ :=
    eq_of_zsetRangebylexInitial parsed
  cases first.symm.trans high
  cases second.symm.trans low
  cases clear
  refine ⟨range.swap, initial, ?_⟩
  -- The lower end of the exchanged range is the upper end of the parsed one.
  have exchanged : range.swap.query = ⟨range.upper, range.lower⟩ := rfl
  rw [exchanged, sameLow, sameHigh]
  rfl

theorem memberRangeInitial_of_query (query : LexQuery)
    (accepts : (memberRangeInitial command name argv).toBool = true)
    (low : LexBound.ofRaw (argument argv 2) = some query.lower)
    (high : LexBound.ofRaw (argument argv 3) = some query.upper) :
    ∃ range, memberRangeInitial command name argv = .ok (argument argv 1, range) ∧
      range.query = query.collapse := by
  cases parsed : memberRangeInitial command name argv with
  | error code =>
    rw [parsed] at accepts
    cases accepts
  | ok found =>
    obtain ⟨key, range⟩ := found
    obtain ⟨rfl, lower, upper, first, second, sameLow, sameHigh⟩ := eq_of_memberRangeInitial parsed
    cases first.symm.trans low
    cases second.symm.trans high
    refine ⟨range, rfl, ?_⟩
    rw [MemberRange.query, sameLow, sameHigh]
    rfl

/-! ## Replies -/

section

variable {Score Db : Type}
variable (engine : LexEngine Score Db) (db : Db)

/-- A range that is skipped has no members, so the commands list what the
engine would find. -/
theorem listed_eq_some (key : Bytes) (range : MemberRange)
    (strings : List Bytes → List (List Bytes)) (empty : strings [] = []) :
    RangeCmd.listed range.Skips (engine.zRangebylex db key range) strings =
      some (strings (range.query.within (engine.members db key))) := by
  rw [RangeCmd.listed_of_found (engine.finds db key range)]
  split_ifs with skips
  · have void : range.query.Void := range.skips_iff.mp skips
    rw [LexQuery.within_of_void void, empty]
  · rfl

theorem zRangebylexDo_clear (key : Bytes) (range : MemberRange) :
    zRangebylexDo engine.toSortedSetEngine db
        { key, range, limit := .clear } =
      some (arrayReply (range.query.within (engine.members db key))) := by
  have listed := listed_eq_some engine db key range (List.map fun member => [member]) rfl
  rw [← sliceReply_clear_members]
  refine RangeCmd.answered_eq_sliceReply ?_ listed
  exact RangeCmd.answerUpwards_members_eq_sliceReply RangeCmd.castUInt64_kept .clear

theorem zRevrangebylexDo_clear (key : Bytes) (range : MemberRange) :
    zRevrangebylexDo engine.toSortedSetEngine db
        { key, range, limit := .clear } =
      some (arrayReply (range.query.within (engine.members db key)).reverse) := by
  have listed := listed_eq_some engine db key range
    (fun members => members.reverse.map fun member => [member]) rfl
  rw [← sliceReply_clear_members]
  refine RangeCmd.answered_eq_sliceReply ?_ listed
  exact RangeCmd.answerDownwards_eq_sliceReply .clear

/-- A range that is skipped is counted as the engine would count it. -/
theorem zLexcountDo_eq (key : Bytes) (range : MemberRange) :
    zLexcountDo engine.toSortedSetEngine db key range = CmdRes.ofTokens
        [.integer (castInt32 (range.query.within (engine.members db key)).length)] := by
  unfold zLexcountDo
  split_ifs with skips
  · have void : range.query.Void := range.skips_iff.mp skips
    rw [LexQuery.within_of_void void]
    decide +kernel
  · exact countReply_of_found (engine.counts db key range)

variable (argv : List Bytes) (query : LexQuery)

theorem answers_zRangebylex_iff (asked : query ∈ zRangebylex.query argv) :
    zRangebylex.Answers engine db argv query ↔ zRangebylex.Serves engine db argv query := by
  obtain ⟨range, initial, collapsed⟩ := zRangebylexInitial_of_query asked
  have reply := zRangebylexDo_clear engine db (argument argv 1) range
  rw [collapsed] at reply
  unfold Answers
  rw [initial]
  apply (Eq.congr_left reply).trans
  rw [Option.some.injEq, arrayReply_injective.eq_iff]
  exact LexQuery.within_collapse_eq_iff.trans (and_iff_left trivial).symm

theorem answers_zRevrangebylex_iff (asked : query ∈ zRevrangebylex.query argv) :
    zRevrangebylex.Answers engine db argv query ↔ zRevrangebylex.Serves engine db argv query := by
  obtain ⟨range, initial, collapsed⟩ := zRevrangebylexInitial_of_query asked
  have reply := zRevrangebylexDo_clear engine db (argument argv 1) range
  rw [collapsed] at reply
  unfold Answers
  rw [initial]
  apply (Eq.congr_left reply).trans
  rw [Option.some.injEq, arrayReply_injective.eq_iff, List.reverse_injective.eq_iff]
  exact LexQuery.within_collapse_eq_iff.trans (and_iff_left trivial).symm

/-- A count that wraps around by less than once is not taken for another. -/
theorem answers_zLexcount_iff (asked : query ∈ zLexcount.query argv)
    (small : (engine.members db (argument argv 1)).length < 2 ^ 32) :
    zLexcount.Answers engine db argv query ↔ zLexcount.Serves engine db argv query := by
  obtain ⟨accepts, low, high⟩ := mem_query_iff.mp asked
  obtain ⟨range, initial, collapsed⟩ := memberRangeInitial_of_query query accepts low high
  have reply := zLexcountDo_eq engine db (argument argv 1) range
  rw [collapsed] at reply
  unfold Answers Serves zLexcountInitial
  rw [initial]
  simp only [Except.toOption, Option.map_some, Option.some.injEq]
  rw [reply, integer_ofTokens_inj, ← LexQuery.length_within_collapse_eq_iff]
  have bound := List.length_filter_le query.collapse.holds (engine.members db (argument argv 1))
  exact castInt32_eq_natCast_iff_of_lt (lt_of_le_of_lt bound small)

/-- The set that is left tells whether the bounds were collapsed. -/
theorem answers_zRemrangebylex_iff (asked : query ∈ zRemrangebylex.query argv) :
    zRemrangebylex.Answers engine db argv query ↔ zRemrangebylex.Serves engine db argv query := by
  obtain ⟨accepts, low, high⟩ := mem_query_iff.mp asked
  obtain ⟨range, initial, collapsed⟩ := memberRangeInitial_of_query query accepts low high
  have skips : range.Skips ↔ query.collapse.Void := by
    rw [← collapsed]
    exact range.skips_iff
  have counted := countReply_of_found (engine.countsRemoved db (argument argv 1) range)
  have removed := engine.removes db (argument argv 1) range
  rw [collapsed] at counted removed
  unfold Answers Serves zRemrangebylexInitial
  rw [initial]
  simp only [Except.toOption, Option.map_some, Option.some.injEq, zRemrangebylexDo]
  by_cases void : query.collapse.Void
  · rw [if_pos (skips.mpr void)]
    apply iff_of_false
    · intro same
      exact contentReply_ne_integer _ (Prod.mk.inj same).1
    · intro serves
      exact serves.2.1 void
  · rw [if_neg (fun skipped => void (skips.mp skipped))]
    simp only [void, not_false_eq_true, true_and, Prod.mk.injEq]
    rw [counted, integer_ofTokens_inj, funext_iff]
    constructor
    · intro both
      have left := both.2 (argument argv 1)
      rw [removed, if_pos rfl, if_pos rfl] at left
      have agrees := LexQuery.beyond_collapse_eq_iff.mp left
      refine ⟨agrees, ?_⟩
      rw [← castInt32_eq_natCast_iff, ← both.1, LexQuery.within_collapse_eq_iff.mpr agrees]
      exact castInt32_castInt32 _
    · intro serves
      rw [LexQuery.within_collapse_eq_iff.mpr serves.1]
      refine ⟨(castInt32_eq_natCast_iff _).mpr serves.2, ?_⟩
      intro other
      rw [removed, LexQuery.beyond_collapse_eq_iff.mpr serves.1]
      split_ifs with same
      · rw [same]
      · rfl

/-- The commands on members act on exactly those between the raw bounds, unless
a bound at a member of one sign is taken for an infinity or a count does not
fit.  A count of ZLEXCOUNT may wrap around to the right one only on a set of
`2 ^ 32` members or more. -/
theorem lexAnswers_iff_serves (command : LexCommand)
    (small : command = zLexcount → (engine.members db (argument argv 1)).length < 2 ^ 32) :
    (∀ query ∈ command.query argv, command.Answers engine db argv query) ↔
      ∀ query ∈ command.query argv, command.Serves engine db argv query := by
  apply forall_congr'
  intro query
  apply forall_congr'
  intro asked
  cases command with
  | zRangebylex => exact answers_zRangebylex_iff engine db argv query asked
  | zRevrangebylex => exact answers_zRevrangebylex_iff engine db argv query asked
  | zLexcount => exact answers_zLexcount_iff engine db argv query asked (small rfl)
  | zRemrangebylex => exact answers_zRemrangebylex_iff engine db argv query asked

end

/-! ## A bound at the member of one sign -/

/-- An engine that keeps every set in memory. -/
def memoryEngine : LexEngine Unit (Bytes → StdVector Bytes) where
  members db key := (db key).items
  zRangebylex db key range := (.ok, (db key).filter range.query.holds)
  zLexcount db key range := (.ok, castInt32 (range.query.within (db key).items).length)
  zRemrangebylex db key range :=
    ((.ok, castInt32 (range.query.within (db key).items).length),
      Function.update db key ((db key).filter fun text => !range.query.holds text))
  zRangebyscore _ _ _ := (.ok, { items := [], bounded := by decide })
  zRevrangebyscore _ _ _ := (.ok, { items := [], bounded := by decide })
  zCount _ _ _ := (.ok, 0)
  zRemrangebyscore db _ _ := ((.ok, 0), db)
  finds _ _ _ := ⟨trivial, rfl⟩
  counts _ _ _ := ⟨trivial, by dsimp only⟩
  countsRemoved _ _ _ := ⟨trivial, by dsimp only⟩
  removes := by
    intro db key range other
    simp only [Function.update_apply]
    split_ifs <;> rfl

/-- Sets with the members `a` and `c`. -/
def letterMembers (_key : Bytes) : StdVector Bytes where
  items := [ascii "a", ascii "c"]
  bounded := by decide

/-- The number of members up to `b`. -/
def upToLetter : List Bytes := ["zlexcount", "z", "-", "[b"].map ascii

/-- One of two members is counted. -/
theorem lexAnswers_upToLetter :
    (zLexcount.query upToLetter).isSome ∧ ∀ query ∈ zLexcount.query upToLetter,
      zLexcount.Answers memoryEngine letterMembers upToLetter query := by
  refine ⟨by decide +kernel, ?_⟩
  refine (lexAnswers_iff_serves memoryEngine letterMembers upToLetter zLexcount ?_).mpr ?_
  · intro _
    decide
  · have asked : zLexcount.query upToLetter =
        some { lower := .least, upper := .member (.closed (ascii "b")) } := by
      decide +kernel
    intro query given
    rw [asked] at given
    cases given
    refine ⟨?_, by decide +kernel⟩
    unfold LexQuery.Agrees
    decide +kernel

/-- The members up to the one of one plus sign. -/
def upToPlus : List Bytes := ["zrangebylex", "z", "-", "[+"].map ascii

/-- A member above the upper bound is returned. -/
theorem not_answers_upToPlus :
    ¬ ∀ query ∈ zRangebylex.query upToPlus,
      zRangebylex.Answers memoryEngine letterMembers upToPlus query := by
  intro answers
  have asked : { lower := .least, upper := .member (.closed (ascii "+")) } ∈
      zRangebylex.query upToPlus := by
    decide +kernel
  have agrees := (answers_zRangebylex_iff _ _ _ _ asked).mp (answers _ asked)
  have same := agrees.1 (ascii "a") (by decide)
  exact absurd same (by decide)

end LexCommand

end Pika.Command
