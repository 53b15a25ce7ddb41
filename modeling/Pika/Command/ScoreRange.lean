import Pika.Command.LimitSlice
import Pika.Foundation.Bound

/-!
# Members between two scores

ZRANGEBYSCORE, ZREVRANGEBYSCORE, ZCOUNT and ZREMRANGEBYSCORE act on the members
whose score is between two bounds.  Each of them first skips a range that
begins at the greatest score or ends at the least one, although members may
have these scores.
-/

namespace Pika.Command

open Foundation
open Binlog (Bytes)

/-! ## Bounds -/

section

variable {Score : Type} [LinearOrder Score] [BoundedOrder Score]

/-- The lower bound of a range. -/
def ScoreRange.lower (range : ScoreRange Score) : Bound Score :=
  if range.leftClose then .closed range.minScore else .exclusive range.minScore

/-- The upper bound of a range. -/
def ScoreRange.upper (range : ScoreRange Score) : Bound Score :=
  if range.rightClose then .closed range.maxScore else .exclusive range.maxScore

def ScoreRange.contains (range : ScoreRange Score) (member : ScoreMember Score) : Bool :=
  range.lower.AtLeast member.score && range.upper.AtMost member.score

/-- The range between two bounds. -/
def rangeOf (lower upper : Bound Score) : ScoreRange Score where
  minScore := lower.value
  maxScore := upper.value
  leftClose := lower.isClosed
  rightClose := upper.isClosed

omit [LinearOrder Score] [BoundedOrder Score] in
@[simp] theorem lower_rangeOf (lower upper : Bound Score) :
    (rangeOf lower upper).lower = lower := by
  cases lower <;> rfl

omit [LinearOrder Score] [BoundedOrder Score] in
@[simp] theorem upper_rangeOf (lower upper : Bound Score) :
    (rangeOf lower upper).upper = upper := by
  cases upper <;> rfl

variable (texts : ScoreTexts Score)

/-- The bound that a text means: a score, an infinity, or one of them behind a
parenthesis that excludes it. -/
def boundOf (text : Bytes) : Option (Bound Score) :=
  if text.head? = some 40 then (zsetString2d texts text.tail).map Bound.exclusive
  else (zsetString2d texts text).map Bound.closed

theorem scoreBound_eq_map_boundOf (text : Bytes) :
    scoreBound texts text =
      (boundOf texts text).map fun bound => (bound.isClosed, bound.value) := by
  -- `DoScoreStrRange` looks for the infinities itself, before `zset_string2d`.
  have infinities : ∀ (close : Bool) (text : Bytes), (if text = ascii "-inf" then some (close, ⊥)
        else if text = ascii "inf" ∨ text = ascii "+inf" then some (close, ⊤)
        else (zsetString2d texts text).map fun score => (close, score)) =
      (zsetString2d texts text).map fun score => (close, score) := by
    intro close text
    unfold zsetString2d
    split_ifs <;> simp_all
  unfold scoreBound boundOf
  simp only [infinities]
  by_cases excluded : text.head? = some 40
  · simp [excluded, Bound.isClosed, Bound.value, Function.comp_def]
  · have close : (text.head? != some 40) = true := bne_iff_ne.mpr excluded
    simp [close, excluded, Bound.isClosed, Bound.value, Function.comp_def]

/-- The parsed range is the one between the bounds that the texts mean. -/
theorem doScoreStrRange_eq_some_iff :
    doScoreStrRange texts beginScore endScore = some range ↔
      ∃ lower upper, boundOf texts beginScore = some lower ∧
        boundOf texts endScore = some upper ∧ rangeOf lower upper = range := by
  unfold doScoreStrRange
  rw [scoreBound_eq_map_boundOf, scoreBound_eq_map_boundOf]
  cases boundOf texts beginScore with
  | none => simp
  | some lower =>
    cases boundOf texts endScore with
    | none => simp
    | some upper => simp [rangeOf]

end

/-! ## The engine -/

/-- An engine whose range calls implement the interval they are given, on the
sorted sets of a database.  A set is listed by its scores. -/
structure IntervalEngine (Score Db : Type) [LinearOrder Score] extends
    SortedSetEngine Score Db where
  zset : Db → Bytes → List (ScoreMember Score)
  finds : ∀ db key range, (zRangebyscore db key range).1.Found ∧
      (zRangebyscore db key range).2.items =
        between range.lower range.upper ScoreMember.score (zset db key)
  findsReversed : ∀ db key range, (zRevrangebyscore db key range).1.Found ∧
      (zRevrangebyscore db key range).2.items =
        (between range.lower range.upper ScoreMember.score (zset db key)).reverse
  counts : ∀ db key range, (zCount db key range).1.Found ∧ (zCount db key range).2 =
        castInt32 (between range.lower range.upper ScoreMember.score (zset db key)).length
  removes : ∀ db key range, (zRemrangebyscore db key range).1.1.Found ∧
      ∀ other, zset (zRemrangebyscore db key range).2 other =
        if other = key then outside range.lower range.upper ScoreMember.score (zset db key)
        else zset db other

/-! ## Commands -/

inductive ScoreCommand where
  | zRangebyscore | zRevrangebyscore | zCount | zRemrangebyscore
  deriving DecidableEq

/-- What a command without LIMIT asks for. -/
structure ScoreQuery (Score : Type) where
  lower : Bound Score
  upper : Bound Score
  /-- Whether WITHSCORES is given. -/
  withScores : Bool
  deriving DecidableEq

/-- Whether WITHSCORES is given, in a command without LIMIT. -/
def ZsetRangebyscore.withoutLimit (cmd : ZsetRangebyscore Score) : Option Bool :=
  if cmd.limit = .clear then some cmd.withScores else none

namespace ScoreCommand

/-- The arguments that are the lower and the upper bound. -/
def boundTexts (command : ScoreCommand) (argv : List Bytes) : Bytes × Bytes :=
  match command with
  | zRevrangebyscore => (argument argv 3, argument argv 2)
  | zRangebyscore | zCount | zRemrangebyscore => (argument argv 2, argument argv 3)

section

variable {Score Db : Type} [LinearOrder Score] [BoundedOrder Score]
variable (texts : ScoreTexts Score)

/-- Whether WITHSCORES is given, in an accepted command without LIMIT. -/
def accepted (command : ScoreCommand) (argv : List Bytes) : Option Bool :=
  match command with
  | zRangebyscore => (zRangebyscoreInitial texts argv).toOption.bind ZsetRangebyscore.withoutLimit
  | zRevrangebyscore =>
    (zRevrangebyscoreInitial texts argv).toOption.bind ZsetRangebyscore.withoutLimit
  | zCount => (zCountInitial texts argv).toOption.map fun _ => false
  | zRemrangebyscore => (zRemrangebyscoreInitial texts argv).toOption.map fun _ => false

/-- What an accepted command without LIMIT asks for, by its own arguments. -/
def query (command : ScoreCommand) (argv : List Bytes) : Option (ScoreQuery Score) :=
  (command.accepted texts argv).bind fun withScores =>
    (boundOf texts (command.boundTexts argv).1).bind fun lower =>
      (boundOf texts (command.boundTexts argv).2).map fun upper => { lower, upper, withScores }

variable (engine : IntervalEngine Score Db) (db : Db)

/-- The members of a key that satisfy both bounds. -/
def wanted (argv : List Bytes) (query : ScoreQuery Score) : List (ScoreMember Score) :=
  between query.lower query.upper ScoreMember.score (engine.zset db (argument argv 1))

/-- A command returns, counts or removes exactly the members that satisfy both
bounds. -/
def Answers (command : ScoreCommand) (argv : List Bytes) (query : ScoreQuery Score) : Prop :=
  match command with
  | zRangebyscore =>
    (zRangebyscoreInitial texts argv).toOption.bind
        (zRangebyscoreDo texts engine.toSortedSetEngine db) =
      some (arrayReply ((wanted engine db argv query).flatMap
        (scoreStrings texts query.withScores)))
  | zRevrangebyscore =>
    (zRevrangebyscoreInitial texts argv).toOption.bind
        (zRevrangebyscoreDo texts engine.toSortedSetEngine db) =
      some (arrayReply ((wanted engine db argv query).reverse.flatMap
        (scoreStrings texts query.withScores)))
  | zCount =>
    ((zCountInitial texts argv).toOption.map fun (key, range) =>
        zCountDo engine.toSortedSetEngine db key range) =
      some (CmdRes.ofTokens [.integer (wanted engine db argv query).length])
  | zRemrangebyscore =>
    ((zRemrangebyscoreInitial texts argv).toOption.map fun (key, range) =>
        engine.zset (zRemrangebyscoreDo engine.toSortedSetEngine db key range).2) =
      some fun other =>
        if other = argument argv 1 then
          outside query.lower query.upper ScoreMember.score (engine.zset db other)
        else engine.zset db other

/-- A range that the commands skip. -/
def Extreme (query : ScoreQuery Score) : Prop := query.lower.value = ⊤ ∨ query.upper.value = ⊥

/-- A range is skipped only where nothing is in it; ZCOUNT, which then does not
reply with an integer, skips none and counts what an `int32_t` can hold. -/
def Serves (command : ScoreCommand) (argv : List Bytes) (query : ScoreQuery Score) : Prop :=
  match command with
  | zCount => ¬ Extreme query ∧ (wanted engine db argv query).length < 2 ^ 31
  | zRangebyscore | zRevrangebyscore | zRemrangebyscore =>
    Extreme query → wanted engine db argv query = []

end

/-! ## Parsing -/

section

variable {Score : Type} [LinearOrder Score] [BoundedOrder Score]
variable {texts : ScoreTexts Score}

theorem eq_of_scoreRangeInitial (initial : scoreRangeInitial texts command name argv = .ok parsed) :
    ∃ lower upper, boundOf texts (argument argv 2) = some lower ∧
      boundOf texts (argument argv 3) = some upper ∧
      parsed = (argument argv 1, rangeOf lower upper) := by
  unfold scoreRangeInitial at initial
  split_ifs at initial
  cases range : doScoreStrRange texts (argument argv 2) (argument argv 3) with
  | none =>
    rw [range] at initial
    cases initial
  | some found =>
    rw [range] at initial
    cases initial
    obtain ⟨lower, upper, first, second, rfl⟩ := (doScoreStrRange_eq_some_iff texts).mp range
    exact ⟨lower, upper, first, second, rfl⟩

theorem eq_of_zsetRangebyscoreInitial
    (initial : zsetRangebyscoreInitial texts command name argv = .ok cmd) :
    ∃ lower upper, boundOf texts (argument argv 2) = some lower ∧
      boundOf texts (argument argv 3) = some upper ∧
      cmd.key = argument argv 1 ∧ cmd.range = rangeOf lower upper := by
  unfold zsetRangebyscoreInitial at initial
  cases parsed : scoreRangeInitial texts command name argv with
  | error code =>
    rw [parsed] at initial
    cases initial
  | ok found =>
    obtain ⟨lower, upper, first, second, rfl⟩ := eq_of_scoreRangeInitial parsed
    rw [parsed] at initial
    cases options : rangeOptions (argv.drop 4) false LimitFields.clear with
    | error code =>
      simp only [options] at initial
      cases initial
    | ok given =>
      simp only [options] at initial
      cases initial
      exact ⟨lower, upper, first, second, rfl, rfl⟩

theorem mem_query_iff {command : ScoreCommand} {query : ScoreQuery Score} :
    query ∈ command.query texts argv ↔ command.accepted texts argv = some query.withScores ∧
        boundOf texts (command.boundTexts argv).1 = some query.lower ∧
        boundOf texts (command.boundTexts argv).2 = some query.upper := by
  unfold ScoreCommand.query
  cases command.accepted texts argv with
  | none => simp
  | some withScores =>
    cases boundOf texts (command.boundTexts argv).1 with
    | none => simp
    | some lower =>
      cases boundOf texts (command.boundTexts argv).2 with
      | none => simp
      | some upper =>
        obtain ⟨first, second, scores⟩ := query
        simp
        tauto

/-- The command that a query is executed as. -/
def ScoreQuery.cmd (query : ScoreQuery Score) (key : Bytes) : ZsetRangebyscore Score where
  key := key
  range := rangeOf query.lower query.upper
  withScores := query.withScores
  limit := .clear

omit [LinearOrder Score] [BoundedOrder Score] in
theorem eq_of_withoutLimit {initial : Except CmdRet (ZsetRangebyscore Score)}
    (accepts : initial.toOption.bind ZsetRangebyscore.withoutLimit = some withScores) :
    ∃ cmd, initial = .ok cmd ∧ cmd.limit = .clear ∧ cmd.withScores = withScores := by
  obtain ⟨cmd, parsed, scores⟩ := Option.bind_eq_some_iff.mp accepts
  cases initial with
  | error code => cases parsed
  | ok found =>
    cases parsed
    unfold ZsetRangebyscore.withoutLimit at scores
    split_ifs at scores with clear
    exact ⟨_, rfl, clear, Option.some.inj scores⟩

theorem zRangebyscoreInitial_of_query {query : ScoreQuery Score}
    (asked : query ∈ zRangebyscore.query texts argv) :
    zRangebyscoreInitial texts argv = .ok (ScoreQuery.cmd query (argument argv 1)) := by
  obtain ⟨accepts, low, high⟩ := mem_query_iff.mp asked
  obtain ⟨⟨key, range, scores, limit⟩, initial, rfl, rfl⟩ := eq_of_withoutLimit accepts
  obtain ⟨lower, upper, first, second, rfl, rfl⟩ := eq_of_zsetRangebyscoreInitial initial
  cases first.symm.trans low
  cases second.symm.trans high
  exact initial

theorem zRevrangebyscoreInitial_of_query {query : ScoreQuery Score}
    (asked : query ∈ zRevrangebyscore.query texts argv) :
    zRevrangebyscoreInitial texts argv = .ok (ScoreQuery.cmd query (argument argv 1)) := by
  obtain ⟨accepts, low, high⟩ := mem_query_iff.mp asked
  obtain ⟨cmd, initial, clear, scores⟩ := eq_of_withoutLimit accepts
  obtain ⟨⟨key, range, withScores, limit⟩, parsed, rfl⟩ := Except.map_eq_ok_iff.mp initial
  obtain ⟨lower, upper, first, second, rfl, rfl⟩ := eq_of_zsetRangebyscoreInitial parsed
  cases first.symm.trans high
  cases second.symm.trans low
  cases clear
  cases scores
  exact initial

theorem scoreRangeInitial_of_query
    (accepts : ((scoreRangeInitial texts command name argv).toOption.map fun _ => false).isSome)
    (low : boundOf texts (argument argv 2) = some lower)
    (high : boundOf texts (argument argv 3) = some upper) :
    scoreRangeInitial texts command name argv = .ok (argument argv 1, rangeOf lower upper) := by
  cases parsed : scoreRangeInitial texts command name argv with
  | error code =>
    rw [parsed] at accepts
    cases accepts
  | ok found =>
    obtain ⟨first, second, sameLow, sameHigh, rfl⟩ := eq_of_scoreRangeInitial parsed
    cases sameLow.symm.trans low
    cases sameHigh.symm.trans high
    rfl

theorem zCountInitial_of_query {query : ScoreQuery Score}
    (asked : query ∈ zCount.query texts argv) :
    zCountInitial texts argv = .ok (argument argv 1, rangeOf query.lower query.upper) := by
  obtain ⟨accepts, low, high⟩ := mem_query_iff.mp asked
  apply scoreRangeInitial_of_query _ low high
  exact Option.isSome_of_eq_some accepts

theorem zRemrangebyscoreInitial_of_query {query : ScoreQuery Score}
    (asked : query ∈ zRemrangebyscore.query texts argv) :
    zRemrangebyscoreInitial texts argv =
      .ok (argument argv 1, rangeOf query.lower query.upper) := by
  obtain ⟨accepts, low, high⟩ := mem_query_iff.mp asked
  apply scoreRangeInitial_of_query _ low high
  exact Option.isSome_of_eq_some accepts

end

/-! ## Replies -/

section

variable {Score Db : Type} [LinearOrder Score] [BoundedOrder Score]
variable (texts : ScoreTexts Score) (engine : IntervalEngine Score Db) (db : Db)
variable (argv : List Bytes) (query : ScoreQuery Score)

omit [LinearOrder Score] [BoundedOrder Score] in
theorem flatMap_scoreStrings_eq_nil_iff (withScores : Bool) (members : List (ScoreMember Score)) :
    members.flatMap (scoreStrings texts withScores) = [] ↔ members = [] := by
  constructor
  · intro empty
    cases members with
    | nil => rfl
    | cons member members => cases withScores <;> cases empty
  · rintro rfl
    rfl

/-- A command that lists members without LIMIT replies with all it is given,
unless its range is skipped. -/
theorem run_eq_some_arrayReply {cmd : RangeCmd Score} (limit : cmd.limit = .clear)
    (fetches : cmd.fetched texts engine.toSortedSetEngine db =
      RangeCmd.listed (rangeOf query.lower query.upper).Skips answer
        (List.map (scoreStrings texts query.withScores)))
    (found : answer.1.Found ∧ answer.2.items = members) :
    cmd.run texts engine.toSortedSetEngine db = some (arrayReply
        ((if (rangeOf query.lower query.upper).Skips then []
          else members).flatMap (scoreStrings texts query.withScores))) := by
  have given : cmd.fetched texts engine.toSortedSetEngine db = some
      ((if (rangeOf query.lower query.upper).Skips then []
        else members).map (scoreStrings texts query.withScores)) := by
    rw [fetches, RangeCmd.listed_of_found found]
    split_ifs <;> rfl
  rw [RangeCmd.run_of_mem_fetched _ _ _ given, limit, sliceReply_clear, List.flatMap_def]

/-- A list that is given, unless the range is skipped, is replied exactly if
nothing is skipped. -/
theorem arrayReply_unless_iff (members : List (ScoreMember Score)) :
    some (arrayReply ((if (rangeOf query.lower query.upper).Skips then []
        else members).flatMap (scoreStrings texts query.withScores))) =
      some (arrayReply (members.flatMap (scoreStrings texts query.withScores))) ↔
      (Extreme query → members = []) := by
  rw [Option.some.injEq, arrayReply_injective.eq_iff]
  by_cases skips : (rangeOf query.lower query.upper).Skips
  · have extreme : Extreme query := skips
    rw [if_pos skips, List.flatMap_nil, eq_comm, flatMap_scoreStrings_eq_nil_iff]
    simp [extreme]
  · have notExtreme : ¬ Extreme query := skips
    rw [if_neg skips]
    simp [notExtreme]

theorem answers_zRangebyscore_iff (asked : query ∈ zRangebyscore.query texts argv) :
    zRangebyscore.Answers texts engine db argv query ↔
      zRangebyscore.Serves engine db argv query := by
  have found := engine.finds db (argument argv 1) (rangeOf query.lower query.upper)
  rw [lower_rangeOf, upper_rangeOf] at found
  have reply : RangeCmd.run texts engine.toSortedSetEngine db
      (.zRangebyscore (ScoreQuery.cmd query (argument argv 1))) = _ :=
    run_eq_some_arrayReply texts engine db query rfl rfl found
  unfold Answers
  rw [zRangebyscoreInitial_of_query asked]
  exact (Eq.congr_left reply).trans (arrayReply_unless_iff texts query _)

theorem answers_zRevrangebyscore_iff (asked : query ∈ zRevrangebyscore.query texts argv) :
    zRevrangebyscore.Answers texts engine db argv query ↔
      zRevrangebyscore.Serves engine db argv query := by
  have found := engine.findsReversed db (argument argv 1) (rangeOf query.lower query.upper)
  rw [lower_rangeOf, upper_rangeOf] at found
  have reply : RangeCmd.run texts engine.toSortedSetEngine db
      (.zRevrangebyscore (ScoreQuery.cmd query (argument argv 1))) = _ :=
    run_eq_some_arrayReply texts engine db query rfl rfl found
  unfold Answers Serves
  rw [zRevrangebyscoreInitial_of_query asked, ← List.reverse_eq_nil_iff]
  exact (Eq.congr_left reply).trans (arrayReply_unless_iff texts query _)

theorem answers_zCount_iff (asked : query ∈ zCount.query texts argv) :
    zCount.Answers texts engine db argv query ↔ zCount.Serves engine db argv query := by
  have found := engine.counts db (argument argv 1) (rangeOf query.lower query.upper)
  rw [lower_rangeOf, upper_rangeOf] at found
  unfold Answers Serves
  rw [zCountInitial_of_query asked]
  simp only [Except.toOption, Option.map_some, Option.some.injEq, zCountDo]
  by_cases skips : (rangeOf query.lower query.upper).Skips
  · rw [if_pos skips]
    apply iff_of_false (contentReply_ne_integer _)
    intro serves
    exact serves.1 skips
  · have notExtreme : ¬ Extreme query := skips
    rw [if_neg skips, countReply_of_found found, integer_ofTokens_inj]
    apply (castInt32_eq_natCast_iff _).trans
    simp only [notExtreme, not_false_eq_true, true_and]
    rfl

theorem answers_zRemrangebyscore_iff (asked : query ∈ zRemrangebyscore.query texts argv) :
    zRemrangebyscore.Answers texts engine db argv query ↔
      zRemrangebyscore.Serves engine db argv query := by
  have removed := (engine.removes db (argument argv 1) (rangeOf query.lower query.upper)).2
  rw [lower_rangeOf, upper_rangeOf] at removed
  unfold Answers Serves
  rw [zRemrangebyscoreInitial_of_query asked]
  simp only [Except.toOption, Option.map_some, Option.some.injEq, zRemrangebyscoreDo, funext_iff]
  by_cases skips : (rangeOf query.lower query.upper).Skips
  · have extreme : Extreme query := skips
    simp only [if_pos skips, extreme, true_imp_iff]
    rw [wanted, ← outside_eq_self_iff]
    constructor
    · intro kept
      have here := kept (argument argv 1)
      rw [if_pos rfl] at here
      exact here.symm
    · intro nothing other
      split_ifs with same
      · rw [same, nothing]
      · rfl
  · have notExtreme : ¬ Extreme query := skips
    simp only [if_neg skips, notExtreme, false_imp_iff, iff_true]
    intro other
    rw [removed]
    split_ifs with same
    · rw [same]
    · rfl

/-- The commands on scores act on exactly the members between the bounds,
unless a range is skipped that has members. -/
theorem answers_iff_serves (command : ScoreCommand) :
    (∀ query ∈ command.query texts argv, command.Answers texts engine db argv query) ↔
      ∀ query ∈ command.query texts argv, command.Serves engine db argv query := by
  apply forall_congr'
  intro query
  apply forall_congr'
  intro asked
  cases command with
  | zRangebyscore => exact answers_zRangebyscore_iff texts engine db argv query asked
  | zRevrangebyscore => exact answers_zRevrangebyscore_iff texts engine db argv query asked
  | zCount => exact answers_zCount_iff texts engine db argv query asked
  | zRemrangebyscore => exact answers_zRemrangebyscore_iff texts engine db argv query asked

end

/-! ## A member at the greatest score -/

/-- An engine that keeps every set in memory. -/
def memoryEngine (Score : Type) [LinearOrder Score] :
    IntervalEngine Score (Bytes → StdVector (ScoreMember Score)) where
  zset db key := (db key).items
  zRangebyscore db key range := (.ok, (db key).filter range.contains)
  zRevrangebyscore db key range := (.ok, ((db key).filter range.contains).reverse)
  zCount db key range :=
    (.ok, castInt32 (between range.lower range.upper ScoreMember.score (db key).items).length)
  zRemrangebyscore db key range :=
    ((.ok, castInt32 (between range.lower range.upper ScoreMember.score (db key).items).length),
      Function.update db key ((db key).filter fun member => !range.contains member))
  zRangebylex _ _ _ := (.ok, { items := [], bounded := by decide })
  zLexcount _ _ _ := (.ok, 0)
  zRemrangebylex db _ _ := ((.ok, 0), db)
  finds _ _ _ := ⟨trivial, rfl⟩
  findsReversed _ _ _ := ⟨trivial, rfl⟩
  counts _ _ _ := ⟨trivial, by dsimp only⟩
  removes := by
    intro db key range
    refine ⟨trivial, ?_⟩
    intro other
    simp only [Function.update_apply]
    split_ifs <;> rfl

/-- Sets with a member whose score is infinite. -/
def infiniteMember (_key : Bytes) : StdVector (ScoreMember RangeCmd.SampleScore) where
  items := [{ score := ⊤, member := ascii "m" }]
  bounded := by decide

/-- The members whose score is infinite. -/
def infiniteRange : List Bytes := ["zrangebyscore", "z", "inf", "inf"].map ascii

/-- A member whose score is infinite is not returned. -/
theorem not_answers_infiniteRange :
    ¬ ∀ query ∈ zRangebyscore.query RangeCmd.plainTexts infiniteRange,
      zRangebyscore.Answers RangeCmd.plainTexts (memoryEngine RangeCmd.SampleScore)
        infiniteMember infiniteRange query := by
  intro answers
  have asked : { lower := .closed ⊤, upper := .closed ⊤, withScores := false } ∈
      zRangebyscore.query RangeCmd.plainTexts infiniteRange := by
    decide +kernel
  have serves := (answers_zRangebyscore_iff _ _ _ _ _ asked).mp (answers _ asked)
  have nothing := serves (Or.inl rfl)
  cases nothing

end ScoreCommand

end Pika.Command
