import Pika.Command.GeoRadius

/-!
# The arguments of a radius query

`DoInitial` of the two radius queries does not look at whether `string2d`
accepted a number, lets `std::stoi` throw, and rejects STORE but not STOREDIST
beside options that ask for more than the members.
-/

namespace Pika

open Foundation List
open Binlog (Bytes)

namespace Command

/-! ## Options as they were sent -/

/-- An option of a radius query with the text of its number. -/
inductive GeoClause where
  | plain (word : GeoWord)
  | count (text : Bytes)
  deriving DecidableEq

def allDigits (text : Bytes) : Bool := text.all fun byte => (byteDigit byte).isSome

/-- The options that arguments spell, up to the first that is refused, and
whether none is. -/
def geoClauses : List Bytes → List GeoClause × Bool
  | [] => ([], true)
  | opt :: rest =>
    match geoOption opt with
    | none => ([], false)
    | some (.flag word) => (.plain word :: (geoClauses rest).1, (geoClauses rest).2)
    | some (.valued word) =>
      match rest with
      | [] => ([], false)
      | value :: rest =>
        if sameWord opt "count" then
          if allDigits value then (.count value :: (geoClauses rest).1, (geoClauses rest).2)
          else ([], false)
        else (.plain (word value) :: (geoClauses rest).1, (geoClauses rest).2)

/-- What an option does, as the number that its text denotes. -/
def GeoClause.word : GeoClause → GeoWord
  | .plain word => word
  | .count text => .count ((stoi text).getD 0)

/-- `std::stoi` throws on the text of the option. -/
def GeoClause.throws : GeoClause → Bool
  | .plain _ => false
  | .count text => (stoi text).isNone

def GeoClause.text : GeoClause → Option Bytes
  | .plain _ => none
  | .count text => some text

/-- Only COUNT limits the answer. -/
def GeoClause.Proper : GeoClause → Prop
  | .plain word => word.limit = none
  | .count _ => True

theorem limit_eq_none_of_flag (named : geoOption opt = some (.flag word)) : word.limit = none := by
  unfold geoOption at named
  split_ifs at named <;> cases named <;> rfl

theorem limit_eq_none_of_valued (named : geoOption opt = some (.valued word))
    (notCount : ¬sameWord opt "count" = true) (value : Bytes) : (word value).limit = none := by
  unfold geoOption at named
  split_ifs at named <;> cases named <;> rfl

/-! ## The loop -/

/-- What becomes of arguments: an exception, an error, or what their options
do. -/
inductive GeoOutcome (words : List Bytes) (range : GeoRange) : Prop
  | throws (some : (geoClauses words).1.any GeoClause.throws = true)
      (outcome : geoOptions words range = none)
  | refused (code : CmdRet) (none : (geoClauses words).1.any GeoClause.throws = false)
      (incomplete : (geoClauses words).2 = false)
      (outcome : geoOptions words range = some (.error code))
  | given (none : (geoClauses words).1.any GeoClause.throws = false)
      (complete : (geoClauses words).2 = true)
      (outcome : geoOptions words range =
        some (.ok (((geoClauses words).1.map GeoClause.word).foldl GeoRange.give range)))

namespace GeoOutcome

variable {words after : List Bytes} {range : GeoRange}

/-- An option is refused. -/
theorem stop (reads : geoClauses words = ([], false))
    (stops : geoOptions words range = some (.error code)) : GeoOutcome words range :=
  .refused code (by rw [reads]; rfl) (by rw [reads]) stops

/-- An option throws on its number, or the loop goes on with what it does. -/
theorem cons (clause : GeoClause)
    (reads : geoClauses words = (clause :: (geoClauses after).1, (geoClauses after).2))
    (throws : clause.throws = true → geoOptions words range = none)
    (goesOn : clause.throws = false → geoOptions words range =
      geoOptions after (range.give clause.word))
    (later : GeoOutcome after (range.give clause.word)) : GeoOutcome words range := by
  cases thrown : clause.throws with
  | true =>
    refine .throws ?_ (throws thrown)
    rw [reads, any_cons, thrown, Bool.true_or]
  | false =>
    have round := goesOn thrown
    cases later with
    | throws some outcome =>
      refine .throws ?_ (round.trans outcome)
      rw [reads, any_cons, some, Bool.or_true]
    | refused code none incomplete outcome =>
      refine .refused code ?_ ?_ (round.trans outcome)
      · rw [reads, any_cons, thrown, none, Bool.or_false]
      · rw [reads]
        exact incomplete
    | given none complete outcome =>
      refine .given ?_ ?_ ?_
      · rw [reads, any_cons, thrown, none, Bool.or_false]
      · rw [reads]
        exact complete
      · rw [round, outcome, reads]
        rfl

end GeoOutcome

theorem geoOutcome (words : List Bytes) (range : GeoRange) : GeoOutcome words range := by
  fun_induction geoClauses words generalizing range with
  | case1 => exact .given rfl rfl rfl
  | case2 opt rest named =>
    exact .stop (by rw [geoClauses, named]) (by rw [geoOptions_cons, named])
  | case3 opt rest word named ih =>
    exact .cons (.plain word) (by rw [geoClauses, named]) nofun
      (fun _ => by rw [geoOptions_cons, named]; rfl) (ih _)
  | case4 opt word named =>
    exact .stop (by rw [geoClauses, named]) (by rw [geoOptions_cons, named])
  | case5 opt word named value rest count digits ih =>
    have round : geoOptions (opt :: value :: rest) range = _ := geoOptions_cons ..
    simp only [named, if_pos count] at round
    replace round := round.trans (if_pos digits)
    refine .cons (.count value) (by rw [geoClauses, named]; simp [count, digits]) ?_ ?_ (ih _)
    · intro throws
      rw [round, Option.isNone_iff_eq_none.mp throws, Option.bind_none]
    · intro reads
      rw [GeoClause.throws, Option.isNone_eq_false_iff] at reads
      obtain ⟨limit, read⟩ := Option.isSome_iff_exists.mp reads
      rw [round, GeoClause.word, read]
      rfl
  | case6 opt word named value rest count digits =>
    have round : geoOptions (opt :: value :: rest) range = _ := geoOptions_cons ..
    simp only [named, if_pos count] at round
    exact .stop (by rw [geoClauses, named]; simp [count, digits]) (round.trans (if_neg digits))
  | case7 opt word named value rest count ih =>
    exact .cons (.plain (word value)) (by rw [geoClauses, named]; simp [count]) nofun
      (fun _ => by rw [geoOptions_cons, named]; simp only [if_neg count]; rfl) (ih _)

theorem proper_of_mem_geoClauses (member : clause ∈ (geoClauses words).1) : clause.Proper := by
  fun_induction geoClauses words with
  | case1 | case2 | case4 | case6 => exact absurd member not_mem_nil
  | case3 opt rest word named ih =>
    obtain rfl | later := mem_cons.mp member
    · exact limit_eq_none_of_flag named
    · exact ih later
  | case5 opt word named value rest count digits ih =>
    obtain rfl | later := mem_cons.mp member
    · trivial
    · exact ih later
  | case7 opt word named value rest count ih =>
    obtain rfl | later := mem_cons.mp member
    · exact limit_eq_none_of_valued named count value
    · exact ih later

/-- The limits of options are the numbers of their texts. -/
theorem filterMap_limit_map_word {clauses : List GeoClause}
    (proper : ∀ clause ∈ clauses, clause.Proper) :
    (clauses.map GeoClause.word).filterMap GeoWord.limit =
      (clauses.filterMap GeoClause.text).map fun text => (stoi text).getD 0 := by
  induction clauses with
  | nil => rfl
  | cons clause clauses ih =>
    obtain ⟨first, later⟩ := forall_mem_cons.mp proper
    have rest := ih later
    cases clause with
    | plain word =>
      have unlimited : word.limit = none := first
      simp [GeoClause.word, GeoClause.text, filterMap_cons, unlimited, rest]
    | count text => simp [GeoClause.word, GeoClause.text, GeoWord.limit, rest]

def GeoWord.isStore : GeoWord → Bool
  | .store _ => true
  | _ => false

def GeoWord.isStoredist : GeoWord → Bool
  | .storedist _ => true
  | _ => false

/-- WITHDIST, WITHHASH or WITHCOORD was given. -/
def GeoWord.asksMore : GeoWord → Bool
  | .withdist | .withhash | .withcoord => true
  | _ => false

/-- The query asks for more than the members. -/
def GeoRange.asksMore (range : GeoRange) : Bool :=
  range.withdist || range.withcoord || range.withhash

theorem flags_foldl_give (words : List GeoWord) (range : GeoRange) :
    (words.foldl GeoRange.give range).store = (range.store || words.any GeoWord.isStore) ∧
      (words.foldl GeoRange.give range).storedist =
        (range.storedist || words.any GeoWord.isStoredist) ∧
      (words.foldl GeoRange.give range).asksMore =
        (range.asksMore || words.any GeoWord.asksMore) := by
  induction words generalizing range with
  | nil => simp
  | cons word words ih =>
    obtain ⟨store, storedist, more⟩ := ih (range.give word)
    rw [foldl_cons, store, storedist, more]
    cases word <;>
      simp [GeoRange.give, GeoWord.isStore, GeoWord.isStoredist,
        GeoWord.asksMore, GeoRange.asksMore]

/-! ## Both classes -/

/-- The classes of the radius queries. -/
inductive RadiusClass where
  | geoRadius | geoRadiusByMember
  deriving DecidableEq, Repr

namespace RadiusClass

def command : RadiusClass → CommandName
  | geoRadius => .geoRadiusCmd
  | geoRadiusByMember => .geoRadiusByMemberCmd

/-- The arguments that are coordinates or a radius. -/
def numbers : RadiusClass → List Nat
  | geoRadius => [2, 3, 4]
  | geoRadiusByMember => [3]

/-- `DoInitial`: the options, an error, or nothing where it throws. -/
def initial (cls : RadiusClass) (argv : List Bytes) : Option (Except CmdRet GeoRange) :=
  geoRadiusInitial cls.command (unitIndex cls.command) argv

/-- The number fields after `DoInitial`, of which one that `string2d` did not
accept is unset. -/
def fields {Double : Type} (string2d : Bytes → Option Double)
    (cls : RadiusClass) (argv : List Bytes) : List (Option Double) :=
  cls.numbers.map fun index => string2d (argument argv index)

/-- The options of a query, and whether all of them are options. -/
def clauses (cls : RadiusClass) (argv : List Bytes) : List GeoClause × Bool :=
  geoClauses (argv.drop (unitIndex cls.command + 1))

/-- An option of a kind was given. -/
def gives (cls : RadiusClass) (argv : List Bytes) (kind : GeoWord → Bool) : Bool :=
  (cls.clauses argv).1.any fun clause => kind clause.word

/-- `DoInitial` returns, and what it accepts is sound. -/
structure ChecksArguments {Double : Type} (string2d : Bytes → Option Double)
    (cls : RadiusClass) (argv : List Bytes) : Prop where
  returns : cls.initial argv ≠ none
  numbers : ∀ range, cls.initial argv = some (.ok range) →
    ∀ field ∈ cls.fields string2d argv, field ≠ none
  limit : ∀ range, cls.initial argv = some (.ok range) →
    ∀ text, ((cls.clauses argv).1.filterMap GeoClause.text).getLast? = some text →
      range.count = true ∧ readDigits text = some range.countLimit
  apart : ∀ range, cls.initial argv = some (.ok range) →
    (range.store || range.storedist) = true → range.asksMore = false

/-- The arguments on which `DoInitial` is sound: COUNT is followed by an `int`,
and if the query is accepted its numbers are numbers and STOREDIST stands
alone. -/
def SoundArguments {Double : Type} (string2d : Bytes → Option Double)
    (cls : RadiusClass) (argv : List Bytes) : Prop :=
  cls.command.checkArg argv.length = true →
  checkUnit (argument argv (unitIndex cls.command)) = true →
    (cls.clauses argv).1.any GeoClause.throws = false ∧
    ((cls.clauses argv).2 = true →
      (cls.gives argv GeoWord.isStore && cls.gives argv GeoWord.asksMore) = false →
      (∀ field ∈ cls.fields string2d argv, field ≠ none) ∧
      (cls.gives argv GeoWord.isStoredist && cls.gives argv GeoWord.asksMore) = false)

section Sound

variable {Double : Type} {string2d : Bytes → Option Double}
variable {cls : RadiusClass} {argv : List Bytes}

theorem checksArguments_of_error (error : cls.initial argv = some (.error code)) :
    ChecksArguments string2d cls argv where
  returns none := nomatch error.symm.trans none
  numbers _ accepted := nomatch error.symm.trans accepted
  limit _ accepted := nomatch error.symm.trans accepted
  apart _ accepted := nomatch error.symm.trans accepted

/-- The limit of an accepted query is the number of its last COUNT. -/
theorem limit_of_given {text : Bytes} (none : (cls.clauses argv).1.any GeoClause.throws = false)
    (last : ((cls.clauses argv).1.filterMap GeoClause.text).getLast? = some text) :
    let range := ((cls.clauses argv).1.map GeoClause.word).foldl GeoRange.give GeoRange.clear
    range.count = true ∧ readDigits text = some range.countLimit := by
  intro range
  have reflects := GeoRange.Reflects.clear.foldl_give ((cls.clauses argv).1.map GeoClause.word)
  have limit := reflects.limit
  have numbers : ((cls.clauses argv).1.map GeoClause.word).filterMap GeoWord.limit =
      ((cls.clauses argv).1.filterMap GeoClause.text).map fun text => (stoi text).getD 0 :=
    filterMap_limit_map_word fun _ => proper_of_mem_geoClauses
  rw [nil_append, geoLimit, numbers, List.getLast?_map, last] at limit
  obtain ⟨clause, member, isText⟩ := mem_filterMap.mp (mem_of_getLast? last)
  have reads : ∃ number, stoi text = some number := by
    apply Option.isSome_iff_exists.mp
    cases clause with
    | plain word => cases isText
    | count given =>
      cases isText
      have kept := any_eq_false.mp none _ member
      cases read : stoi text with
      | none =>
        rw [GeoClause.throws, read] at kept
        exact absurd rfl kept
      | some number => rfl
  obtain ⟨number, read⟩ := reads
  rw [Option.map_some, read] at limit
  split_ifs at limit with counted
  refine ⟨counted, ?_⟩
  rw [limit]
  exact (Option.filter_eq_some_iff.mp read).1

theorem flags_of_given :
    let range := ((cls.clauses argv).1.map GeoClause.word).foldl GeoRange.give GeoRange.clear
    range.store = cls.gives argv GeoWord.isStore ∧
      range.storedist = cls.gives argv GeoWord.isStoredist ∧
      range.asksMore = cls.gives argv GeoWord.asksMore := by
  intro range
  obtain ⟨store, storedist, more⟩ := flags_foldl_give
    ((cls.clauses argv).1.map GeoClause.word) GeoRange.clear
  rw [any_map] at store storedist more
  exact ⟨store, storedist, more⟩

/-- Arguments whose options are read. -/
theorem checksArguments_iff_of_given (counted : cls.command.checkArg argv.length = true)
    (unit : checkUnit (argument argv (unitIndex cls.command)) = true)
    (none : (cls.clauses argv).1.any GeoClause.throws = false)
    (complete : (cls.clauses argv).2 = true) (whole : cls.initial argv = some
        (let range := ((cls.clauses argv).1.map GeoClause.word).foldl GeoRange.give GeoRange.clear
        if range.store && range.asksMore then
          .error (.kErrOther ("STORE option in GEORADIUS is not compatible " ++
              "with WITHDIST, WITHHASH and WITHCOORDS options"))
        else .ok range)) :
    ChecksArguments string2d cls argv ↔ SoundArguments string2d cls argv := by
  obtain ⟨store, storedist, more⟩ := @flags_of_given cls argv
  by_cases conflict : (cls.gives argv GeoWord.isStore && cls.gives argv GeoWord.asksMore) = true
  · simp only [store, more, if_pos conflict] at whole
    apply iff_of_true (checksArguments_of_error whole)
    intro _ _
    refine ⟨none, fun _ alone => ?_⟩
    rw [conflict] at alone
    cases alone
  · have alone := Bool.eq_false_iff.mpr conflict
    simp only [store, more, if_neg conflict] at whole
    constructor
    · intro checks _ _
      refine ⟨none, fun _ _ => ⟨checks.numbers _ whole, ?_⟩⟩
      apply Bool.eq_false_iff.mpr
      intro both
      rw [Bool.and_eq_true, ← storedist, ← more] at both
      have apart := checks.apart _ whole (by rw [both.1, Bool.or_true])
      rw [both.2] at apart
      cases apart
    · intro sound
      obtain ⟨-, accepted⟩ := sound counted unit
      obtain ⟨numbers, distAlone⟩ := accepted complete alone
      refine ⟨?_, ?_, ?_, ?_⟩
      · rw [whole]
        exact Option.some_ne_none _
      · intro range _
        exact numbers
      · intro range same text last
        rw [whole] at same
        cases same
        exact limit_of_given none last
      · intro range same stores
        rw [whole] at same
        cases same
        rw [store, storedist] at stores
        rw [more]
        revert alone distAlone stores
        cases cls.gives argv GeoWord.isStore <;>
          cases cls.gives argv GeoWord.isStoredist <;>
          cases cls.gives argv GeoWord.asksMore <;> decide

/-- `DoInitial` is sound exactly on such arguments. -/
theorem checksArguments_iff {Double : Type} (string2d : Bytes → Option Double)
    (cls : RadiusClass) (argv : List Bytes) :
    ChecksArguments string2d cls argv ↔ SoundArguments string2d cls argv := by
  by_cases counted : cls.command.checkArg argv.length = true
  · by_cases unit : checkUnit (argument argv (unitIndex cls.command)) = true
    · have whole := Eq.refl (cls.initial argv)
      conv_rhs at whole => rw [initial, geoRadiusInitial, if_pos counted, if_pos unit]
      cases geoOutcome (argv.drop (unitIndex cls.command + 1)) GeoRange.clear with
      | throws some outcome =>
        rw [outcome] at whole
        apply iff_of_false
        · exact fun checks => checks.returns whole
        · intro sound
          have none := (sound counted unit).1
          rw [clauses, some] at none
          cases none
      | refused code none incomplete outcome =>
        rw [outcome] at whole
        apply iff_of_true (checksArguments_of_error whole)
        intro _ _
        refine ⟨none, fun complete => ?_⟩
        rw [clauses, incomplete] at complete
        cases complete
      | given none complete outcome =>
        rw [outcome] at whole
        exact checksArguments_iff_of_given counted unit none complete whole
    · have error : cls.initial argv = some (.error (.kErrOther
          "unsupported unit provided. please use m, km, ft, mi")) := by
        rw [initial, geoRadiusInitial, if_pos counted, if_neg unit]
      exact iff_of_true (checksArguments_of_error error) fun _ isUnit => absurd isUnit unit
  · have error : cls.initial argv = some (.error (.kWrongNum "georadius")) := by
      rw [initial, geoRadiusInitial, if_neg counted]
    exact iff_of_true (checksArguments_of_error error) fun isCounted => absurd isCounted counted

end Sound

/-- `COUNT 99999999999` is a number, and `std::stoi` throws on it. -/
theorem not_checksArguments_longCount :
    ¬ ChecksArguments (fun text => readDigits text) geoRadius
      [ascii "georadius", ascii "k", ascii "0", ascii "0", ascii "1", ascii "m",
        ascii "COUNT", ascii "99999999999"] := by
  intro checks
  apply checks.returns
  decide +kernel

end RadiusClass

end Command

end Pika
