import Pika.Command.LimitSlice

/-!
# The arguments of ZUNIONSTORE and ZINTERSTORE

`ZsetUIstoreParentCmd::DoInitial` reads a number of keys, that many keys, and
options.  The number of keys is any positive 64-bit integer, and is added to
other numbers before it is compared with the number of arguments.  A sum that
overflows, a number that an `int` does not hold, and an index outside the
arguments or the weights have no outcome.
-/

namespace Pika.Command

open Foundation List Option
open Binlog (Bytes)

/-- `blackwidow::AGGREGATE`. -/
inductive Aggregate where
  | sum | min | max
  deriving DecidableEq

/-- The fields of `ZsetUIstoreParentCmd`. -/
structure ZsetUIstore (Score : Type) where
  destKey : Bytes
  numKeys : Int
  keys : List Bytes
  weights : List Score
  aggregate : Aggregate
  deriving DecidableEq

/-- The aggregate that a text names. -/
def aggregateOf (text : Bytes) : Option Aggregate :=
  if sameWord text "sum" then some .sum
  else if sameWord text "min" then some .min
  else if sameWord text "max" then some .max
  else none

/-- `assign` of a range of the arguments. -/
def assigned (argv : List Bytes) (first past : Int) : Option (List Bytes) :=
  if 0 ≤ first ∧ first ≤ past ∧ past ≤ argv.length then
    some ((argv.drop first.toNat).take (past - first).toNat)
  else none

section

variable {Score : Type} [LinearOrder Score] [BoundedOrder Score]
variable (texts : ScoreTexts Score) (one : Score)
variable (argv : List Bytes)

/-- The loop over the weights behind a base, of which some are read. -/
def storeWeights (base : Int) : Nat → Nat → List Score → Option (Except CmdRet (List Score))
  | 0, _, weights => some (.ok weights)
  | rounds + 1, done, weights =>
    (itemAt argv (base + done)).bind fun text =>
      match zsetString2d texts text with
      | none => some (.error (.kErrOther "weight value is not a float"))
      | some weight =>
        if done < weights.length then
          storeWeights base rounds (done + 1) (weights.set done weight)
        else none

/-- The loop over the options. -/
def storeOptions (argc : Int) (numKeys : Nat) (index : Int)
    (fields : ZsetUIstore Score) : Option (Except CmdRet (ZsetUIstore Score)) :=
  if _inside : index < argc then
    (itemAt argv index).bind fun opt =>
      if sameWord opt "weights" then
        (fitsInt64 (index + 1 + numKeys)).bind fun past =>
          if argc < past then some (.error .kSyntaxErr)
          else
            (storeWeights texts argv (index + 1) numKeys 0 fields.weights).bind fun read =>
                match read with
                | .error code => some (.error code)
                | .ok weights =>
                  storeOptions argc numKeys (index + 1 + numKeys)
                    { fields with weights }
      else if sameWord opt "aggregate" then
        (fitsInt32 (index + 2)).bind fun past =>
          if argc < past then some (.error .kSyntaxErr)
          else
            (itemAt argv (index + 1)).bind fun text =>
              match aggregateOf text with
              | none => some (.error .kSyntaxErr)
              | some aggregate =>
                storeOptions argc numKeys (index + 2)
                  { fields with aggregate }
      else some (.error .kSyntaxErr)
  else some (.ok fields)
termination_by (argc - index).toNat

/-- `ZsetUIstoreParentCmd::DoInitial`, behind the number of arguments. -/
def storeInitial (command : CommandName) (name : String) :
    Option (Except CmdRet (ZsetUIstore Score)) :=
  if command.checkArg argv.length then
    (itemAt argv 1).bind fun destKey =>
      (itemAt argv 2).bind fun number =>
        match string2l number with
        | none => some (.error .kInvalidInt)
        | some numKeys =>
          if numKeys < 1 then
            some (.error (.kErrOther ("at least 1 input key is needed for " ++
              "ZUNIONSTORE/ZINTERSTORE")))
          else
            (fitsInt32 argv.length).bind fun argc =>
              (fitsInt64 (numKeys + 3)).bind fun past =>
                if argc < past then some (.error .kSyntaxErr)
                else
                  (assigned argv 3 past).bind fun keys =>
                    (fitsInt32 past).bind fun index =>
                      storeOptions texts argv argc numKeys.toNat index
                        { destKey, numKeys, keys
                          weights := List.replicate numKeys.toNat one
                          aggregate := .sum }
  else some (.error (.kWrongNum name))

/-- `ZUnionstoreCmd::DoInitial`. -/
def zUnionstoreInitial : Option (Except CmdRet (ZsetUIstore Score)) :=
  storeInitial texts one argv .zUnionstoreCmd "zunionstore"

/-- `ZInterstoreCmd::DoInitial`. -/
def zInterstoreInitial : Option (Except CmdRet (ZsetUIstore Score)) :=
  storeInitial texts one argv .zInterstoreCmd "zinterstore"

end

/-! ## Options -/

inductive StoreWord (Score : Type) where
  | weights (values : List Score)
  | aggregate (kind : Aggregate)

/-- The weights that are given. -/
def StoreWord.givenWeights : StoreWord Score → Option (List Score)
  | weights values => some values
  | aggregate _ => none

/-- The aggregate that is given. -/
def StoreWord.givenAggregate : StoreWord Score → Option Aggregate
  | weights _ => none
  | aggregate kind => some kind

/-- The last of the values that options give, or a default. -/
def lastGiven (given : StoreWord Score → Option β) (default : β)
    (words : List (StoreWord Score)) : β :=
  ((words.filterMap given).getLast?).getD default

theorem lastGiven_cons (given : StoreWord Score → Option β) (default : β)
    (word : StoreWord Score) (words : List (StoreWord Score)) :
    lastGiven given default (word :: words) =
      lastGiven given ((given word).getD default) words := by
  unfold lastGiven
  cases value : given word with
  | none => simp [value]
  | some value =>
    cases later : words.filterMap given <;> simp_all [List.getLast?_cons]

section

variable {Score : Type} [LinearOrder Score] [BoundedOrder Score]
variable (texts : ScoreTexts Score)

/-- Texts read as weights. -/
def readWeights : List Bytes → Option (List Score)
  | [] => some []
  | text :: given =>
    (zsetString2d texts text).bind fun weight => (readWeights given).map (weight :: ·)

/-- Arguments are a sequence of options. -/
inductive OptionsAre (numKeys : Nat) : List Bytes → List (StoreWord Score) → Prop where
  | nil : OptionsAre numKeys [] []
  | weights {opt : Bytes} {given rest : List Bytes} {values : List Score}
      {words : List (StoreWord Score)}
      (named : sameWord opt "weights" = true)
      (many : given.length = numKeys)
      (read : readWeights texts given = some values)
      (later : OptionsAre numKeys rest words) :
      OptionsAre numKeys (opt :: (given ++ rest)) (.weights values :: words)
  | aggregate {opt text : Bytes} {rest : List Bytes} {kind : Aggregate}
      {words : List (StoreWord Score)}
      (named : sameWord opt "aggregate" = true)
      (read : aggregateOf text = some kind)
      (later : OptionsAre numKeys rest words) :
      OptionsAre numKeys (opt :: text :: rest) (.aggregate kind :: words)

/-- Arguments are a sequence of options and an AGGREGATE without its value. -/
def EndsInAggregate (numKeys : Nat) (options : List Bytes) : Prop :=
  ∃ first last words, options = first ++ [last] ∧
    OptionsAre texts numKeys first words ∧ sameWord last "aggregate" = true

/-- The fields that options leave. -/
def ZsetUIstore.given (fields : ZsetUIstore Score)
    (words : List (StoreWord Score)) : ZsetUIstore Score :=
  { fields with
    weights := lastGiven StoreWord.givenWeights fields.weights words
    aggregate := lastGiven StoreWord.givenAggregate fields.aggregate words }

omit [LinearOrder Score] [BoundedOrder Score] in
theorem ZsetUIstore.given_weights (fields : ZsetUIstore Score)
    (values : List Score) (words : List (StoreWord Score)) :
    fields.given (.weights values :: words) = { fields with weights := values }.given words := by
  simp only [given, lastGiven_cons]
  rfl

omit [LinearOrder Score] [BoundedOrder Score] in
theorem ZsetUIstore.given_aggregate (fields : ZsetUIstore Score)
    (kind : Aggregate) (words : List (StoreWord Score)) :
    fields.given (.aggregate kind :: words) = { fields with aggregate := kind }.given words := by
  simp only [given, lastGiven_cons]
  rfl

theorem not_weights_of_aggregate (named : sameWord opt "aggregate" = true) :
    ¬ sameWord opt "weights" = true := by
  intro both
  have first := eq_of_beq named
  have second := eq_of_beq both
  exact absurd (first.symm.trans second) (by decide)

variable (argv : List Bytes)

/-- The outcome of reading weights. -/
def weightsOutcome (before : List Score) : Option (List Score) → Except CmdRet (List Score)
  | none => .error (.kErrOther "weight value is not a float")
  | some values => .ok (before ++ values)

/-- The loop over the weights replaces all of them or meets a text that is not
a weight. -/
theorem storeWeights_eq {base rounds done : Nat} {weights : List Score}
    (left : done + rounds = weights.length) (inside : base + done + rounds ≤ argv.length) :
    storeWeights texts argv base rounds done weights = some (weightsOutcome (weights.take done)
        (readWeights texts ((argv.drop (base + done)).take rounds))) := by
  induction rounds generalizing done weights with
  | zero =>
    rw [storeWeights, take_zero, readWeights, weightsOutcome,
      append_nil, take_of_length_le (by omega)]
  | succ rounds ih =>
    have within : base + done < argv.length := by omega
    have here : itemAt argv ((base : Int) + done) = some argv[base + done] := by
      rw [← Nat.cast_add, itemAt_natCast, List.getElem?_eq_getElem within]
    rw [storeWeights, here, bind_some,
      drop_eq_getElem_cons within, take_succ_cons, readWeights]
    cases value : zsetString2d texts argv[base + done] with
    | none => rfl
    | some weight =>
      have short : done < weights.length := by omega
      have kept : (weights.set done weight).take (done + 1) = weights.take done ++ [weight] := by
        rw [take_succ_eq_append_getElem (by simpa using short),
          take_set_of_le (Nat.le_refl _), getElem_set_self]
      have next := @ih (done + 1) (weights.set done weight)
        (by rw [length_set]; omega) (by omega)
      dsimp only
      rw [if_pos short, next, kept, ← Nat.add_assoc, bind_some]
      cases readWeights texts ((argv.drop (base + done + 1)).take rounds) with
      | none => rfl
      | some values =>
        rw [map_some, weightsOutcome, weightsOutcome, append_assoc]
        rfl

theorem length_readWeights (read : readWeights texts given = some values) :
    values.length = given.length := by
  induction given generalizing values with
  | nil =>
    cases read
    rfl
  | cons text given ih =>
    obtain ⟨weight, _, rest⟩ := bind_eq_some_iff.mp read
    obtain ⟨others, later, rfl⟩ := map_eq_some_iff.mp rest
    rw [length_cons, length_cons, ih later]

/-! ## The loop over the options -/

section

variable {numKeys index : Nat}
variable (small : argv.length < 2 ^ 31) (enough : numKeys ≤ argv.length)
include small enough

theorem storeOptions_weights (within : index < argv.length)
    (named : sameWord argv[index] "weights" = true) (sized : fields.weights.length = numKeys) :
    storeOptions texts argv argv.length numKeys index fields =
      if argv.length < index + 1 + numKeys then some (.error .kSyntaxErr)
      else
        (readWeights texts ((argv.drop (index + 1)).take numKeys)).elim
          (some (.error (.kErrOther "weight value is not a float")))
          fun weights =>
            storeOptions texts argv argv.length numKeys
              ((index + 1 + numKeys : Nat) : Int) { fields with weights } := by
  rw [storeOptions, dif_pos (by omega), itemAt_natCast,
    List.getElem?_eq_getElem within, bind_some, if_pos named,
    fitsInt64_eq_some (by omega) (by omega), bind_some]
  by_cases short : argv.length < index + 1 + numKeys
  · rw [if_pos (by omega), if_pos short]
  · have loop := @storeWeights_eq Score _ _ texts argv (index + 1) numKeys 0
      fields.weights (by omega) (by omega)
    rw [Nat.cast_succ] at loop
    rw [if_neg (by omega), if_neg short, loop, bind_some]
    rw [take_zero, Nat.add_zero]
    cases readWeights texts ((argv.drop (index + 1)).take numKeys) with
    | none => rfl
    | some values => rfl

omit enough in
/-- The loop at AGGREGATE, which overflows at the last of `INT_MAX`
arguments. -/
theorem storeOptions_aggregate (within : index < argv.length)
    (named : sameWord argv[index] "aggregate" = true) :
    storeOptions texts argv argv.length numKeys index fields = if index + 2 = 2 ^ 31 then none
      else
        (argv[index + 1]?).elim (some (.error .kSyntaxErr)) fun text =>
          (aggregateOf text).elim (some (.error .kSyntaxErr)) fun aggregate =>
            storeOptions texts argv argv.length numKeys
              ((index + 2 : Nat) : Int) { fields with aggregate } := by
  rw [storeOptions, dif_pos (by omega), itemAt_natCast,
    List.getElem?_eq_getElem within, bind_some,
    if_neg (not_weights_of_aggregate named), if_pos named]
  by_cases full : index + 2 = 2 ^ 31
  · rw [if_pos full, fitsInt32_eq_none (by omega)]
    rfl
  rw [if_neg full, fitsInt32_eq_some (by omega) (by omega), bind_some]
  by_cases last : argv.length < index + 2
  · rw [if_pos (by omega), List.getElem?_eq_none (by omega)]
    rfl
  · have next : (index : Int) + 1 = ((index + 1 : Nat) : Int) := by omega
    rw [if_neg (by omega), next, itemAt_natCast,
      List.getElem?_eq_getElem (by omega), bind_some, elim_some]
    cases aggregateOf argv[index + 1] with
    | none => rfl
    | some kind => rfl

omit small enough in
theorem storeOptions_other (within : index < argv.length)
    (notWeights : ¬ sameWord argv[index] "weights" = true)
    (notAggregate : ¬ sameWord argv[index] "aggregate" = true) :
    storeOptions texts argv argv.length numKeys index fields = some (.error .kSyntaxErr) := by
  rw [storeOptions, dif_pos (by omega), itemAt_natCast,
    List.getElem?_eq_getElem within, bind_some, if_neg notWeights, if_neg notAggregate]

omit small enough in
theorem storeOptions_end (past : argv.length ≤ index) :
    storeOptions texts argv argv.length numKeys index fields = some (.ok fields) := by
  rw [storeOptions, dif_neg (by omega)]

/-- What the loop does: it meets an error, or reads all options, or overflows
at an AGGREGATE that is the last of `INT_MAX` arguments. -/
theorem storeOptions_cases (inside : index ≤ argv.length)
    (sized : fields.weights.length = numKeys) :
    (∃ code, storeOptions texts argv argv.length numKeys index fields = some (.error code)) ∨
    (∃ words, OptionsAre texts numKeys (argv.drop index) words ∧
      storeOptions texts argv argv.length numKeys index fields = some (.ok (fields.given words))) ∨
    argv.length + 1 = 2 ^ 31 ∧ EndsInAggregate texts numKeys (argv.drop index) := by
  -- Every option takes at least one argument.
  induction rest : argv.length - index using Nat.strongRecOn generalizing index fields with
  | ind rest ih =>
    by_cases past : argv.length ≤ index
    · right
      left
      refine ⟨[], ?_, storeOptions_end texts argv past⟩
      rw [drop_eq_nil_of_le past]
      exact .nil
    have within : index < argv.length := Nat.not_le.mp past
    have here := drop_eq_getElem_cons within
    by_cases weights : sameWord argv[index] "weights" = true
    · rw [storeOptions_weights texts argv small enough within weights sized]
      by_cases short : argv.length < index + 1 + numKeys
      · rw [if_pos short]
        exact .inl ⟨_, rfl⟩
      rw [if_neg short]
      cases read : readWeights texts ((argv.drop (index + 1)).take numKeys) with
      | none => exact .inl ⟨_, rfl⟩
      | some values =>
        have many : ((argv.drop (index + 1)).take numKeys).length = numKeys := by
          rw [length_take, length_drop]
          omega
        have split : argv.drop index = argv[index] :: ((argv.drop (index + 1)).take numKeys ++
              argv.drop (index + 1 + numKeys)) := by
          have behind : argv.drop (index + 1 + numKeys) = (argv.drop (index + 1)).drop numKeys := by
            rw [drop_drop]
          rw [here, behind, take_append_drop]
        have later := @ih (argv.length - (index + 1 + numKeys)) (by omega)
          (index + 1 + numKeys) { fields with weights := values } (by omega)
          ((length_readWeights texts read).trans many) rfl
        rw [elim_some, split]
        obtain failed | ⟨words, options, done⟩ | ⟨full, first, last, words,
          options, parsed, named⟩ := later
        · exact .inl failed
        · refine .inr (.inl ⟨_, .weights weights many read options, ?_⟩)
          rw [done, ZsetUIstore.given_weights]
        · refine .inr (.inr ⟨full, _, last, _, ?_, .weights weights many read parsed, named⟩)
          rw [options, cons_append, append_assoc]
    by_cases aggregate : sameWord argv[index] "aggregate" = true
    · rw [storeOptions_aggregate texts argv small within aggregate]
      by_cases full : index + 2 = 2 ^ 31
      · refine .inr (.inr ⟨by omega, [], argv[index], [], ?_, .nil, aggregate⟩)
        rw [here, drop_eq_nil_of_le (by omega)]
        rfl
      rw [if_neg full]
      by_cases last : argv.length ≤ index + 1
      · rw [List.getElem?_eq_none last]
        exact .inl ⟨_, rfl⟩
      have next : index + 1 < argv.length := Nat.not_le.mp last
      rw [List.getElem?_eq_getElem next, elim_some]
      cases read : aggregateOf argv[index + 1] with
      | none => exact .inl ⟨_, rfl⟩
      | some kind =>
        have later := @ih (argv.length - (index + 2))
          (by omega) (index + 2) { fields with aggregate := kind }
          (by omega) sized rfl
        rw [elim_some, here, drop_eq_getElem_cons next]
        obtain failed | ⟨words, options, done⟩ | ⟨full, first, last, words,
          options, parsed, named⟩ := later
        · exact .inl failed
        · refine .inr (.inl ⟨_, .aggregate aggregate read options, ?_⟩)
          rw [done, ZsetUIstore.given_aggregate]
        · refine .inr (.inr ⟨full, _, last, _, ?_, .aggregate aggregate read parsed, named⟩)
          rw [options, cons_append, cons_append]
    · rw [storeOptions_other texts argv within weights aggregate]
      exact .inl ⟨_, rfl⟩

omit [LinearOrder Score] [BoundedOrder Score] small enough in
/-- Where a list goes on behind its first items. -/
theorem of_drop_eq_cons {α : Type} {items tail : List α} {head : α}
    {start : Nat} (behind : items.drop start = head :: tail) :
    ∃ within : start < items.length, items[start] = head ∧ items.drop (start + 1) = tail := by
  have within : start < items.length := by
    apply Nat.lt_of_not_le
    intro past
    rw [drop_eq_nil_of_le past] at behind
    cases behind
  rw [drop_eq_getElem_cons within] at behind
  exact ⟨within, (List.cons.inj behind).1, (List.cons.inj behind).2⟩

/-- The loop overflows at an AGGREGATE that is the last of `INT_MAX`
arguments. -/
theorem storeOptions_eq_none (full : argv.length + 1 = 2 ^ 31)
    (sized : fields.weights.length = numKeys)
    (ends : EndsInAggregate texts numKeys (argv.drop index)) :
    storeOptions texts argv argv.length numKeys index fields = none := by
  obtain ⟨first, last, words, options, parsed, named⟩ := ends
  induction parsed generalizing index fields with
  | nil =>
    obtain ⟨within, rfl, nothing⟩ := of_drop_eq_cons options
    have past := drop_eq_nil_iff.mp nothing
    rw [storeOptions_aggregate texts argv small within named, if_pos (by omega)]
  | @weights opt given rest values words weights many read later ih =>
    rw [cons_append] at options
    obtain ⟨within, rfl, behind⟩ := of_drop_eq_cons options
    have lengths := congrArg List.length behind
    rw [length_drop, length_append, length_append,
      length_singleton] at lengths
    have taken : (argv.drop (index + 1)).take numKeys = given := by
      rw [behind, append_assoc, take_left' many]
    have left : argv.drop (index + 1 + numKeys) = rest ++ [last] := by
      rw [← drop_drop, behind, append_assoc, drop_left' many]
    rw [storeOptions_weights texts argv small enough within weights sized,
      if_neg (by omega), taken, read, elim_some]
    apply ih _ left
    rw [length_readWeights texts read, many]
  | @aggregate opt text rest kind words aggregate read later ih =>
    rw [cons_append, cons_append] at options
    obtain ⟨within, rfl, behind⟩ := of_drop_eq_cons options
    obtain ⟨next, rfl, left⟩ := of_drop_eq_cons behind
    have lengths := congrArg List.length left
    rw [length_drop, length_append, length_singleton] at lengths
    rw [storeOptions_aggregate texts argv small within aggregate,
      if_neg (by omega), List.getElem?_eq_getElem next, elim_some, read, elim_some]
    exact ih sized left

end

/-- Every list of weights that options give has its length. -/
theorem OptionsAre.length_lastGiven
    (parsed : OptionsAre texts numKeys options words) {default : List Score}
    (sized : default.length = numKeys) :
    (lastGiven StoreWord.givenWeights default words).length = numKeys := by
  induction parsed generalizing default with
  | nil => exact sized
  | weights named many read later ih =>
    rw [lastGiven_cons]
    exact ih ((length_readWeights texts read).trans many)
  | aggregate named read later ih =>
    rw [lastGiven_cons]
    exact ih sized

/-! ## Parsing -/

variable (one : Score)

/-- An outcome is an error or holds what the arguments give: the keys, the last
weights or ones, and the last aggregate or the sum. -/
def ParsesExactly (outcome : Option (Except CmdRet (ZsetUIstore Score))) : Prop :=
  (∃ code, outcome = some (.error code)) ∨
    ∃ (numKeys : Nat) (words : List (StoreWord Score)) (fields : ZsetUIstore Score),
      outcome = some (.ok fields) ∧ string2l (argument argv 2) = some (numKeys : Int) ∧
        fields.destKey = argument argv 1 ∧
        fields.numKeys = numKeys ∧
        fields.keys = (argv.drop 3).take numKeys ∧
        fields.keys.length = numKeys ∧
        OptionsAre texts numKeys (argv.drop (3 + numKeys)) words ∧
        fields.weights = lastGiven StoreWord.givenWeights (List.replicate numKeys one) words ∧
        fields.weights.length = numKeys ∧
        fields.aggregate = lastGiven StoreWord.givenAggregate .sum words

/-- The numbers that are computed stay in their types: the number of arguments
is an `int`, and not its greatest value if an AGGREGATE is the last argument;
and the number of keys is three below the end of the 64-bit range. -/
def StaysInRange (command : CommandName) : Prop :=
  command.checkArg argv.length = true →
    ∀ numKeys : Nat, string2l (argument argv 2) = some (numKeys : Int) → 0 < numKeys →
        argv.length < 2 ^ 31 ∧ numKeys + 3 < 2 ^ 63 ∧ ¬ (argv.length + 1 = 2 ^ 31 ∧
            EndsInAggregate texts numKeys (argv.drop (3 + numKeys)))

/-- The fields before the options are read. -/
def startFields (numKeys : Nat) : ZsetUIstore Score where
  destKey := argument argv 1
  numKeys := numKeys
  keys := (argv.drop 3).take numKeys
  weights := List.replicate numKeys one
  aggregate := .sum

section

variable {command : CommandName} (name : String)
variable (arity : 4 ≤ argv.length)
variable (counted : command.checkArg argv.length = true)
include arity counted

omit counted in
theorem itemAt_argument {index : Nat} (early : index < 4) :
    itemAt argv (index : Int) = some (argument argv index) := by
  have within : index < argv.length := by omega
  rw [itemAt_natCast, argument, getD_eq_getElem?_getD, List.getElem?_eq_getElem within]
  rfl

omit counted in
theorem itemAt_one : itemAt argv 1 = some (argument argv 1) :=
  itemAt_argument argv arity (by decide : 1 < 4)

omit counted in
theorem itemAt_two : itemAt argv 2 = some (argument argv 2) :=
  itemAt_argument argv arity (by decide : 2 < 4)

theorem storeInitial_of_pos {numKeys : Nat}
    (read : string2l (argument argv 2) = some (numKeys : Int)) (positive : 0 < numKeys) :
    storeInitial texts one argv command name =
      if 2 ^ 31 ≤ argv.length ∨ 2 ^ 63 ≤ numKeys + 3 then none
      else if argv.length < numKeys + 3 then some (.error .kSyntaxErr)
      else
        storeOptions texts argv argv.length numKeys
          ((3 + numKeys : Nat) : Int) (startFields argv one numKeys) := by
  rw [storeInitial, if_pos counted, itemAt_one argv arity, bind_some, itemAt_two argv arity,
    bind_some, read]
  dsimp only
  rw [if_neg (by omega)]
  by_cases long : 2 ^ 31 ≤ argv.length
  · rw [if_pos (Or.inl long), fitsInt32_eq_none (by omega)]
    rfl
  rw [fitsInt32_eq_some (by omega) (by omega), bind_some]
  by_cases large : 2 ^ 63 ≤ numKeys + 3
  · rw [if_pos (Or.inr large), fitsInt64_eq_none (by omega)]
    rfl
  rw [if_neg (not_or.mpr ⟨long, large⟩), fitsInt64_eq_some (by omega) (by omega), bind_some]
  by_cases few : argv.length < numKeys + 3
  · rw [if_pos (by omega), if_pos few]
  · have keys : assigned argv 3 (numKeys + 3) = some ((argv.drop 3).take numKeys) := by
      rw [assigned, if_pos (by omega), add_sub_cancel_right, Int.toNat_natCast]
      rfl
    rw [if_neg (by omega), if_neg few, keys, bind_some,
      fitsInt32_eq_some (by omega) (by omega), bind_some, Int.toNat_natCast]
    congr 1
    omega

theorem storeInitial_of_not_pos (notPositive : ∀ numKeys : Nat,
      string2l (argument argv 2) = some (numKeys : Int) → ¬ 0 < numKeys) :
    ∃ code, storeInitial texts one argv command name = some (.error code) := by
  rw [storeInitial, if_pos counted, itemAt_one argv arity, bind_some, itemAt_two argv arity,
    bind_some]
  cases read : string2l (argument argv 2) with
  | none => exact ⟨_, rfl⟩
  | some number =>
    have small : number < 1 := by
      by_contra large
      have same : (number.toNat : Int) = number := by omega
      apply notPositive number.toNat
      · rw [read, same]
      · omega
    dsimp only
    rw [if_pos small]
    exact ⟨_, rfl⟩

end

theorem not_parsesExactly_none : ¬ ParsesExactly texts argv one none := by
  rintro (⟨code, failed⟩ | ⟨numKeys, words, fields, done, _⟩)
  · cases failed
  · cases done

/-- The loop over the options parses exactly if it does not overflow. -/
theorem parsesExactly_storeOptions_iff {numKeys : Nat}
    (read : string2l (argument argv 2) = some (numKeys : Int))
    (short : argv.length < 2 ^ 31) (enough : 3 + numKeys ≤ argv.length) :
    ParsesExactly texts argv one (storeOptions texts argv argv.length numKeys
          ((3 + numKeys : Nat) : Int) (startFields argv one numKeys)) ↔
      ¬ (argv.length + 1 = 2 ^ 31 ∧ EndsInAggregate texts numKeys (argv.drop (3 + numKeys))) := by
  have sized : (startFields argv one numKeys).weights.length = numKeys := length_replicate ..
  have keys : ((argv.drop 3).take numKeys).length = numKeys := by
    rw [length_take, length_drop]
    omega
  by_cases overflows : argv.length + 1 = 2 ^ 31 ∧
      EndsInAggregate texts numKeys (argv.drop (3 + numKeys))
  · rw [storeOptions_eq_none texts argv short (by omega) overflows.1 sized overflows.2]
    apply iff_of_false (not_parsesExactly_none texts argv one)
    intro stays
    exact stays overflows
  · apply iff_of_true _ overflows
    obtain failed | ⟨words, options, done⟩ | ends :=
      storeOptions_cases texts argv short (by omega) enough sized
    · exact .inl failed
    · exact .inr ⟨numKeys, words, _, done, read, rfl, rfl, rfl, keys, options,
        rfl, options.length_lastGiven texts (length_replicate ..), rfl⟩
    · exact absurd ends overflows

/-- `DoInitial` parses exactly if its numbers stay in their types. -/
theorem parsesExactly_storeInitial_iff {command : CommandName}
    (arity : ∀ number, command.checkArg number = true → 4 ≤ number) (name : String) :
    ParsesExactly texts argv one (storeInitial texts one argv command name) ↔
      StaysInRange texts argv command := by
  by_cases counted : command.checkArg argv.length = true
  · have enough := arity _ counted
    by_cases positive : ∃ numKeys : Nat,
        string2l (argument argv 2) = some (numKeys : Int) ∧ 0 < numKeys
    · obtain ⟨numKeys, read, positive⟩ := positive
      have same : ∀ other : Nat,
          string2l (argument argv 2) = some (other : Int) → other = numKeys := by
        intro other readOther
        exact Int.ofNat.inj (Option.some.inj (readOther.symm.trans read))
      rw [storeInitial_of_pos texts argv one name enough counted read positive]
      split_ifs with overflows few
      · apply iff_of_false (not_parsesExactly_none texts argv one)
        intro stays
        obtain ⟨short, small, _⟩ := stays counted numKeys read positive
        omega
      · apply iff_of_true (.inl ⟨_, rfl⟩)
        intro _ other readOther _
        cases same other readOther
        refine ⟨by omega, by omega, ?_⟩
        rintro ⟨_, first, last, _, options, _⟩
        rw [drop_eq_nil_of_le (by omega)] at options
        exact absurd options.symm (by simp)
      · rw [parsesExactly_storeOptions_iff texts argv one read (by omega) (by omega)]
        constructor
        · intro stays _ other readOther _
          cases same other readOther
          exact ⟨by omega, by omega, stays⟩
        · intro stays
          exact (stays counted numKeys read positive).2.2
    · have notPositive : ∀ numKeys : Nat,
          string2l (argument argv 2) = some (numKeys : Int) → ¬ 0 < numKeys :=
        fun numKeys read above => positive ⟨numKeys, read, above⟩
      apply iff_of_true
      · exact .inl (storeInitial_of_not_pos texts argv one name enough counted notPositive)
      · intro _ numKeys read above
        exact absurd above (notPositive numKeys read)
  · apply iff_of_true
    · left
      rw [storeInitial, if_neg counted]
      exact ⟨_, rfl⟩
    · intro accepted
      exact absurd accepted counted

end

/-- The commands that store a set. -/
inductive StoreCommand where
  | zUnionstore | zInterstore
  deriving DecidableEq

namespace StoreCommand

def commandName : StoreCommand → CommandName
  | zUnionstore => .zUnionstoreCmd
  | zInterstore => .zInterstoreCmd

section

variable {Score : Type} [LinearOrder Score] [BoundedOrder Score]
variable (texts : ScoreTexts Score) (one : Score) (argv : List Bytes)

/-- `DoInitial`. -/
def initial : StoreCommand → Option (Except CmdRet (ZsetUIstore Score))
  | zUnionstore => zUnionstoreInitial texts one argv
  | zInterstore => zInterstoreInitial texts one argv

/-- ZUNIONSTORE and ZINTERSTORE parse their arguments exactly if the numbers
they compute stay in their types. -/
theorem parsesExactly_iff_staysInRange (command : StoreCommand) :
    ParsesExactly texts argv one (command.initial texts one argv) ↔
      StaysInRange texts argv command.commandName := by
  cases command with
  | zUnionstore | zInterstore =>
    apply parsesExactly_storeInitial_iff
    intro number counted
    simp [CommandName.checkArg, CommandName.registration] at counted
    omega

end

/-- ZUNIONSTORE of the greatest number of keys. -/
def greatestNumber : List Bytes := ["zunionstore", "out", "9223372036854775807", "a"].map ascii

/-- The number of keys and three overflow. -/
theorem not_parsesExactly_greatestNumber :
    ¬ ParsesExactly RangeCmd.plainTexts greatestNumber (1 : Fin 4)
      (zUnionstore.initial RangeCmd.plainTexts (1 : Fin 4) greatestNumber) := by
  have overflows : zUnionstore.initial RangeCmd.plainTexts (1 : Fin 4) greatestNumber = none := by
    decide +kernel
  rw [overflows]
  exact not_parsesExactly_none _ _ _

end StoreCommand

end Pika.Command
