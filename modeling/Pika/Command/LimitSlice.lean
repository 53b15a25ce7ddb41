import Mathlib.Order.Fin.Basic
import Pika.Command.SortedSet

/-!
# Slices of a range

ZRANGEBYSCORE, ZREVRANGEBYSCORE, ZRANGEBYLEX and ZREVRANGEBYLEX emit a slice of
what the engine gives them.  `FitLimit` adds the offset and the count before it
compares them with the size.  The commands emit the slice that was asked for
exactly if that sum fits.
-/

namespace Pika.Command

open Foundation
open List hiding count
open Binlog (Bytes)
open CmdRes (ofTokens)

/-- The sum that `FitLimit` compares with the size fits. -/
def LimitFields.Fits (limit : LimitFields) (size : Nat) : Prop :=
  limit.count < 0 ∨ sliceStart limit.offset size + limit.count < 2 ^ 63

instance (limit : LimitFields) (size : Nat) : Decidable (limit.Fits size) :=
  inferInstanceAs (Decidable (_ ∨ _))

/-- Where the slice begins and how long it is. -/
def LimitFields.fitted (limit : LimitFields) (size : Nat) : FittedLimit where
  offset := sliceStart limit.offset size
  count := sliceLength limit.offset limit.count size

/-! ## Loops over slices -/

section

variable {α : Type} (limit : LimitFields) (members : StdVector α)

theorem castInt64_length : castInt64 members.items.length = members.items.length := by
  have bounded := members.bounded
  exact castInt64_eq_self (by omega) (by omega)

/-- `FitLimit` gives the length and the start of the slice, or overflows. -/
theorem fitLimit_length :
    fitLimit limit members.items.length =
      if limit.Fits members.items.length then some (limit.fitted members.items.length)
      else none := by
  have bounded := members.bounded
  have start := sliceStart_mem_range limit.offset members.items.length
  have begins : (if 0 ≤ limit.offset ∧ limit.offset < members.items.length then
      limit.offset else (members.items.length : Int)) =
        sliceStart limit.offset members.items.length := rfl
  unfold fitLimit LimitFields.fitted
  simp only [begins]
  by_cases all : limit.count < 0
  · have fits : limit.Fits members.items.length := Or.inl all
    rw [if_neg (by omega), if_pos fits, fitsInt64_eq_some (by omega) (by omega), Option.bind_some,
      if_neg (by omega), fitsInt64_eq_some (by omega) (by omega), sliceLength, if_pos all]
    rfl
  rw [if_pos (by omega)]
  by_cases fits : sliceStart limit.offset members.items.length + limit.count < 2 ^ 63
  · have fitsToo : limit.Fits members.items.length := Or.inr fits
    rw [if_pos fitsToo, fitsInt64_eq_some (by omega) fits, Option.bind_some,
      sliceLength, if_neg all]
    by_cases short : sliceStart limit.offset members.items.length +
        limit.count < members.items.length
    · rw [if_pos short, min_eq_left (by omega)]
    · rw [if_neg short, min_eq_right (by omega), fitsInt64_eq_some (by omega) (by omega)]
      rfl
  · have exceeds : ¬ limit.Fits members.items.length := not_or.mpr ⟨all, fits⟩
    rw [if_neg exceeds, fitsInt64_eq_none (by omega)]
    rfl

/-- The number of strings of a slice. -/
def stringCount (withScores : Bool) (count : Int) : Int := if withScores then count * 2 else count

theorem fitted_inside :
    0 ≤ (limit.fitted members.items.length).offset ∧
      0 ≤ (limit.fitted members.items.length).count ∧
      (limit.fitted members.items.length).offset +
        (limit.fitted members.items.length).count < 2 ^ 60 := by
  have bounded := members.bounded
  have start := sliceStart_mem_range limit.offset members.items.length
  have length := sliceLength_mem_range limit.offset limit.count members.items.length
  refine ⟨start.1, length.1, ?_⟩
  have inside : (limit.fitted members.items.length).offset +
      (limit.fitted members.items.length).count ≤ members.items.length :=
    length.2
  omega

theorem announced_fitted (withScores : Bool) :
    announced withScores (limit.fitted members.items.length).count =
      some (stringCount withScores (limit.fitted members.items.length).count) := by
  have inside := fitted_inside limit members
  cases withScores with
  | false => rfl
  | true => exact fitsInt64_eq_some (by omega) (by omega)

/-- The reply in the order of the vector is made of the slice. -/
theorem answerUpwards_eq (kept : ∀ index, 0 ≤ index → index < 2 ^ 63 → stored index = index)
    (withScores : Bool) (emit : CmdRes → α → CmdRes) :
    answerUpwards stored limit withScores emit members = if limit.Fits members.items.length then
        some ((slice limit.offset limit.count members.items).foldl emit
          (CmdRes.create.appendArrayLen (stringCount withScores
            (slice limit.offset limit.count members.items).length)))
      else none := by
  have inside := fitted_inside limit members
  have length : ((slice limit.offset limit.count members.items).length : Int) =
      (limit.fitted members.items.length).count := length_slice _ _ _
  unfold answerUpwards
  rw [castInt64_length, fitLimit_length, length]
  split_ifs with fits
  · rw [Option.bind_some, fitsInt64_eq_some (by omega) (by omega),
      Option.bind_some, announced_fitted, Option.bind_some,
      kept _ (by omega) (by omega), kept _ (by omega) (by omega), add_sub_cancel_left]
    exact loopAt_slice _ _ _ _ _
  · rfl

/-- The reply in the reversed order is made of the slice of the reversed
list. -/
theorem answerDownwards_eq (emit : CmdRes → α → CmdRes) :
    answerDownwards limit emit members = if limit.Fits members.items.length then
        some ((slice limit.offset limit.count members.items.reverse).foldl emit
          (CmdRes.create.appendArrayLen
            (slice limit.offset limit.count members.items.reverse).length))
      else none := by
  have bounded := members.bounded
  have inside := fitted_inside limit members
  have length :
      ((slice limit.offset limit.count members.items.reverse).length : Int) =
        (limit.fitted members.items.length).count := by
    rw [length_slice, length_reverse]
    rfl
  unfold answerDownwards
  rw [castInt64_length, fitLimit_length, length]
  split_ifs with fits
  · -- An offset at the end makes the first index -1.
    rw [Option.bind_some, castInt64_castUInt64,
      castInt64_eq_self (by omega) (by omega), loopDownwards,
      fitsInt64_eq_some (by omega) (by omega), Option.bind_some, sub_sub_cancel]
    exact loopAt_slice_reverse _ _ _ _ _
  · rfl

end

/-! ## Strings -/

/-- The reply that is an array of strings. -/
def arrayReply (strings : List Bytes) : CmdRes :=
  ofTokens (.header strings.length :: strings.map RespToken.bulk)

/-- Emitting items appends their strings. -/
theorem foldl_emit_ofTokens {emit : CmdRes → α → CmdRes} {strings : α → List Bytes}
    (emits : ∀ tokens item, emit (ofTokens tokens) item =
      ofTokens (tokens ++ (strings item).map RespToken.bulk))
    (tokens : List RespToken) (items : List α) :
    items.foldl emit (ofTokens tokens) = ofTokens
        (tokens ++ (items.flatMap strings).map RespToken.bulk) := by
  induction items generalizing tokens with
  | nil => simp
  | cons item items ih =>
    rw [foldl_cons, emits, ih, flatMap_cons, map_append, append_assoc]

/-- Items behind the number of their strings are an array of strings. -/
theorem foldl_emit_appendArrayLen {emit : CmdRes → α → CmdRes} {strings : α → List Bytes}
    (emits : ∀ tokens item, emit (ofTokens tokens) item =
      ofTokens (tokens ++ (strings item).map RespToken.bulk)) {items : List α} {length : Int}
    (counted : length = (items.flatMap strings).length) :
    items.foldl emit (CmdRes.create.appendArrayLen length) =
      arrayReply (items.flatMap strings) := by
  rw [CmdRes.create_eq_ofTokens, CmdRes.appendArrayLen_ofTokens, foldl_emit_ofTokens emits, counted]
  rfl

def scoreStrings (texts : ScoreTexts Score) (withScores : Bool)
    (found : ScoreMember Score) : List Bytes :=
  if withScores then [found.member, texts.zsetD2string found.score]
  else [found.member]

theorem length_flatMap_scoreStrings (texts : ScoreTexts Score)
    (withScores : Bool) (items : List (ScoreMember Score)) :
    stringCount withScores items.length =
      (items.flatMap (scoreStrings texts withScores)).length := by
  induction items with
  | nil => cases withScores <;> rfl
  | cons item items ih =>
    rw [flatMap_cons, length_append, Nat.cast_add, ← ih, length_cons]
    cases withScores <;>
      simp only [stringCount, scoreStrings, if_true, if_false,
        length_cons, length_nil, Bool.false_eq_true] <;>
      omega

theorem foldl_appendString_appendArrayLen (members : List Bytes) :
    members.foldl (fun res member => res.appendString member)
        (CmdRes.create.appendArrayLen members.length) = arrayReply members := by
  have singles : members.flatMap (fun member => [member]) = members := by simp
  rw [foldl_emit_appendArrayLen (fun tokens member => CmdRes.appendString_ofTokens member tokens)
    (by rw [singles]), singles]

/-! ## Commands -/

/-- A command that emits a slice, after `DoInitial`. -/
inductive RangeCmd (Score : Type) where
  | zRangebyscore (cmd : ZsetRangebyscore Score)
  | zRevrangebyscore (cmd : ZsetRangebyscore Score)
  | zRangebylex (cmd : ZsetRangebylex)
  | zRevrangebylex (cmd : ZsetRangebylex)

namespace RangeCmd

/-- What LIMIT has given. -/
def limit : RangeCmd Score → LimitFields
  | zRangebyscore cmd | zRevrangebyscore cmd => cmd.limit
  | zRangebylex cmd | zRevrangebylex cmd => cmd.limit

section

variable {Score Db : Type} [LinearOrder Score] [BoundedOrder Score]
variable (texts : ScoreTexts Score) (engine : SortedSetEngine Score Db)
variable (db : Db)

/-- `Do`. -/
def run : RangeCmd Score → Option CmdRes
  | zRangebyscore cmd => zRangebyscoreDo texts engine db cmd
  | zRevrangebyscore cmd => zRevrangebyscoreDo texts engine db cmd
  | zRangebylex cmd => zRangebylexDo engine db cmd
  | zRevrangebylex cmd => zRevrangebylexDo engine db cmd

end

/-- The list that a `Do` fetches, as the strings of each item, if the engine
does not fail.  Nothing is asked of the engine for a range that is skipped. -/
def listed (skips : Prop) [Decidable skips] (answer : EngineStatus × StdVector α)
    (strings : List α → List (List Bytes)) : Option (List (List Bytes)) :=
  if skips then some []
  else
    match answer with
    | (.failed _, _) => none
    | (.ok, members) | (.notFound _, members) => some (strings members.items)

section

variable {Score Db : Type} [LinearOrder Score] [BoundedOrder Score]
variable (texts : ScoreTexts Score) (engine : SortedSetEngine Score Db)
variable (db : Db)

/-- The list that is sliced: the engine's, or its reverse for
ZREVRANGEBYLEX. -/
def fetched : RangeCmd Score → Option (List (List Bytes))
  | zRangebyscore cmd =>
    listed cmd.range.Skips (engine.zRangebyscore db cmd.key cmd.range)
      (List.map (scoreStrings texts cmd.withScores))
  | zRevrangebyscore cmd =>
    listed cmd.range.Skips (engine.zRevrangebyscore db cmd.key cmd.range)
      (List.map (scoreStrings texts cmd.withScores))
  | zRangebylex cmd =>
    listed cmd.range.Skips (engine.zRangebylex db cmd.key cmd.range)
      (List.map fun member => [member])
  | zRevrangebylex cmd =>
    listed cmd.range.Skips (engine.zRangebylex db cmd.key cmd.range)
      (fun members => members.reverse.map fun member => [member])

/-- The command replies with an array of the strings of the slice, and neither
overflows nor reads outside the engine's list. -/
def EmitsSlice (cmd : RangeCmd Score) : Prop :=
  ∀ items ∈ cmd.fetched texts engine db, cmd.run texts engine db = some (arrayReply
        (slice cmd.limit.offset cmd.limit.count items).flatten)

end

/-- The array of the slice, if the limit fits. -/
def sliceReply (limit : LimitFields) (items : List (List Bytes)) : Option CmdRes :=
  if limit.Fits items.length then some (arrayReply (slice limit.offset limit.count items).flatten)
  else none

/-- A range that is skipped is an empty list. -/
theorem contentReply_eq_sliceReply_nil (limit : LimitFields) :
    some (contentReply "*0") = sliceReply limit [] := by
  have fits : limit.Fits 0 := by
    have upper := limit.count_mem_range.2
    right
    rw [sliceStart, if_neg (by omega)]
    omega
  have empty : (slice limit.offset limit.count ([] : List (List Bytes))) = [] := by
    unfold slice
    split_ifs <;> simp
  have reply : contentReply "*0" = arrayReply [] := by decide +kernel
  rw [sliceReply, length_nil, if_pos fits, empty, reply]
  rfl

theorem listed_of_found {skips : Prop} [Decidable skips]
    {answer : EngineStatus × StdVector α} {members : List α}
    (found : answer.1.Found ∧ answer.2.items = members) (strings : List α → List (List Bytes)) :
    listed skips answer strings = some (if skips then [] else strings members) := by
  obtain ⟨status, items⟩ := answer
  obtain ⟨answers, rfl⟩ := found
  unfold listed
  split_ifs
  · rfl
  · cases status with
    | ok | notFound => rfl
    | failed text => cases answers

/-- A reply that slices every list slices the fetched one. -/
theorem answered_eq_sliceReply {skips : Prop} [Decidable skips]
    {answer : EngineStatus × StdVector α} {strings : List α → List (List Bytes)}
    {reply : StdVector α → Option CmdRes} {limit : LimitFields} {items : List (List Bytes)}
    (replies : ∀ members : StdVector α, reply members = sliceReply limit (strings members.items))
    (found : items ∈ listed skips answer strings) :
    answered skips answer reply = sliceReply limit items := by
  unfold listed at found
  unfold answered
  by_cases skipped : skips
  · rw [if_pos skipped] at found ⊢
    cases found
    exact contentReply_eq_sliceReply_nil limit
  · rw [if_neg skipped] at found ⊢
    obtain ⟨status, members⟩ := answer
    cases status with
    | ok | notFound =>
      cases found
      exact replies members
    | failed text => cases found

/-- Commands on scores emit the strings of the slice. -/
theorem answerUpwards_eq_sliceReply
    (kept : ∀ index, 0 ≤ index → index < 2 ^ 63 → stored index = index)
    (texts : ScoreTexts Score) (limit : LimitFields) (withScores : Bool)
    (members : StdVector (ScoreMember Score)) :
    answerUpwards stored limit withScores (emitScoreMember texts withScores) members =
      sliceReply limit (members.items.map (scoreStrings texts withScores)) := by
  rw [answerUpwards_eq limit members kept, foldl_emit_appendArrayLen
      (fun tokens found => by cases withScores <;> simp [emitScoreMember, scoreStrings])
      (length_flatMap_scoreStrings texts withScores _),
    sliceReply, length_map, slice_map, flatMap_def]

theorem answerUpwards_members_eq_sliceReply
    (kept : ∀ index, 0 ≤ index → index < 2 ^ 63 → stored index = index)
    (limit : LimitFields) (members : StdVector Bytes) :
    answerUpwards stored limit false (fun res member => res.appendString member) members =
      sliceReply limit (members.items.map fun member => [member]) := by
  rw [answerUpwards_eq limit members kept, sliceReply, length_map,
    slice_map, ← flatMap_def, flatMap_singleton']
  exact congrArg (fun reply => if limit.Fits members.items.length then
    some reply else none) (foldl_appendString_appendArrayLen _)

theorem castUInt64_kept (index : Int) (lower : 0 ≤ index) (upper : index < 2 ^ 63) :
    (castUInt64 index : Int) = index :=
  castUInt64_eq_self lower (by omega)

theorem answerDownwards_eq_sliceReply (limit : LimitFields) (members : StdVector Bytes) :
    answerDownwards limit (fun res member => res.appendString member) members =
      sliceReply limit (members.items.reverse.map fun member => [member]) := by
  rw [answerDownwards_eq limit members, sliceReply, length_map,
    length_reverse, slice_map, ← flatMap_def,
    flatMap_singleton', foldl_appendString_appendArrayLen]

section

variable {Score Db : Type} [LinearOrder Score] [BoundedOrder Score]
variable (texts : ScoreTexts Score) (engine : SortedSetEngine Score Db)
variable (db : Db)

/-- A command whose list is fetched replies with the slice if the limit fits. -/
theorem run_of_mem_fetched {cmd : RangeCmd Score} (found : items ∈ cmd.fetched texts engine db) :
    cmd.run texts engine db = sliceReply cmd.limit items := by
  cases cmd with
  | zRangebyscore cmd =>
    refine answered_eq_sliceReply ?_ found
    exact answerUpwards_eq_sliceReply castUInt64_kept texts _ _
  | zRevrangebyscore cmd =>
    refine answered_eq_sliceReply ?_ found
    exact answerUpwards_eq_sliceReply (fun _ _ _ => rfl) texts _ _
  | zRangebylex cmd =>
    refine answered_eq_sliceReply ?_ found
    exact answerUpwards_members_eq_sliceReply castUInt64_kept _
  | zRevrangebylex cmd =>
    rw [fetched] at found
    refine answered_eq_sliceReply ?_ found
    exact answerDownwards_eq_sliceReply _

/-- A command emits the slice that was asked for exactly if the sum of its
offset and its count fits. -/
theorem emitsSlice_iff_fits (cmd : RangeCmd Score) :
    cmd.EmitsSlice texts engine db ↔ ∀ items ∈ cmd.fetched texts engine db,
        cmd.limit.Fits items.length := by
  unfold EmitsSlice
  apply forall_congr'
  intro items
  apply forall_congr'
  intro found
  rw [run_of_mem_fetched texts engine db found, sliceReply]
  split_ifs with fits
  · exact iff_of_true rfl fits
  · exact iff_of_false nofun fits

end

/-! ## A count that is too large -/

/-- Two scores between the infinite ones. -/
def SampleScore : Type := Fin 4

instance : LinearOrder SampleScore := Fin.instLinearOrder

instance : BoundedOrder SampleScore where
  top := Fin.last 3
  le_top := Fin.le_last
  bot := (0 : Fin 4)
  bot_le := Fin.zero_le

/-- Scores without texts. -/
def plainTexts : ScoreTexts SampleScore where
  string2d _ := none
  zsetD2string _ := []

/-- An engine whose keys hold the members `a` and `b`. -/
def pairEngine : SortedSetEngine SampleScore Unit :=
  let found : StdVector (ScoreMember SampleScore) :=
    { items := [{ score := (1 : Fin 4), member := ascii "a" },
        { score := (2 : Fin 4), member := ascii "b" }]
      bounded := by decide }
  let members : StdVector Bytes := { items := [ascii "a", ascii "b"], bounded := by decide }
  { zRangebyscore := fun _ _ _ => (.ok, found)
    zRevrangebyscore := fun _ _ _ => (.ok, found)
    zCount := fun _ _ _ => (.ok, 2)
    zRemrangebyscore := fun _ _ _ => ((.ok, 2), ())
    zRangebylex := fun _ _ _ => (.ok, members)
    zLexcount := fun _ _ _ => (.ok, 2)
    zRemrangebylex := fun _ _ _ => ((.ok, 2), ()) }

/-- All but one of the members of a key, up to the largest count. -/
def hugeCount : List Bytes :=
  ["zrangebyscore", "z", "-inf", "+inf", "limit", "1", "9223372036854775807"].map ascii

/-- The command it is parsed as. -/
def hugeCountCmd : ZsetRangebyscore SampleScore where
  key := ascii "z"
  range :=
    { minScore := ⊥, maxScore := ⊤, leftClose := true, rightClose := true }
  withScores := false
  limit := .store 1 9223372036854775807

/-- The offset and the count of an accepted command overflow. -/
theorem not_emitsSlice_hugeCount :
    ∃ cmd, zRangebyscoreInitial plainTexts hugeCount = .ok cmd ∧
      ¬ (zRangebyscore cmd).EmitsSlice plainTexts pairEngine () := by
  refine ⟨hugeCountCmd, ?_, ?_⟩
  · decide +kernel
  · intro emits
    have reply := emits [[ascii "a"], [ascii "b"]] rfl
    rw [run_of_mem_fetched _ _ _ rfl, sliceReply, if_neg (by decide)] at reply
    cases reply

end RangeCmd

/-! ## Replies without LIMIT -/

theorem arrayReply_injective : Function.Injective arrayReply := by
  intro first second same
  have tokens := respBytes_injective (congrArg CmdRes.raw same)
  have bulks : first.map RespToken.bulk = second.map RespToken.bulk := (List.cons.inj tokens).2
  exact map_injective_iff.mpr (fun _ _ equal => RespToken.bulk.inj equal) bulks

theorem sliceReply_clear (items : List (List Bytes)) :
    RangeCmd.sliceReply .clear items = some (arrayReply items.flatten) := by
  have fits : LimitFields.clear.Fits items.length := Or.inl (by decide)
  have all : slice LimitFields.clear.offset LimitFields.clear.count items = items := slice_all items
  rw [RangeCmd.sliceReply, if_pos fits, all]

theorem sliceReply_clear_members (members : List Bytes) :
    RangeCmd.sliceReply .clear (members.map fun member => [member]) =
      some (arrayReply members) := by
  rw [sliceReply_clear, ← flatMap_def, flatMap_singleton']

theorem countReply_of_found (found : answer.1.Found ∧ answer.2 = count) :
    countReply answer = ofTokens [.integer count] := by
  obtain ⟨status, number⟩ := answer
  obtain ⟨answers, rfl⟩ := found
  cases status with
  | ok => exact CmdRes.appendInteger_ofTokens number []
  | notFound text => exact CmdRes.appendInteger_ofTokens number []
  | failed text => cases answers

/-- An integer is not the text of an empty array. -/
theorem contentReply_ne_integer (number : Int) :
    contentReply "*0" ≠ ofTokens [.integer number] := by
  intro same
  have first := congrArg (fun res => res.raw.head?) same
  simp [contentReply, CmdRes.create, CmdRes.appendContent, ofTokens,
    RespToken.bytes, lengthLine, RespToken.marker, ascii] at first

theorem integer_ofTokens_inj :
    ofTokens [.integer first] = ofTokens [.integer second] ↔ first = second := by
  constructor
  · intro same
    have tokens := respBytes_injective (congrArg CmdRes.raw same)
    exact RespToken.integer.inj (List.cons.inj tokens).1
  · rintro rfl
    rfl

end Pika.Command
