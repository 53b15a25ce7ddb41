import Mathlib.Order.BoundedOrder.Basic
import Pika.Command.Encoding
import Pika.Command.Reply
import Pika.Foundation.Slice

/-!
# Range commands of sorted sets

The commands that read, count or remove the members of a sorted set between two
scores or between two members.  The scores are a linear order with a least
element `ZSET_SCORE_MIN` and a greatest element `ZSET_SCORE_MAX`.  The engine
and the texts of scores are left open.

A `Do` that adds two integers whose sum does not fit, or reads a vector outside
its bounds, has no outcome.
-/

namespace Pika.Command

open Foundation
open Binlog (Bytes)

/-- A status of the engine, with its text. -/
inductive EngineStatus where
  | ok
  | notFound (text : TextLine)
  | failed (text : TextLine)

/-- The status is not one that ends a query. -/
def EngineStatus.Found : EngineStatus → Prop
  | .failed _ => False
  | .ok | .notFound _ => True

/-- `blackwidow::ScoreMember`. -/
structure ScoreMember (Score : Type) where
  score : Score
  member : Bytes

/-- The texts of scores that are not infinite. -/
structure ScoreTexts (Score : Type) where
  string2d : Bytes → Option Score
  zsetD2string : Score → Bytes

structure ScoreRange (Score : Type) where
  minScore : Score
  maxScore : Score
  leftClose : Bool
  rightClose : Bool
  deriving DecidableEq

structure MemberRange where
  minMember : Bytes
  maxMember : Bytes
  leftClose : Bool
  rightClose : Bool
  deriving DecidableEq

/-- What LIMIT has given. -/
structure LimitFields where
  offset : Int
  count : Int
  /-- The offset is an `int64_t`. -/
  offset_mem_range : -2 ^ 63 ≤ offset ∧ offset < 2 ^ 63
  /-- The count is an `int64_t`. -/
  count_mem_range : -2 ^ 63 ≤ count ∧ count < 2 ^ 63
  deriving DecidableEq

/-- Two numbers stored in the fields of LIMIT. -/
def LimitFields.store (offset count : Int) : LimitFields where
  offset := castInt64 offset
  count := castInt64 count
  offset_mem_range := castInt64_mem_range offset
  count_mem_range := castInt64_mem_range count

/-- `Clear` of the fields of LIMIT. -/
def LimitFields.clear : LimitFields := LimitFields.store 0 (-1)

/-- An offset and a count that `FitLimit` has fitted to a size. -/
structure FittedLimit where
  offset : Int
  count : Int

/-- The engine, on databases of some type. -/
structure SortedSetEngine (Score Db : Type) where
  zRangebyscore : Db → Bytes → ScoreRange Score → EngineStatus × StdVector (ScoreMember Score)
  zRevrangebyscore : Db → Bytes → ScoreRange Score → EngineStatus × StdVector (ScoreMember Score)
  zCount : Db → Bytes → ScoreRange Score → EngineStatus × Int
  zRemrangebyscore : Db → Bytes → ScoreRange Score → (EngineStatus × Int) × Db
  zRangebylex : Db → Bytes → MemberRange → EngineStatus × StdVector Bytes
  zLexcount : Db → Bytes → MemberRange → EngineStatus × Int
  zRemrangebylex : Db → Bytes → MemberRange → (EngineStatus × Int) × Db

/-! ## Bounds -/

section

variable {Score : Type} [LinearOrder Score] [BoundedOrder Score]
variable (texts : ScoreTexts Score)

def zsetString2d (text : Bytes) : Option Score :=
  if text = ascii "-inf" then some ⊥
  else if text = ascii "+inf" then some ⊤
  else if text = ascii "inf" then some ⊤
  else texts.string2d text

/-- One of the two bounds of `DoScoreStrRange`: whether it is closed, and its
score. -/
def scoreBound (text : Bytes) : Option (Bool × Score) :=
  let close := text.head? != some 40
  let text := if close then text else text.tail
  if text = ascii "-inf" then some (close, ⊥)
  else if text = ascii "inf" ∨ text = ascii "+inf" then some (close, ⊤)
  else (zsetString2d texts text).map fun score => (close, score)

def doScoreStrRange (beginScore endScore : Bytes) : Option (ScoreRange Score) :=
  (scoreBound texts beginScore).bind fun (leftClose, minScore) =>
    (scoreBound texts endScore).map fun (rightClose, maxScore) =>
      { minScore, maxScore, leftClose, rightClose }

/-- The range of scores with its ends exchanged. -/
def ScoreRange.swap (range : ScoreRange Score) : ScoreRange Score where
  minScore := range.maxScore
  maxScore := range.minScore
  leftClose := range.rightClose
  rightClose := range.leftClose

end

/-- One of the two bounds of `DoMemberRange`: whether it is closed, and its
member. -/
def memberBound (raw : Bytes) : Option (Bool × Bytes) :=
  if raw = ascii "-" then some (true, ascii "-")
  else if raw = ascii "+" then some (true, ascii "+")
  else
    match raw with
    | [] => none
    | first :: member =>
      if first = 40 then some (false, member)
      else if first = 91 then some (true, member)
      else none

def doMemberRange (rawMinMember rawMaxMember : Bytes) : Option MemberRange :=
  (memberBound rawMinMember).bind fun (leftClose, minMember) =>
    (memberBound rawMaxMember).map fun (rightClose, maxMember) =>
      { minMember, maxMember, leftClose, rightClose }

/-- The range of members with its ends exchanged. -/
def MemberRange.swap (range : MemberRange) : MemberRange where
  minMember := range.maxMember
  maxMember := range.minMember
  leftClose := range.rightClose
  rightClose := range.leftClose

/-! ## Parsing -/

/-- A command on a range of scores after `DoInitial`. -/
structure ZsetRangebyscore (Score : Type) where
  key : Bytes
  range : ScoreRange Score
  withScores : Bool
  limit : LimitFields
  deriving DecidableEq

/-- A command on a range of members after `DoInitial`. -/
structure ZsetRangebylex where
  key : Bytes
  range : MemberRange
  limit : LimitFields
  deriving DecidableEq

def limitArguments (offset count : Bytes) : Except CmdRet LimitFields :=
  match string2l offset with
  | none => .error .kInvalidInt
  | some offset =>
    match string2l count with
    | none => .error .kInvalidInt
    | some count => .ok (.store offset count)

/-- The loop over the options of a command on scores. -/
def rangeOptions : List Bytes → Bool → LimitFields → Except CmdRet (Bool × LimitFields)
  | [], withScores, limit => .ok (withScores, limit)
  | opt :: rest, withScores, limit =>
    if sameWord opt "withscores" then rangeOptions rest true limit
    else if sameWord opt "limit" then
      match rest with
      | offset :: count :: rest =>
        match limitArguments offset count with
        | .error code => .error code
        | .ok limit => rangeOptions rest withScores limit
      | _ => .error .kSyntaxErr
    else .error .kSyntaxErr

section

variable {Score : Type} [LinearOrder Score] [BoundedOrder Score]
variable (texts : ScoreTexts Score)

/-- `DoInitial` of a command on scores that has no options. -/
def scoreRangeInitial (command : CommandName) (name : String)
    (argv : List Bytes) : Except CmdRet (Bytes × ScoreRange Score) :=
  if command.checkArg argv.length then
    match doScoreStrRange texts (argument argv 2) (argument argv 3) with
    | none => .error (.kErrOther "min or max is not a float")
    | some range => .ok (argument argv 1, range)
  else .error (.kWrongNum name)

/-- `ZsetRangebyscoreParentCmd::DoInitial`, behind the number of arguments. -/
def zsetRangebyscoreInitial (command : CommandName) (name : String)
    (argv : List Bytes) : Except CmdRet (ZsetRangebyscore Score) :=
  match scoreRangeInitial texts command name argv with
  | .error code => .error code
  | .ok (key, range) =>
    match rangeOptions (argv.drop 4) false LimitFields.clear with
    | .error code => .error code
    | .ok (withScores, limit) => .ok { key, range, withScores, limit }

/-- `ZRangebyscoreCmd::DoInitial`. -/
def zRangebyscoreInitial (argv : List Bytes) : Except CmdRet (ZsetRangebyscore Score) :=
  zsetRangebyscoreInitial texts .zRangebyscoreCmd "zrangebyscore" argv

/-- `ZRevrangebyscoreCmd::DoInitial`, which exchanges the ends. -/
def zRevrangebyscoreInitial (argv : List Bytes) : Except CmdRet (ZsetRangebyscore Score) :=
  (zsetRangebyscoreInitial texts .zRevrangebyscoreCmd "zrevrangebyscore"
    argv).map fun cmd => { cmd with range := cmd.range.swap }

/-- `ZCountCmd::DoInitial`. -/
def zCountInitial (argv : List Bytes) : Except CmdRet (Bytes × ScoreRange Score) :=
  scoreRangeInitial texts .zCountCmd "zcount" argv

/-- `ZRemrangebyscoreCmd::DoInitial`. -/
def zRemrangebyscoreInitial (argv : List Bytes) : Except CmdRet (Bytes × ScoreRange Score) :=
  scoreRangeInitial texts .zRemrangebyscoreCmd "zremrangebyscore" argv

end

/-- `DoInitial` of a command on members that has no options. -/
def memberRangeInitial (command : CommandName) (name : String)
    (argv : List Bytes) : Except CmdRet (Bytes × MemberRange) :=
  if command.checkArg argv.length then
    match doMemberRange (argument argv 2) (argument argv 3) with
    | none => .error (.kErrOther "min or max not valid string range item")
    | some range => .ok (argument argv 1, range)
  else .error (.kWrongNum name)

/-- `ZsetRangebylexParentCmd::DoInitial`, behind the number of arguments. -/
def zsetRangebylexInitial (command : CommandName) (name : String)
    (argv : List Bytes) : Except CmdRet ZsetRangebylex :=
  match memberRangeInitial command name argv with
  | .error code => .error code
  | .ok (key, range) =>
    if argv.length = 4 then .ok { key, range, limit := LimitFields.clear }
    else if argv.length ≠ 7 ∨ sameWord (argument argv 4) "limit" = false then .error .kSyntaxErr
    else
      match limitArguments (argument argv 5) (argument argv 6) with
      | .error code => .error code
      | .ok limit => .ok { key, range, limit }

/-- `ZRangebylexCmd::DoInitial`. -/
def zRangebylexInitial (argv : List Bytes) : Except CmdRet ZsetRangebylex :=
  zsetRangebylexInitial .zRangebylexCmd "zrangebylex" argv

/-- `ZRevrangebylexCmd::DoInitial`, which exchanges the ends. -/
def zRevrangebylexInitial (argv : List Bytes) : Except CmdRet ZsetRangebylex :=
  (zsetRangebylexInitial .zRevrangebylexCmd "zrevrangebylex" argv).map
    fun cmd => { cmd with range := cmd.range.swap }

/-- `ZLexcountCmd::DoInitial`. -/
def zLexcountInitial (argv : List Bytes) : Except CmdRet (Bytes × MemberRange) :=
  memberRangeInitial .zLexcountCmd "zlexcount" argv

/-- `ZRemrangebylexCmd::DoInitial`. -/
def zRemrangebylexInitial (argv : List Bytes) : Except CmdRet (Bytes × MemberRange) :=
  memberRangeInitial .zRemrangebylexCmd "zremrangebylex" argv

/-! ## Execution -/

def fitLimit (limit : LimitFields) (size : Int) : Option FittedLimit :=
  let count := if 0 ≤ limit.count then limit.count else size
  let offset := if 0 ≤ limit.offset ∧ limit.offset < size then limit.offset else size
  (fitsInt64 (offset + count)).bind fun stop =>
    if stop < size then some { offset, count }
    else (fitsInt64 (size - offset)).map fun count => { offset, count }

/-- A reply that is a text. -/
def contentReply (text : String) : CmdRes := CmdRes.create.appendContent (ascii text)

/-- The reply to a failure of the engine. -/
def failedReply (text : TextLine) : CmdRes := CmdRes.create.setResContent .kErrOther text.text

/-- The length of the array, for one or two strings for each item. -/
def announced (withScores : Bool) (count : Int) : Option Int :=
  if withScores then fitsInt64 (count * 2) else some count

/-- The reply made of a slice in the order of the vector.  The indices are
stored in a type of the loop's own. -/
def answerUpwards (stored : Int → Int) (limit : LimitFields) (withScores : Bool)
    (emit : CmdRes → α → CmdRes) (members : StdVector α) : Option CmdRes :=
  (fitLimit limit (castInt64 members.items.length)).bind fun fitted =>
    (fitsInt64 (fitted.offset + fitted.count)).bind fun stop =>
      (announced withScores fitted.count).bind fun length =>
        loopAt members.items 1 emit (stored stop - stored fitted.offset).toNat
          (stored fitted.offset) (CmdRes.create.appendArrayLen length)

/-- A loop downwards from an index, over a number of items. -/
def loopDownwards (items : List α) (emit : CmdRes → α → CmdRes) (res : CmdRes)
    (index count : Int) : Option CmdRes :=
  (fitsInt64 (index - count)).bind fun stop =>
    loopAt items (-1) emit (index - stop).toNat index res

/-- The reply of `ZRevrangebylexCmd`, made of a slice in the reversed order.
The first index is computed as a `size_t`. -/
def answerDownwards (limit : LimitFields) (emit : CmdRes → α → CmdRes)
    (members : StdVector α) : Option CmdRes :=
  (fitLimit limit (castInt64 members.items.length)).bind fun fitted =>
    loopDownwards members.items emit (CmdRes.create.appendArrayLen fitted.count)
      (castInt64 (castUInt64 (members.items.length - 1 - fitted.offset)))
      fitted.count

def emitScoreMember (texts : ScoreTexts Score) (withScores : Bool)
    (res : CmdRes) (found : ScoreMember Score) : CmdRes :=
  let res := res.appendString found.member
  if withScores then res.appendString (texts.zsetD2string found.score) else res

/-- A `Do` that asks the engine for a list, unless the range is skipped. -/
def answered (skips : Prop) [Decidable skips] (answer : EngineStatus × StdVector α)
    (reply : StdVector α → Option CmdRes) : Option CmdRes :=
  if skips then some (contentReply "*0")
  else
    match answer with
    | (.failed text, _) => some (failedReply text)
    | (.ok, members) | (.notFound _, members) => reply members

/-- The reply to a count of the engine. -/
def countReply : EngineStatus × Int → CmdRes
  | (.failed text, _) => failedReply text
  | (.ok, count) | (.notFound _, count) => CmdRes.create.appendInteger count

section

variable {Score Db : Type} [LinearOrder Score] [BoundedOrder Score]
variable (texts : ScoreTexts Score) (engine : SortedSetEngine Score Db)
variable (db : Db)

/-- The test before every call of the engine on scores. -/
def ScoreRange.Skips (range : ScoreRange Score) : Prop := range.minScore = ⊤ ∨ range.maxScore = ⊥

instance (range : ScoreRange Score) : Decidable range.Skips := inferInstanceAs (Decidable (_ ∨ _))

/-- `ZRangebyscoreCmd::Do`. -/
def zRangebyscoreDo (cmd : ZsetRangebyscore Score) : Option CmdRes :=
  answered cmd.range.Skips (engine.zRangebyscore db cmd.key cmd.range)
    (answerUpwards (fun index => castUInt64 index) cmd.limit cmd.withScores
      (emitScoreMember texts cmd.withScores))

/-- `ZRevrangebyscoreCmd::Do`. -/
def zRevrangebyscoreDo (cmd : ZsetRangebyscore Score) : Option CmdRes :=
  answered cmd.range.Skips (engine.zRevrangebyscore db cmd.key cmd.range)
    (answerUpwards (fun index => index) cmd.limit cmd.withScores
      (emitScoreMember texts cmd.withScores))

/-- `ZCountCmd::Do`. -/
def zCountDo (key : Bytes) (range : ScoreRange Score) : CmdRes :=
  if range.Skips then contentReply "*0"
  else countReply (engine.zCount db key range)

/-- `ZRemrangebyscoreCmd::Do`. -/
def zRemrangebyscoreDo (key : Bytes) (range : ScoreRange Score) : CmdRes × Db :=
  if range.Skips then (contentReply ":0", db)
  else
    let (answer, after) := engine.zRemrangebyscore db key range
    (countReply answer, after)

/-- The test before every call of the engine on members. -/
def MemberRange.Skips (range : MemberRange) : Prop :=
  range.minMember = ascii "+" ∨ range.maxMember = ascii "-"

instance (range : MemberRange) : Decidable range.Skips := inferInstanceAs (Decidable (_ ∨ _))

/-- `ZRangebylexCmd::Do`. -/
def zRangebylexDo (cmd : ZsetRangebylex) : Option CmdRes :=
  answered cmd.range.Skips (engine.zRangebylex db cmd.key cmd.range)
    (answerUpwards (fun index => castUInt64 index) cmd.limit false
      (fun res member => res.appendString member))

/-- `ZRevrangebylexCmd::Do`. -/
def zRevrangebylexDo (cmd : ZsetRangebylex) : Option CmdRes :=
  answered cmd.range.Skips (engine.zRangebylex db cmd.key cmd.range)
    (answerDownwards cmd.limit (fun res member => res.appendString member))

/-- `ZLexcountCmd::Do`. -/
def zLexcountDo (key : Bytes) (range : MemberRange) : CmdRes :=
  if range.Skips then contentReply ":0"
  else countReply (engine.zLexcount db key range)

/-- `ZRemrangebylexCmd::Do`. -/
def zRemrangebylexDo (key : Bytes) (range : MemberRange) : CmdRes × Db :=
  if range.Skips then (contentReply "*0", db)
  else
    let (answer, after) := engine.zRemrangebylex db key range
    (countReply answer, after)

end

end Pika.Command
