import Pika.Binlog.Item
import Pika.Command.Keys
import Pika.Foundation.Resp

/-!
# The record a command leaves in the binlog

`DoInitial` and `ToBinlog` of the classes that log another command than they
received, and of the commands they log.  Every other class logs its own
arguments, whatever its `DoInitial` checks.
-/

namespace Pika.Command

open Foundation
open Binlog (Bytes BinlogItem putFixed)

/-! ## Texts -/

/-- `tolower` of one byte. -/
def toLower (byte : UInt8) : UInt8 :=
  if 65 ≤ byte.toNat ∧ byte.toNat ≤ 90 then byte + 32 else byte

/-- `StringToLower`. -/
def stringToLower (text : Bytes) : Bytes := text.map toLower

/-- Whether `strcasecmp` finds an argument equal to a lower-case word. -/
def sameWord (text : Bytes) (word : String) : Bool := stringToLower (cString text) == ascii word

/-- `GetCmd` of the first argument in lower case.  A follower lowers it itself;
that clients' arguments come so is assumed of their parser, which is not in the
sources. -/
def getCmd (argv : List Bytes) : Option CommandName :=
  getCmdFromTable (stringToLower (argument argv 0))

/-! ## Parsing -/

/-- The errors `DoInitial` reports. -/
inductive CmdRet where
  | kWrongNum (command : String)
  | kSyntaxErr
  | kInvalidInt
  | kInvalidDbType
  | kErrOther (message : String)
  deriving DecidableEq, Repr

/-- `SetCmd::SetCondition`. -/
inductive SetCondition where
  | kNONE | kNX | kXX | kVX | kEXORPX
  deriving DecidableEq, Repr

/-- The fields of a `SetCmd`. -/
structure SetFields where
  key : Bytes
  value : Bytes
  target : Bytes
  sec : Int
  condition : SetCondition
  deriving DecidableEq

/-- The loop over the options of SET. -/
def setOptions : List Bytes → SetFields → Except CmdRet SetFields
  | [], fields => .ok fields
  | opt :: rest, fields =>
    if sameWord opt "xx" then setOptions rest { fields with condition := .kXX }
    else if sameWord opt "nx" then setOptions rest { fields with condition := .kNX }
    else if sameWord opt "vx" then
      match rest with
      | [] => .error .kSyntaxErr
      | target :: rest =>
        setOptions rest
          { fields with condition := .kVX, target := target }
    else if sameWord opt "ex" || sameWord opt "px" then
      match rest with
      | [] => .error .kSyntaxErr
      | number :: rest =>
        match string2l number with
        | none => .error .kInvalidInt
        | some sec =>
          if sec ≤ 0 then .error (.kErrOther "invalid expire time in set")
          else
            setOptions rest
              { fields with
                condition :=
                  if fields.condition = .kNONE then .kEXORPX
                  else fields.condition
                sec := if sameWord opt "px" then sec.tdiv 1000 else sec }
    else .error .kSyntaxErr

/-- A command after `Initial`. -/
inductive Cmd where
  | set (argv : List Bytes) (fields : SetFields)
  | setnx (key value : Bytes)
  | setex (key value : Bytes) (sec : Int)
  | psetex (key value : Bytes) (usec : Int)
  | expire (key : Bytes) (sec : Int)
  | pexpire (argv : List Bytes) (key : Bytes) (msec : Int)
  | expireat (argv : List Bytes) (key : Bytes) (timeStamp : Int)
  | pexpireat (argv : List Bytes) (key : Bytes) (timeStampMs : Int)
  | pkSetexAt (argv : List Bytes) (key value : Bytes) (timeStamp : Int)
  | flushall
  | flushdb (argv : List Bytes) (dbName : String)
  | padding (argv : List Bytes)
  | other (command : CommandName) (argv : List Bytes)
  deriving DecidableEq

/-- An argument that has to be a 64-bit integer. -/
def integer (text : Bytes) : Except CmdRet Int :=
  match string2l text with
  | none => .error .kInvalidInt
  | some number => .ok number

/-- `FlushdbCmd::DoInitial` behind its argument count. -/
def flushdbName (argv : List Bytes) : Except CmdRet String :=
  if argv.length = 1 then .ok "all"
  else if sameWord (argument argv 1) "string" then .ok "strings"
  else if sameWord (argument argv 1) "hash" then .ok "hashes"
  else if sameWord (argument argv 1) "set" then .ok "sets"
  else if sameWord (argument argv 1) "zset" then .ok "zsets"
  else if sameWord (argument argv 1) "list" then .ok "lists"
  else .error .kInvalidDbType

/-- `CheckArg` at the start of a `DoInitial`. -/
def checked (command : CommandName) (argv : List Bytes)
    (parsed : Except CmdRet Cmd) : Except CmdRet Cmd :=
  if command.checkArg argv.length then parsed
  else .error (.kWrongNum command.registration.name)

/-- The whole `DoInitial` of the classes that log their own arguments. -/
abbrev OtherInitial := CommandName → List Bytes → Except CmdRet Unit

def initial (otherInitial : OtherInitial) (command : CommandName)
    (argv : List Bytes) : Except CmdRet Cmd :=
  let key := argument argv 1
  match command with
  | .setCmd => checked .setCmd argv <| (setOptions (argv.drop 3)
        { key := key
          value := argument argv 2
          target := []
          sec := 0
          condition := .kNONE }).map (.set argv)
  | .setnxCmd => checked .setnxCmd argv <| .ok (.setnx key (argument argv 2))
  | .setexCmd => checked .setexCmd argv <|
      (integer (argument argv 2)).map (.setex key (argument argv 3))
  | .psetexCmd => checked .psetexCmd argv <|
      (integer (argument argv 2)).map (.psetex key (argument argv 3))
  | .expireCmd => checked .expireCmd argv <| (integer (argument argv 2)).map (.expire key)
  | .pexpireCmd => checked .pexpireCmd argv <| (integer (argument argv 2)).map (.pexpire argv key)
  | .expireatCmd => checked .expireatCmd argv <|
      (integer (argument argv 2)).map (.expireat argv key)
  | .pexpireatCmd => checked .pexpireatCmd argv <|
      (integer (argument argv 2)).map (.pexpireat argv key)
  | .pkSetexAtCmd => checked .pkSetexAtCmd argv <| match string2l (argument argv 2) with
      | none => .error .kInvalidInt
      | some timeStamp =>
        if 2 ^ 31 - 1 ≤ timeStamp then .error .kInvalidInt
        else .ok (.pkSetexAt argv key (argument argv 3) timeStamp)
  | .flushallCmd => checked .flushallCmd argv <| .ok .flushall
  | .flushdbCmd => checked .flushdbCmd argv <| (flushdbName argv).map (.flushdb argv)
  | .paddingCmd => checked .paddingCmd argv <| .ok (.padding argv)
  | _ => (otherInitial command argv).map fun _ => .other command argv

/-! ## Encoding -/

/-- `BinlogEncode` of type `TypeFirst`. -/
def binlogEncode (item : BinlogItem) (content : Bytes) : Bytes :=
  putFixed 2 1 ++ putFixed 4 item.execTime ++ putFixed 4 item.termId ++
    putFixed 8 item.logicId ++ putFixed 4 item.filenum ++
    putFixed 8 item.offset ++ putFixed 4 content.length ++ content

def binlogEncodeLen : Nat := 34

/-- The part of a record that is given to the RESP parser. -/
def recordContent (record : Bytes) : Bytes := record.drop binlogEncodeLen

/-- A count written by `RedisAppendLen`, then arguments written by
`RedisAppendLen` and `RedisAppendContent`. -/
def redisAppend (count : Nat) (arguments : List Bytes) : Bytes :=
  lengthLine arrayMarker (decimal count) ++
    arguments.flatMap fun text => bulk (decimal text.length) text

/-- `ConstructPaddingBinlog`; `size` is a `uint32_t`. -/
def constructPaddingBinlog (size : Nat) : Bytes :=
  let contentLen := castInt32 (size - 34)
  let parameterLen := castInt32 (contentLen - 22 - 5)
  if parameterLen < 0 then []
  else
    let numeral := decimal parameterLen.toNat
    if 5 < numeral.length then []
    else
      putFixed 2 1 ++ putFixed 4 0 ++ putFixed 4 0 ++ putFixed 8 0 ++
        putFixed 4 0 ++ putFixed 8 0 ++ putFixed 4 (castUInt32 contentLen) ++
        (lengthLine arrayMarker (decimal 2) ++ (bulk (decimal 7) (ascii "padding") ++
            bulk (List.replicate (5 - numeral.length) 48 ++ numeral)
              (List.replicate parameterLen.toNat 42)))

/-- The record of `pksetexat`, with a deadline that goes through an
`int32_t`. -/
def pksetexatRecord (item : BinlogItem) (key value : Bytes) (deadline : Int) : Bytes :=
  binlogEncode item <| redisAppend 4
    [ascii "pksetexat", key, decimalInt (castInt32 deadline), value]

/-- The record of `expireat`, with a deadline that is an `int64_t`. -/
def expireatRecord (item : BinlogItem) (count : Nat) (key : Bytes) (deadline : Int) : Bytes :=
  binlogEncode item <| redisAppend count [ascii "expireat", key, decimalInt (castInt64 deadline)]

/-- `Cmd::ToBinlog`. -/
def argvRecord (item : BinlogItem) (argv : List Bytes) : Bytes :=
  binlogEncode item (redisAppend argv.length argv)

/-- `ToBinlog` at a clock. -/
def Cmd.toBinlog (clock : Int) (item : BinlogItem) : Cmd → Bytes
  | .set argv fields =>
    if fields.condition = .kEXORPX then
      pksetexatRecord item fields.key fields.value (clock + fields.sec)
    else argvRecord item argv
  | .setnx key value => binlogEncode item (redisAppend 3 [ascii "setnx", key, value])
  | .setex key value sec => pksetexatRecord item key value (clock + sec)
  | .psetex key value usec => pksetexatRecord item key value (clock + usec.tdiv 1000)
  | .expire key sec => expireatRecord item 3 key (clock + sec)
  | .pexpire argv key msec => expireatRecord item argv.length key (clock + msec.tdiv 1000)
  | .pexpireat argv key timeStampMs => expireatRecord item argv.length key (timeStampMs.tdiv 1000)
  | .flushall => binlogEncode item (redisAppend 1 [ascii "flushdb"])
  | .padding argv => constructPaddingBinlog (castUInt32 ((argument argv 1).length + 34 + 22 + 5))
  | .expireat argv _ _ | .pkSetexAt argv _ _ _ | .flushdb argv _
  | .other _ argv => argvRecord item argv

/-- A follower reads the record, knows its command, accepts its arguments, and
would write the same record, whenever it does. -/
def StableOnFollower (otherInitial : OtherInitial) (clock : Int)
    (item : BinlogItem) (cmd : Cmd) : Prop :=
  ∃ argv command copy, readArray (recordContent (cmd.toBinlog clock item)) = some argv ∧
      getCmd argv = some command ∧
      initial otherInitial command argv = .ok copy ∧
      ∀ later, copy.toBinlog later item = cmd.toBinlog clock item

/-- What the rewriting commands ask of their arguments and the clock. -/
def Cmd.Recordable (clock : Int) : Cmd → Prop
  | .set _ fields => fields.condition = .kEXORPX → (clock + fields.sec) % 2 ^ 32 ≠ 2 ^ 31 - 1
  | .setex _ _ sec => (clock + sec) % 2 ^ 32 ≠ 2 ^ 31 - 1
  | .psetex _ _ usec => (clock + usec.tdiv 1000) % 2 ^ 32 ≠ 2 ^ 31 - 1
  | .padding argv => (argument argv 1).length % 2 ^ 32 < 100000
  | .setnx .. | .expire .. | .pexpire .. | .expireat .. | .pexpireat ..
  | .pkSetexAt .. | .flushall | .flushdb .. | .other .. => True

instance decidableRecordable (clock : Int) : ∀ cmd : Cmd, Decidable (cmd.Recordable clock)
  | .set _ _ => inferInstanceAs (Decidable (_ → _))
  | .setex _ _ _ => inferInstanceAs (Decidable (_ ≠ _))
  | .psetex _ _ _ => inferInstanceAs (Decidable (_ ≠ _))
  | .padding _ => inferInstanceAs (Decidable (_ < _))
  | .setnx .. | .expire .. | .pexpire .. | .expireat .. | .pexpireat ..
  | .pkSetexAt .. | .flushall | .flushdb .. | .other .. => inferInstanceAs (Decidable True)

theorem Except.map_eq_ok_iff {outcome : Except CmdRet α} {step : α → β} {result : β} :
    outcome.map step = .ok result ↔ ∃ value, outcome = .ok value ∧ step value = result := by
  cases outcome with
  | error error => simp [Except.map]
  | ok value => simp [Except.map]

end Pika.Command
