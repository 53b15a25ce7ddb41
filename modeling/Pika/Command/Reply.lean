import Pika.Foundation.RespValue

/-!
# The reply of a command

`CmdRes` holds a return code and a message.  With the code `kNone` the message
is the reply; with most others the reply is a line of its own, and with some
the message stands inside that line.
-/

namespace Pika.Command

open Foundation

/-- `CmdRes::CmdRet`. -/
inductive CmdRes.Ret where
  | kNone | kOk | kPong | kSyntaxErr | kInvalidInt | kInvalidBitInt
  | kInvalidBitOffsetInt | kInvalidBitPosArgument | kWrongBitOpNotNum
  | kInvalidFloat | kOverFlow | kNotFound | kOutOfRange | kInvalidPwd
  | kNoneBgsave | kPurgeExist | kInvalidParameter | kWrongNum | kInvalidIndex
  | kInvalidDbType | kInvalidTable | kInconsistentHashTag | kErrOther
  deriving DecidableEq, Repr

structure CmdRes where
  ret : CmdRes.Ret
  /-- `message_`. -/
  raw : List UInt8
  deriving DecidableEq

namespace CmdRes

def create : CmdRes where
  ret := .kNone
  raw := []

/-- `SetRes` without a content. -/
def setRes (ret : Ret) (res : CmdRes) : CmdRes := { res with ret := ret }

/-- `SetRes` with a content. -/
def setResContent (ret : Ret) (content : List UInt8) (res : CmdRes) : CmdRes :=
  { ret := ret, raw := if content.isEmpty then res.raw else content }

/-- `AppendStringLen`, `AppendArrayLen` and `AppendInteger`, by their
markers. -/
def appendLen (marker : UInt8) (ori : Int) (res : CmdRes) : CmdRes :=
  { res with raw := res.raw ++ lengthLine marker (decimalInt ori) }

def appendStringLen (ori : Int) (res : CmdRes) : CmdRes := res.appendLen bulkMarker ori

def appendArrayLen (ori : Int) (res : CmdRes) : CmdRes := res.appendLen arrayMarker ori

def appendInteger (ori : Int) (res : CmdRes) : CmdRes := res.appendLen 58 ori

def appendContent (value : List UInt8) (res : CmdRes) : CmdRes :=
  { res with raw := res.raw ++ (value ++ newLine) }

/-- `AppendString`, or `AppendStringLen` and `AppendContent` of one text. -/
def appendString (value : List UInt8) (res : CmdRes) : CmdRes :=
  (res.appendStringLen value.length).appendContent value

/-- A message between two texts, as a line. -/
def quoted (before : String) (message : List UInt8) (behind : String) : List UInt8 :=
  ascii before ++ message ++ ascii behind ++ newLine

/-- A fixed line. -/
def fixed (text : String) : List UInt8 := ascii text ++ newLine

def message (res : CmdRes) : List UInt8 :=
  match res.ret with
  | .kNone => res.raw
  | .kOk => fixed "+OK"
  | .kPong => fixed "+PONG"
  | .kSyntaxErr => fixed "-ERR syntax error"
  | .kInvalidInt => fixed "-ERR value is not an integer or out of range"
  | .kInvalidBitInt => fixed "-ERR bit is not an integer or out of range"
  | .kInvalidBitOffsetInt => fixed "-ERR bit offset is not an integer or out of range"
  | .kWrongBitOpNotNum => fixed "-ERR BITOP NOT must be called with a single source key."
  | .kInvalidBitPosArgument => fixed "-ERR The bit argument must be 1 or 0."
  | .kInvalidFloat => fixed "-ERR value is not a valid float"
  | .kOverFlow => fixed "-ERR increment or decrement would overflow"
  | .kNotFound => fixed "-ERR no such key"
  | .kOutOfRange => fixed "-ERR index out of range"
  | .kInvalidPwd => fixed "-ERR invalid password"
  | .kNoneBgsave => fixed "-ERR No BGSave Works now"
  | .kPurgeExist => fixed "-ERR binlog already in purging..."
  | .kInvalidParameter => fixed "-ERR Invalid Argument"
  | .kWrongNum => quoted "-ERR wrong number of arguments for '" res.raw "' command"
  | .kInvalidIndex => quoted "-ERR invalid DB index for '" res.raw "'"
  | .kInvalidDbType => quoted "-ERR invalid DB for '" res.raw "'"
  | .kInconsistentHashTag => fixed "-ERR parameters hashtag is inconsistent"
  | .kInvalidTable => quoted "-ERR invalid Table for '" res.raw "'"
  | .kErrOther => quoted "-ERR " res.raw ""

/-- The reply made of tokens. -/
def ofTokens (tokens : List RespToken) : CmdRes where
  ret := .kNone
  raw := respBytes tokens

@[simp] theorem message_ofTokens (tokens : List RespToken) :
    (ofTokens tokens).message = respBytes tokens := rfl

theorem create_eq_ofTokens : create = ofTokens [] := rfl

@[simp] theorem appendInteger_ofTokens (ori : Int) (tokens : List RespToken) :
    (ofTokens tokens).appendInteger ori = ofTokens (tokens ++ [.integer ori]) := by
  simp [ofTokens, appendInteger, appendLen, RespToken.bytes, RespToken.marker,
    RespToken.firstLine, RespToken.body]

@[simp] theorem appendArrayLen_ofTokens (ori : Int) (tokens : List RespToken) :
    (ofTokens tokens).appendArrayLen ori = ofTokens (tokens ++ [.header ori]) := by
  simp [ofTokens, appendArrayLen, appendLen, RespToken.bytes, RespToken.marker,
    RespToken.firstLine, RespToken.body]

@[simp] theorem appendString_ofTokens (value : List UInt8) (tokens : List RespToken) :
    (ofTokens tokens).appendString value = ofTokens (tokens ++ [.bulk value]) := by
  have numeral : decimalInt value.length = decimal value.length := rfl
  simp [ofTokens, appendString, appendStringLen, appendContent, appendLen,
    RespToken.bytes, RespToken.marker, RespToken.firstLine, RespToken.body, numeral]

/-- The line of an error with a text. -/
def errorLine (line : TextLine) : TextLine where
  text := ascii "ERR " ++ line.text
  noReturn := by
    rw [List.mem_append, not_or]
    exact ⟨by decide, line.noReturn⟩
  noFeed := by
    rw [List.mem_append, not_or]
    exact ⟨by decide, line.noFeed⟩

/-- An error with a text that is a line is one value. -/
theorem isRespValue_errOther (line : TextLine) :
    IsRespValue (create.setResContent .kErrOther line.text).message := by
  have content : (create.setResContent .kErrOther line.text).raw = line.text := by
    cases text : line.text <;> simp [setResContent, create]
  have text : (create.setResContent .kErrOther line.text).message = quoted "-ERR " line.text "" :=
    congrArg (fun raw => quoted "-ERR " raw "") content
  refine ⟨.error (errorLine line), ?_⟩
  rw [text]
  simp [RespValue.tokens, RespToken.bytes, RespToken.marker,
    RespToken.firstLine, RespToken.body, errorLine, lengthLine, quoted, ascii]

end CmdRes
end Pika.Command
