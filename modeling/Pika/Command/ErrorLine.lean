import Pika.Command.Encoding
import Pika.Command.Reply
import Pika.Foundation.Lines

/-!
# Errors as lines

An error is one line that starts with a minus sign.  `message()` puts
`message_` into the line of some of the codes, and then the line is one exactly
if `message_` holds no line end.  The literals of the source and the names of
the commands hold none.
-/

namespace Pika.Command

open Foundation
open Binlog (Bytes)

/-- A reply is one line of an error. -/
structure IsErrorLine (reply : Bytes) : Prop where
  starts : reply.head? = some 45
  ends : newLine <:+ reply
  only : ¬newLine <:+: reply.dropLast

namespace CmdRes

def Ret.isError : Ret → Bool
  | .kNone | .kOk | .kPong => false
  | _ => true

/-- `message()` quotes `message_`. -/
def Ret.quotes : Ret → Bool
  | .kWrongNum | .kInvalidIndex | .kInvalidDbType | .kInvalidTable
  | .kErrOther => true
  | _ => false

def ok (res : CmdRes) : Bool := res.ret = .kOk || res.ret = .kNone

/-- A quoted message is in one line exactly if it holds no line end. -/
theorem isErrorLine_quoted_iff (marked : (ascii before).head? = some 45)
    (noReturn : carriageReturn ∉ ascii before)
    (noFeed : (10 : UInt8) ∉ ascii behind) (message : Bytes) :
    IsErrorLine (quoted before message behind) ↔ ¬newLine <:+: message := by
  have cut : (quoted before message behind).dropLast =
      ascii before ++ (message ++ (ascii behind ++ [carriageReturn])) := by
    simp [quoted, newLine, List.dropLast_append_of_ne_nil]
  have noFeed' : (10 : UInt8) ∉ ascii behind ++ [carriageReturn] := by
    rw [List.mem_append, not_or]
    exact ⟨noFeed, by decide⟩
  have same : newLine <:+: (quoted before message behind).dropLast ↔ newLine <:+: message := by
    rw [cut]
    exact (pair_infix_append_left noReturn _).trans (pair_infix_append_right noFeed' message)
  constructor
  · intro line
    rw [← same]
    exact line.only
  · intro clean
    refine ⟨?_, List.suffix_append _ newLine, same.not.mpr clean⟩
    cases start : ascii before with
    | nil => simp [start] at marked
    | cons byte bytes => simpa [quoted, start] using marked

theorem isErrorLine_fixed (marked : (ascii text).head? = some 45)
    (noReturn : carriageReturn ∉ ascii text) :
    IsErrorLine (fixed text) := by
  have quotes : fixed text = quoted text [] "" := by simp [fixed, quoted, ascii]
  rw [quotes, isErrorLine_quoted_iff marked noReturn (by decide)]
  simp [newLine]

/-- The reply to an error is one line unless the code quotes a message with a
line end. -/
theorem isErrorLine_message_iff {res : CmdRes} (error : res.ret.isError = true) :
    IsErrorLine res.message ↔ (res.ret.quotes = true → ¬newLine <:+: res.raw) := by
  obtain ⟨ret, raw⟩ := res
  cases ret with
  | kNone | kOk | kPong => cases error
  | kWrongNum | kInvalidIndex | kInvalidDbType | kInvalidTable | kErrOther =>
    simp only [message, Ret.quotes, forall_const]
    exact isErrorLine_quoted_iff (ascii_ofList _ ▸ rfl)
      (not_mem_ascii_ofList (by decide)) (not_mem_ascii_ofList (by decide)) _
  | _ =>
    simp only [message, Ret.quotes, Bool.false_eq_true, false_implies, iff_true]
    exact isErrorLine_fixed (ascii_ofList _ ▸ rfl) (not_mem_ascii_ofList (by decide))

end CmdRes

/-! ## Texts -/

/-- The literals that reach `SetRes` with `kErrOther` in the commands of the
table, in `DoCmd` and in `Execute`. -/
def errorLiterals : List String :=
  ["NOAUTH Authentication required.", "Command is in blacklist.",
    "only (P)SUBSCRIBE / (P)UNSUBSCRIBE / PING / QUIT allowed in this context",
    "Writing binlog failed, maybe no space left on device", "Internal ERROR",
    "Server in read-only", "Internal Error", "Partition not found",
    "Table not found", "The keyscan operation is executing, Try again later",
    "The info keyspace operation is executing, Try again later",
    "The compact operation is executing, Try again later",
    "already master of others, invalid usage", "you fucked up",
    "Server is not in correct state for slaveof",
    "DbSlaveof only support on classic mode", "Not currently a slave",
    "Invaild db name", "Db not found", "Client sent AUTH, but no password is set",
    "select DB index is out of range", "Syntax error, try CLIENT (LIST [order by [addr|idle])",
    "Syntax error, try CLIENT (LIST [order by [addr|idle]| KILL ip:port)",
    "No such client", "shutdown should be localhost", "Wrong number of arguments for CONFIG get",
    "Wrong number of arguments for CONFIG set", "Wrong number of arguments for CONFIG rewrite",
    "Wrong number of arguments for CONFIG resetstat",
    "CONFIG subcommand must be one of GET, SET, RESETSTAT, REWRITE", "keyspace error",
    "Unknown SLOWLOG subcommand or wrong # of args. Try GET, RESET, LEN.",
    "invalid expire time in set", "delete error",
    "internal Mget return size invalid", "SplitError hint_keys size not match",
    "Response exceeds the max-client-response-size limit",
    "exists internal error", "expire internal error",
    "expireat internal error", "pexpireat internal error",
    "ttl internal error", "persist internal error", "something wrong in hlen",
    "something wrong in hstrlen", "scard error", "zcard error",
    "min or max is not a float", "min or max not valid string range item",
    "at least 1 input key is needed for ZUNIONSTORE/ZINTERSTORE", "weight value is not a float",
    "unsupported unit provided. please use m, km, ft, mi",
    "value is not an integer or out of range",
    "STORE option in GEORADIUS is not compatible with WITHDIST, WITHHASH and WITHCOORDS options"]

/-- `ToString()` of a status that is not OK. -/
structure StatusText where
  text : Bytes
  /-- It names the kind of the status at least. -/
  nonempty : text ≠ []

/-- A text of the source. -/
inductive FixedText where
  | literal (text : String) (listed : text ∈ errorLiterals)
  | name (command : CommandName)

def FixedText.bytes : FixedText → Bytes
  | .literal text _ => ascii text
  | .name command => command.name

/-- What a command gives to `SetRes` other than a text of the client. -/
inductive ErrorText where
  | fixed (text : FixedText)
  /-- The status of an engine call. -/
  | status (reported : StatusText)

def ErrorText.bytes : ErrorText → Bytes
  | .fixed text => text.bytes
  | .status reported => reported.text

theorem not_newLine_infix_of_not_mem (noReturn : carriageReturn ∉ text) :
    ¬newLine <:+: text := fun inside =>
  noReturn (inside.subset (by simp [newLine]))

theorem forall_noReturn_cons (here : carriageReturn ∉
      letters.map fun letter => UInt8.ofNat letter.toNat)
    (others : ∀ text ∈ texts, carriageReturn ∉ ascii text) :
    ∀ text ∈ String.ofList letters :: texts, carriageReturn ∉ ascii text :=
  List.forall_mem_cons.mpr ⟨not_mem_ascii_ofList here, others⟩

theorem not_newLine_infix_literal (listed : text ∈ errorLiterals) : ¬newLine <:+: ascii text := by
  have all : ∀ text ∈ errorLiterals, carriageReturn ∉ ascii text := by
    unfold errorLiterals
    repeat refine forall_noReturn_cons (by decide) ?_
    exact List.forall_mem_nil _
  exact not_newLine_infix_of_not_mem (all text listed)

theorem not_newLine_infix_name (command : CommandName) : ¬newLine <:+: command.name := by
  have all : ∀ command ∈ cmdTable, carriageReturn ∉ command.name := by decide +kernel
  exact not_newLine_infix_of_not_mem (all command (mem_cmdTable command))

theorem FixedText.not_newLine_infix (text : FixedText) : ¬newLine <:+: text.bytes := by
  cases text with
  | literal text listed => exact not_newLine_infix_literal listed
  | name command => exact not_newLine_infix_name command

end Pika.Command
