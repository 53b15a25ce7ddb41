import Mathlib.Data.List.GetD
import Mathlib.Data.List.TakeWhile
import Pika.Command.SetOptions

/-!
# The keys of BITOP

`BitOpCmd::DoInitial` copies its keys as C strings.  A key with a zero byte is
cut there, on the server that runs the command and on every follower that
replays its record, though the record has the arguments as they were sent.
-/

namespace Pika

open Foundation
open Binlog (Bytes BinlogItem)

namespace Command

/-- `blackwidow::BitOpType`. -/
inductive BitOpType where
  | kBitOpNot | kBitOpAnd | kBitOpOr | kBitOpXor
  deriving DecidableEq, Repr

/-- The fields of a `BitOpCmd`. -/
structure BitOpFields where
  op : BitOpType
  destKey : Bytes
  srcKeys : List Bytes
  deriving DecidableEq

def kMaxBitOpInputKey : Nat := 12800

/-- The operator an argument names. -/
def bitOpType (opStr : Bytes) : Option BitOpType :=
  if sameWord opStr "not" then some .kBitOpNot
  else if sameWord opStr "and" then some .kBitOpAnd
  else if sameWord opStr "or" then some .kBitOpOr
  else if sameWord opStr "xor" then some .kBitOpXor
  else none

/-- `SetRes` of a code with the name of the command. -/
def bitOpError (ret : CmdRes.Ret) : CmdRes := CmdRes.create.setResContent ret (ascii "bitop")

/-- `BitOpCmd::DoInitial`. -/
def bitOpInitial (argv : List Bytes) : Except CmdRes BitOpFields :=
  if CommandName.bitOpCmd.checkArg argv.length = false then .error (bitOpError .kWrongNum)
  else
    match bitOpType (argument argv 1) with
    | none => .error (bitOpError .kSyntaxErr)
    | some op =>
      if op = .kBitOpNot ∧ argv.length ≠ 4 then .error (bitOpError .kWrongBitOpNotNum)
      else if op ≠ .kBitOpNot ∧ argv.length < 4 then .error (bitOpError .kWrongNum)
      else if kMaxBitOpInputKey ≤ argv.length then .error (bitOpError .kWrongNum)
      else
        .ok
          { op := op, destKey := cString (argument argv 2), srcKeys := (argv.drop 3).map cString }

/-- `BitOpCmd::Do` where the engine's `BitOp` succeeds: it stores what an
operator makes of the values of the sources. -/
def BitOpFields.run (combine : BitOpType → List (Option Bytes) → Bytes)
    (fields : BitOpFields) (db : StringDb) : StringDb :=
  db.put fields.destKey (combine fields.op
      (fields.srcKeys.map fun key => (db key).map StringEntry.value))
    0

/-- The BITOP that a follower reads from a record. -/
def followerBitOp (record : Bytes) : Option BitOpFields :=
  (readArray (recordContent record)).bind fun argv =>
    if getCmd argv = some .bitOpCmd then (bitOpInitial argv).toOption else none

/-- A BITOP works on the keys of its arguments, here and on a follower. -/
structure UsesItsKeys (argv : List Bytes) (fields : BitOpFields) : Prop where
  dest : fields.destKey = argument argv 2
  sources : fields.srcKeys = argv.drop 3
  arity : 1 ≤ fields.srcKeys.length ∧ (fields.op = .kBitOpNot → fields.srcKeys.length = 1)
  here : ∀ combine db, ∃ value, fields.run combine db = db.put (argument argv 2) value 0
  replayed : ∀ clock item, getCmd argv = some .bitOpCmd →
    ∃ copy, followerBitOp ((Cmd.other .bitOpCmd argv).toBinlog clock item) = some copy ∧
      ∀ combine db, ∃ value, copy.run combine db = db.put (argument argv 2) value 0

section Keys

variable {argv : List Bytes} {fields : BitOpFields}

theorem of_bitOpInitial (accepted : bitOpInitial argv = .ok fields) :
    4 ≤ argv.length ∧ (fields.op = .kBitOpNot → argv.length = 4) ∧
      fields.destKey = cString (argument argv 2) ∧
      fields.srcKeys = (argv.drop 3).map cString := by
  unfold bitOpInitial at accepted
  by_cases counted : CommandName.bitOpCmd.checkArg argv.length = false
  · rw [if_pos counted] at accepted
    cases accepted
  rw [if_neg counted] at accepted
  cases named : bitOpType (argument argv 1) with
  | none =>
    rw [named] at accepted
    cases accepted
  | some op =>
    simp only [named] at accepted
    split_ifs at accepted with negation few
    cases accepted
    refine ⟨?_, ?_, rfl, rfl⟩
    · by_cases isNot : op = .kBitOpNot
      · have four : argv.length = 4 := not_not.mp fun differs => negation ⟨isNot, differs⟩
        exact four.ge
      · exact Nat.not_lt.mp fun short => few ⟨isNot, short⟩
    · intro isNot
      exact not_not.mp fun differs => negation ⟨isNot, differs⟩

/-- A text is its C string exactly if it has no zero byte. -/
theorem cString_eq_self_iff (text : Bytes) : cString text = text ↔ (0 : UInt8) ∉ text := by
  unfold cString
  rw [List.takeWhile_eq_self_iff]
  constructor
  · intro nonzero zero
    exact absurd (nonzero 0 zero) (by decide)
  · intro free byte member
    exact bne_iff_ne.mpr fun zero => free (zero ▸ member)

theorem map_cString_eq_self_iff (texts : List Bytes) :
    texts.map cString = texts ↔ ∀ text ∈ texts, (0 : UInt8) ∉ text := by
  have each := @List.map_inj_left _ _ texts cString id
  rw [List.map_id] at each
  simp only [id_eq, cString_eq_self_iff] at each
  exact each

theorem drop_two_eq (enough : 4 ≤ argv.length) :
    argv.drop 2 = argument argv 2 :: argv.drop 3 := by
  have within : 2 < argv.length := by omega
  rw [List.drop_eq_getElem_cons within, argument, List.getD_eq_getElem _ _ within]

/-- A follower reads the BITOP that was logged. -/
theorem followerBitOp_toBinlog (accepted : bitOpInitial argv = .ok fields)
    (found : getCmd argv = some .bitOpCmd) (clock : Int) (item : BinlogItem) :
    followerBitOp ((Cmd.other .bitOpCmd argv).toBinlog clock item) = some fields := by
  rw [followerBitOp, Cmd.toBinlog, argvRecord, recordContent_binlogEncode,
    readArray_redisAppend rfl, Option.bind_some, if_pos found, accepted]
  rfl

/-- An accepted BITOP works on the keys of its arguments exactly if none of them
has a zero byte. -/
theorem usesItsKeys_iff {argv : List Bytes} {fields : BitOpFields}
    (accepted : bitOpInitial argv = .ok fields) :
    UsesItsKeys argv fields ↔ ∀ key ∈ argv.drop 2, (0 : UInt8) ∉ key := by
  obtain ⟨enough, single, destEq, sourcesEq⟩ := of_bitOpInitial accepted
  rw [drop_two_eq enough, List.forall_mem_cons, ← cString_eq_self_iff,
    ← map_cString_eq_self_iff, ← destEq, ← sourcesEq]
  constructor
  · intro keys
    exact ⟨keys.dest, keys.sources⟩
  · rintro ⟨dest, sources⟩
    have stored : ∀ combine db, ∃ value,
        fields.run combine db = db.put (argument argv 2) value 0 := by
      intro combine db
      rw [← dest]
      exact ⟨_, rfl⟩
    refine ⟨dest, sources, ?_, stored, ?_⟩
    · rw [sources, List.length_drop]
      refine ⟨by omega, ?_⟩
      intro isNot
      rw [single isNot]
    · intro clock item found
      exact ⟨fields, followerBitOp_toBinlog accepted found clock item, stored⟩

end Keys

/-- `BITOP NOT d s` works on its keys. -/
theorem usesItsKeys_plain :
    UsesItsKeys [ascii "bitop", ascii "not", ascii "d", ascii "s"]
      { op := .kBitOpNot, destKey := ascii "d", srcKeys := [ascii "s"] } := by
  have accepted : bitOpInitial [ascii "bitop", ascii "not", ascii "d", ascii "s"] =
        .ok { op := .kBitOpNot, destKey := ascii "d", srcKeys := [ascii "s"] } := by
    decide +kernel
  exact (usesItsKeys_iff accepted).mpr (by decide +kernel)

/-- `BITOP NOT` with the destination `d`, zero, `x` overwrites the key `d`. -/
theorem not_usesItsKeys_zeroByte :
    bitOpInitial [ascii "bitop", ascii "not", [100, 0, 120], ascii "s"] =
        .ok { op := .kBitOpNot, destKey := [100], srcKeys := [ascii "s"] } ∧
      ¬UsesItsKeys [ascii "bitop", ascii "not", [100, 0, 120], ascii "s"]
        { op := .kBitOpNot, destKey := [100], srcKeys := [ascii "s"] } := by
  refine ⟨by decide +kernel, ?_⟩
  intro keys
  exact absurd keys.dest (by decide)

end Command

end Pika
