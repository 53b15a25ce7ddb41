import Pika.Binlog.Record
import Pika.Command.Table

/-!
# The keys of a command

`current_key()` of every command class, the keys whose record locks a write
takes, and the keys its `Do` reads or writes.
-/

namespace Pika.Command

open Foundation
open Binlog (Bytes)

/-- `string2l`.  It is not in the sources, and assumed to accept the canonical
numerals of 64-bit integers. -/
def string2l (text : Bytes) : Option Int := readIntIn (-2 ^ 63) (2 ^ 63) text

/-- The bytes before the first zero, as a C string is copied. -/
def cString (text : Bytes) : Bytes := text.takeWhile fun byte => byte != 0

/-- An argument that `DoInitial` has checked to be there. -/
def argument (argv : List Bytes) (index : Nat) : Bytes := argv.getD index []

/-- The keys of alternating keys and values. -/
def pairKeys : List Bytes → List Bytes
  | key :: _ :: rest => key :: pairKeys rest
  | _ => []

/-- The keys read by `ZsetUIstoreParentCmd`. -/
def storeKeys (argv : List Bytes) : List Bytes :=
  (argv.drop 3).take ((string2l (argument argv 2)).getD 0).toNat

def currentKey (command : CommandName) (argv : List Bytes) : List Bytes :=
  match command with
  | .delCmd | .mgetCmd | .existsCmd => argv.drop 1
  | .msetCmd => pairKeys (argv.drop 1)
  | .pkScanRangeCmd | .pkrScanRangeCmd => [argument argv 2]
  -- Classes without an override inherit one empty key.
  | .slaveofCmd | .dbSlaveofCmd | .authCmd | .bgsaveCmd | .compactCmd
  | .purgelogstoCmd | .pingCmd | .selectCmd | .flushallCmd | .flushdbCmd
  | .clientCmd | .shutdownCmd | .infoCmd | .configCmd | .monitorCmd
  | .dbsizeCmd | .timeCmd | .delbackupCmd | .echoCmd | .scandbCmd
  | .slowlogCmd | .paddingCmd | .pkPatternMatchDelCmd | .dummyCmd
  | .commandCmd | .quitCmd | .keysCmd | .msetnxCmd | .scanCmd | .scanxCmd
  | .zUnionstoreCmd | .zInterstoreCmd | .sUnionCmd | .sUnionstoreCmd
  | .sInterCmd | .sInterstoreCmd | .sDiffCmd | .sDiffstoreCmd | .sMoveCmd
  | .bitOpCmd | .pfCountCmd | .pfMergeCmd | .geoRadiusCmd
  | .geoRadiusByMemberCmd | .publishCmd | .subscribeCmd | .unSubscribeCmd
  | .pSubscribeCmd | .pUnSubscribeCmd | .pubSubCmd => [[]]
  | _ => [argument argv 1]

/-- The keys the `Do` of a write reads or writes.  `stringmatch` is the pattern
match of `PKPatternMatchDel`. -/
def touches (stringmatch : Bytes → Bytes → Bool) (command : CommandName)
    (argv : List Bytes) (key : Bytes) : Bool :=
  match command with
  | .flushallCmd | .flushdbCmd => true
  | .paddingCmd | .dummyCmd => false
  | .pkPatternMatchDelCmd => stringmatch (argument argv 1) key
  | .delCmd | .sUnionstoreCmd | .sInterstoreCmd | .sDiffstoreCmd
  | .pfMergeCmd => (argv.drop 1).contains key
  | .msetCmd | .msetnxCmd => (pairKeys (argv.drop 1)).contains key
  | .zUnionstoreCmd | .zInterstoreCmd => (argument argv 1 :: storeKeys argv).contains key
  | .sMoveCmd | .rPopLPushCmd => [argument argv 1, argument argv 2].contains key
  | .bitOpCmd => ((argv.drop 2).map cString).contains key
  | _ => argument argv 1 == key

/-- A command at a partition.  `hintKeys` are the keys of the partition when
the command has been split over several. -/
structure Request where
  command : CommandName
  /-- The arguments, the command name first. -/
  argv : List Bytes
  hintKeys : List Bytes

namespace Request

/-- Whether a partition runs its part of a command only. -/
def isSplit (classicMode : Bool) (request : Request) : Bool :=
  !request.hintKeys.isEmpty && request.command.isMultiPartition && !classicMode

/-- The keys handed to `MultiScopeRecordLock`. -/
def lockKeys (classicMode : Bool) (request : Request) : List Bytes :=
  if request.isSplit classicMode then request.hintKeys
  else currentKey request.command request.argv

/-- The keys a write touches on the partition.  Of the writes only `DEL` and
`MSET` have a `Split` that does something. -/
def touchesKey (stringmatch : Bytes → Bytes → Bool) (classicMode : Bool)
    (request : Request) (key : Bytes) : Bool :=
  if request.isSplit classicMode then
    (request.command == .delCmd || request.command == .msetCmd) && request.hintKeys.contains key
  else touches stringmatch request.command request.argv key

def isFlush (request : Request) : Bool :=
  request.command == .flushallCmd || request.command == .flushdbCmd

/-- Two writes touch a common key, or one of them flushes. -/
def Conflicts (stringmatch : Bytes → Bytes → Bool) (classicMode : Bool)
    (first second : Request) : Prop :=
  first.command.isWrite = true ∧ second.command.isWrite = true ∧
    (first.isFlush = true ∨ second.isFlush = true ∨
      ∃ key, first.touchesKey stringmatch classicMode key = true ∧
        second.touchesKey stringmatch classicMode key = true)

/-- What two requests have in common when one of them conflicts. -/
theorem Conflicts.symm {first second : Request}
    (conflicts : first.Conflicts stringmatch classicMode second) :
    second.Conflicts stringmatch classicMode first := by
  obtain ⟨firstWrite, secondWrite, reason⟩ := conflicts
  refine ⟨secondWrite, firstWrite, ?_⟩
  rcases reason with flush | flush | ⟨key, firstTouches, secondTouches⟩
  · exact .inr (.inl flush)
  · exact .inl flush
  · exact .inr (.inr ⟨key, secondTouches, firstTouches⟩)

end Request

/-- Whether `current_key()` of a write covers every key it touches. -/
def locksTouched (command : CommandName) : Bool :=
  match command with
  | .flushallCmd | .flushdbCmd | .pkPatternMatchDelCmd | .msetnxCmd
  | .zUnionstoreCmd | .zInterstoreCmd | .sUnionstoreCmd | .sInterstoreCmd
  | .sDiffstoreCmd | .sMoveCmd | .rPopLPushCmd | .bitOpCmd
  | .pfMergeCmd => false
  | _ => true

theorem mem_currentKey_of_touches (write : command.isWrite = true)
    (locks : locksTouched command = true) (touched : touches stringmatch command argv key = true) :
    key ∈ currentKey command argv := by
  cases command <;> first
    | exact List.mem_singleton.mpr (eq_of_beq touched).symm
    | exact absurd write (by decide)
    | exact absurd locks (by decide)
    | exact List.contains_iff_mem.mp touched
    | exact absurd touched Bool.false_ne_true

/-- Conflicting writes that lock what they touch have a lock in common. -/
theorem Request.Conflicts.common_lockKey {first second : Request}
    (conflicts : first.Conflicts stringmatch classicMode second)
    (firstLocks : locksTouched first.command = true)
    (secondLocks : locksTouched second.command = true) :
    ∃ key ∈ first.lockKeys classicMode, key ∈ second.lockKeys classicMode := by
  have locked : ∀ {request : Request} {key : Bytes},
      request.command.isWrite = true → locksTouched request.command = true →
        request.touchesKey stringmatch classicMode key = true →
          key ∈ request.lockKeys classicMode := by
    intro request key write locks touched
    unfold touchesKey at touched
    unfold lockKeys
    split_ifs at touched ⊢
    · exact List.contains_iff_mem.mp (Bool.and_eq_true_iff.mp touched).2
    · exact mem_currentKey_of_touches write locks touched
  have unflushed : ∀ {request : Request},
      locksTouched request.command = true → request.isFlush ≠ true := by
    rintro ⟨command, _, _⟩ locks flush
    rcases Bool.or_eq_true_iff.mp flush with same | same <;>
      (rw [eq_of_beq same] at locks; cases locks)
  obtain ⟨firstWrite, secondWrite, flush | flush | ⟨key, inFirst, inSecond⟩⟩ := conflicts
  · exact absurd flush (unflushed firstLocks)
  · exact absurd flush (unflushed secondLocks)
  · exact ⟨key, locked firstWrite firstLocks inFirst, locked secondWrite secondLocks inSecond⟩

/-- Whether a write touches its first key at most, whatever its arguments. -/
def touchesFirst (command : CommandName) : Bool :=
  match command with
  | .delCmd | .msetCmd => false
  | _ => locksTouched command

theorem eq_argument_of_touches (single : touchesFirst command = true)
    (touched : touches stringmatch command argv key = true) :
    argument argv 1 = key := by
  cases command <;> first
    | exact eq_of_beq touched
    | exact absurd single (by decide)
    | exact absurd touched Bool.false_ne_true

end Pika.Command
