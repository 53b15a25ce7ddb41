import Pika.Command.Stability

/-!
# Deadlines on a follower

The call of the engine by which a command sets a deadline, and the deadline a
follower sets when it runs the record of the command later.  A relative time
that is logged as it was received moves with the follower's clock; a deadline
that is logged as such is kept while it fits the integer it goes through.
-/

namespace Pika.Command

open Foundation
open Binlog (Bytes BinlogItem)

/-- Calls of the engine that give a key a deadline. -/
inductive ExpiryCall where
  | setxx (key value : Bytes) (ttl : Int)
  | setnx (key value : Bytes) (ttl : Int)
  | setvx (key target value : Bytes) (ttl : Int)
  | setex (key value : Bytes) (ttl : Int)
  | expire (key : Bytes) (ttl : Int)
  | expireat (key : Bytes) (timestamp : Int)
  | pkSetexAt (key value : Bytes) (timestamp : Int)
  deriving DecidableEq

/-- The deadline the engine sets at a clock: relative seconds are added to the
clock, absolute ones are taken as they are. -/
def ExpiryCall.deadline (clock : Int) : ExpiryCall → Int
  | .setxx _ _ ttl | .setnx _ _ ttl | .setvx _ _ _ ttl | .setex _ _ ttl
  | .expire _ ttl => clock + ttl
  | .expireat _ timestamp | .pkSetexAt _ _ timestamp => timestamp

/-- The call in the `Do` of a command that sets a deadline. -/
def Cmd.expiryCall : Cmd → Option ExpiryCall
  | .set _ fields =>
    match fields.condition with
    | .kXX => some (.setxx fields.key fields.value fields.sec)
    | .kNX => some (.setnx fields.key fields.value fields.sec)
    | .kVX => some (.setvx fields.key fields.target fields.value fields.sec)
    | .kEXORPX => some (.setex fields.key fields.value fields.sec)
    | .kNONE => none
  | .setex key value sec => some (.setex key value sec)
  | .psetex key value usec => some (.setex key value (usec.tdiv 1000))
  | .expire key sec => some (.expire key sec)
  | .pexpire _ key msec => some (.expire key (msec.tdiv 1000))
  | .expireat _ key timeStamp => some (.expireat key timeStamp)
  | .pexpireat _ key timeStampMs => some (.expireat key (timeStampMs.tdiv 1000))
  | .pkSetexAt _ key value timeStamp => some (.pkSetexAt key value timeStamp)
  | .setnx .. | .flushall | .flushdb .. | .padding .. | .other .. => none

/-- The deadline a command sets at a clock. -/
def Cmd.deadline (clock : Int) (cmd : Cmd) : Option Int :=
  cmd.expiryCall.map (ExpiryCall.deadline clock)

/-- The deadline a follower sets when it runs a record at a clock. -/
def followerDeadline (otherInitial : OtherInitial) (record : Bytes) (clock : Int) : Option Int :=
  (readArray (recordContent record)).bind fun argv =>
    (getCmd argv).bind fun command =>
      match initial otherInitial command argv with
      | .ok copy => copy.deadline clock
      | .error _ => none

/-- Whenever a follower runs the record before the deadline, it sets the
deadline of the master. -/
def ReplicatesDeadline (otherInitial : OtherInitial) (clock : Int)
    (item : BinlogItem) (cmd : Cmd) : Prop :=
  ∀ deadline, cmd.deadline clock = some deadline → ∀ later, clock ≤ later → later < deadline →
      followerDeadline otherInitial (cmd.toBinlog clock item) later = some deadline

/-- What a command asks of its seconds and the clock. -/
def Cmd.DeadlineKept (clock : Int) : Cmd → Prop
  | .set _ fields =>
    match fields.condition with
    | .kNONE => True
    | .kEXORPX => 0 < fields.sec → clock + fields.sec < 2 ^ 31 - 1
    | .kNX | .kXX | .kVX => fields.sec ≤ 1
  | .setex _ _ sec => 0 < sec → clock + sec < 2 ^ 31 - 1
  | .psetex _ _ usec => 0 < usec.tdiv 1000 → clock + usec.tdiv 1000 < 2 ^ 31 - 1
  | .expire _ sec => 0 < sec → clock + sec < 2 ^ 63
  | .pexpire _ _ msec => 0 < msec.tdiv 1000 → clock + msec.tdiv 1000 < 2 ^ 63
  | .setnx .. | .expireat .. | .pexpireat .. | .pkSetexAt .. | .flushall
  | .flushdb .. | .padding .. | .other .. => True

variable {otherInitial : OtherInitial} {clock : Int} {item : BinlogItem}
variable {cmd copy : Cmd} {key value : Bytes} {argv : List Bytes}

/-! ## Records on the follower -/

theorem followerDeadline_eq (record : Bytes) (later : Int) :
    followerDeadline otherInitial record later =
      (followerCmd otherInitial record).bind (Cmd.deadline later) := by
  rw [followerDeadline, followerCmd, Option.bind_assoc]
  refine congrArg _ (funext fun argv => ?_)
  rw [Option.bind_assoc]
  refine congrArg _ (funext fun command => ?_)
  cases initial otherInitial command argv <;> rfl

theorem followerDeadline_argvRecord (found : getCmd argv = some command)
    (accepted : initial otherInitial command argv = .ok copy) (later : Int) :
    followerDeadline otherInitial (argvRecord item argv) later = copy.deadline later := by
  rw [followerDeadline_eq, followerCmd_argvRecord found accepted, Option.bind_some]

theorem followerDeadline_pksetexat (deadline later : Int) :
    followerDeadline otherInitial (pksetexatRecord item key value deadline) later =
      if deadline % 2 ^ 32 = 2 ^ 31 - 1 then none
      else some (castInt32 deadline) := by
  rw [followerDeadline_eq, followerCmd_pksetexat]
  split_ifs <;> rfl

theorem followerDeadline_expireat (three : count = 3) (deadline later : Int) :
    followerDeadline otherInitial (expireatRecord item count key deadline) later =
      some (castInt64 deadline) := by
  rw [followerDeadline_eq, followerCmd_expireat three]
  rfl

/-! ## One lemma for each kind of record -/

/-- An absolute deadline through an `int32_t`. -/
theorem replicatesDeadline_iff_of_pksetexat (started : 0 ≤ clock)
    (deadlineEq : cmd.deadline clock = some (clock + sec))
    (recorded : cmd.toBinlog clock item = pksetexatRecord item key value (clock + sec)) :
    ReplicatesDeadline otherInitial clock item cmd ↔ (0 < sec → clock + sec < 2 ^ 31 - 1) := by
  simp only [ReplicatesDeadline, deadlineEq, recorded, Option.some.injEq,
    forall_eq', followerDeadline_pksetexat]
  have range := castInt32_mem_range (clock + sec)
  have last := castInt32_eq_last_iff (clock + sec)
  constructor
  · intro replicates positive
    have now := replicates clock le_rfl (by omega)
    split_ifs at now with refused
    rw [Option.some.injEq] at now
    omega
  · intro kept later _ before
    have small := kept (by omega)
    have same : castInt32 (clock + sec) = clock + sec := castInt32_eq_self (by omega) (by omega)
    rw [if_neg (by omega), same]

/-- An absolute deadline through an `int64_t`. -/
theorem replicatesDeadline_iff_of_expireat (started : 0 ≤ clock)
    (three : count = 3) (deadlineEq : cmd.deadline clock = some (clock + sec))
    (recorded : cmd.toBinlog clock item = expireatRecord item count key (clock + sec)) :
    ReplicatesDeadline otherInitial clock item cmd ↔ (0 < sec → clock + sec < 2 ^ 63) := by
  simp only [ReplicatesDeadline, deadlineEq, recorded, Option.some.injEq,
    forall_eq', followerDeadline_expireat three]
  have range := castInt64_mem_range (clock + sec)
  constructor
  · intro replicates positive
    have now := replicates clock le_rfl (by omega)
    omega
  · intro kept later _ before
    exact castInt64_eq_self (by omega) (kept (by omega))

/-- Relative seconds that are logged as they were received. -/
theorem replicatesDeadline_iff_of_relative (found : getCmd argv = some command)
    (accepted : initial otherInitial command argv = .ok cmd)
    (deadlineEq : ∀ clock, cmd.deadline clock = some (clock + sec))
    (recorded : cmd.toBinlog clock item = argvRecord item argv) :
    ReplicatesDeadline otherInitial clock item cmd ↔ sec ≤ 1 := by
  simp only [ReplicatesDeadline, deadlineEq, recorded, Option.some.injEq,
    forall_eq', followerDeadline_argvRecord found accepted]
  constructor
  · intro replicates
    by_contra many
    have next := replicates (clock + 1) (by omega) (by omega)
    omega
  · intro few later after before
    omega

theorem replicatesDeadline_of_none (none : cmd.deadline clock = none) :
    ReplicatesDeadline otherInitial clock item cmd := by
  intro deadline deadlineEq
  rw [none] at deadlineEq
  cases deadlineEq

/-- Milliseconds of an `int64_t` stay in its range as seconds. -/
theorem castInt64_tdiv (read : string2l text = some milliseconds) :
    castInt64 (milliseconds.tdiv 1000) = milliseconds.tdiv 1000 := by
  obtain ⟨-, lower, upper⟩ := readIntIn_eq_some_iff.mp read
  obtain ⟨number, rfl | rfl⟩ := Int.eq_nat_or_neg milliseconds
  · rw [Int.tdiv_eq_ediv_of_nonneg (by omega)]
    apply castInt64_eq_self <;> omega
  · rw [Int.neg_tdiv, Int.tdiv_eq_ediv_of_nonneg (by omega)]
    apply castInt64_eq_self <;> omega

/-- SET: what becomes of its seconds depends on its condition. -/
theorem replicatesDeadline_set_iff (started : 0 ≤ clock)
    (found : getCmd argv = some .setCmd) (accepted :
      initial otherInitial .setCmd argv = .ok (.set argv fields)) :
    ReplicatesDeadline otherInitial clock item (.set argv fields) ↔
      (Cmd.set argv fields).DeadlineKept clock := by
  obtain ⟨key, value, target, sec, condition⟩ := fields
  cases condition with
  | kNONE => exact iff_of_true (replicatesDeadline_of_none rfl) trivial
  | kEXORPX => exact replicatesDeadline_iff_of_pksetexat started rfl rfl
  | kNX | kXX | kVX =>
    exact replicatesDeadline_iff_of_relative found accepted (fun _ => rfl)
      rfl

/-- The deadline of a command is replicated exactly when its seconds and the
clock allow it. -/
theorem replicatesDeadline_iff_deadlineKept (otherInitial : OtherInitial)
    (clock : Nat) (item : BinlogItem) {command : CommandName}
    {argv : List Bytes} {cmd : Cmd} (found : getCmd argv = some command)
    (accepted : initial otherInitial command argv = .ok cmd) :
    ReplicatesDeadline otherInitial clock item cmd ↔ cmd.DeadlineKept clock := by
  have started : (0 : Int) ≤ clock := Int.natCast_nonneg clock
  cases accepted_of_initial accepted with
  | set fields => exact replicatesDeadline_set_iff started found accepted
  | setex | psetex => exact replicatesDeadline_iff_of_pksetexat started rfl rfl
  | expire => exact replicatesDeadline_iff_of_expireat started rfl rfl rfl
  | pexpire _ three => exact replicatesDeadline_iff_of_expireat started three rfl rfl
  | expireat | pkSetexAt =>
    refine iff_of_true ?_ trivial
    intro deadline deadlineEq later _ _
    exact (followerDeadline_argvRecord found accepted later).trans deadlineEq
  | pexpireat timeStampMs three read =>
    refine iff_of_true ?_ trivial
    intro deadline deadlineEq later _ _
    rw [Cmd.toBinlog, followerDeadline_expireat three, castInt64_tdiv read]
    exact deadlineEq
  | setnx | flushall | flushdb | padding | other =>
    exact iff_of_true (replicatesDeadline_of_none rfl) trivial

/-- `EXPIRE k 10` at second 100 gives the key the deadline 110 on the follower,
whenever it is run there. -/
theorem replicatesDeadline_expire_short :
    ReplicatesDeadline (fun _ _ => .ok ()) 100
      { execTime := 100, termId := 0, logicId := 1, filenum := 0, offset := 0 }
      (.expire (ascii "k") 10) := by
  have found : getCmd [ascii "expire", ascii "k", ascii "10"] = some .expireCmd := by decide +kernel
  have accepted : initial (fun _ _ => .ok ()) .expireCmd [ascii "expire", ascii "k", ascii "10"] =
      .ok (.expire (ascii "k") 10) := by
    decide +kernel
  exact (replicatesDeadline_iff_deadlineKept _ 100 _ found accepted).mpr (fun _ => by decide)

/-- The fields of `SET k v EX 10 NX`. -/
def setExNxFields : SetFields :=
  { key := ascii "k", value := ascii "v", target := [], sec := 10, condition := .kNX }

/-- `SET k v EX 10 NX` at second 100 is logged with its relative time: a
follower that runs it one second later sets the deadline 111. -/
theorem not_replicatesDeadline_set_nx :
    initial (fun _ _ => .ok ()) .setCmd
        [ascii "set", ascii "k", ascii "v", ascii "EX", ascii "10", ascii "NX"] =
      .ok (.set [ascii "set", ascii "k", ascii "v", ascii "EX", ascii "10",
        ascii "NX"] setExNxFields) ∧
    ¬ReplicatesDeadline (fun _ _ => .ok ()) 100
      { execTime := 100, termId := 0, logicId := 1, filenum := 0, offset := 0 }
      (.set [ascii "set", ascii "k", ascii "v", ascii "EX", ascii "10",
        ascii "NX"] setExNxFields) := by
  have found : getCmd [ascii "set", ascii "k", ascii "v", ascii "EX",
      ascii "10", ascii "NX"] = some .setCmd := by
    decide +kernel
  have accepted : initial (fun _ _ => .ok ()) .setCmd
      [ascii "set", ascii "k", ascii "v", ascii "EX", ascii "10", ascii "NX"] =
      .ok (.set [ascii "set", ascii "k", ascii "v", ascii "EX", ascii "10",
        ascii "NX"] setExNxFields) := by
    decide +kernel
  refine ⟨accepted, ?_⟩
  rw [replicatesDeadline_iff_of_relative found accepted (fun _ => rfl) rfl]
  decide

end Pika.Command
