import Pika.Command.Expiry
import Mathlib.Data.Finset.Card

/-!
# Replaying a record

What a command does to the database when the engine resolves its own choices:
the member SPOP removes, and the clock that relative seconds are added to.  The
follower resolves them again, from the record alone.
-/

namespace Pika.Command

open Foundation
open Binlog (Bytes BinlogItem)

/-! ## Effects -/

/-- What a command asks of the engine, after the clock has been read. -/
inductive Effect where
  | set (key value : Bytes) (deadline : Option Int)
  | setxx (key value : Bytes) (deadline : Option Int)
  | setnx (key value : Bytes) (deadline : Option Int)
  | setvx (key target value : Bytes) (deadline : Option Int)
  | expireat (key : Bytes) (deadline : Int)
  | flush (dbName : String)
  | sPop (key : Bytes)
  | other (command : CommandName) (argv : List Bytes)
  | nothing
  deriving DecidableEq

/-- The deadline of a conditional set, which has none without seconds. -/
def relativeDeadline (clock sec : Int) : Option Int :=
  if 0 < sec then some (clock + sec) else none

/-- The `Do` of a command at a clock. -/
def Cmd.effect (clock : Int) : Cmd → Effect
  | .set _ fields =>
    let deadline := relativeDeadline clock fields.sec
    match fields.condition with
    | .kXX => .setxx fields.key fields.value deadline
    | .kNX => .setnx fields.key fields.value deadline
    | .kVX => .setvx fields.key fields.target fields.value deadline
    | .kEXORPX => .set fields.key fields.value (some (clock + fields.sec))
    | .kNONE => .set fields.key fields.value none
  | .setnx key value => .setnx key value none
  | .setex key value sec => .set key value (some (clock + sec))
  | .psetex key value usec => .set key value (some (clock + usec.tdiv 1000))
  | .expire key sec => .expireat key (clock + sec)
  | .pexpire _ key msec => .expireat key (clock + msec.tdiv 1000)
  | .expireat _ key timeStamp => .expireat key timeStamp
  | .pexpireat _ key timeStampMs => .expireat key (timeStampMs.tdiv 1000)
  | .pkSetexAt _ key value timeStamp => .set key value (some timeStamp)
  | .flushall => .flush "all"
  | .flushdb _ dbName => .flush dbName
  | .padding _ => .nothing
  | .other .sPopCmd argv => .sPop (argument argv 1)
  | .other command argv => .other command argv

/-- What a follower does with a record at a clock. -/
def followerEffect (otherInitial : OtherInitial) (record : Bytes) (clock : Int) : Effect :=
  match readArray (recordContent record) with
  | none => .nothing
  | some argv =>
    match getCmd argv with
    | none => .nothing
    | some command =>
      match initial otherInitial command argv with
      | .ok copy => copy.effect clock
      | .error _ => .nothing

/-! ## The engine -/

/-- A database: its sets, and whatever else the engine keeps. -/
structure Database (Rest : Type) where
  /-- The members of the set at each key. -/
  sets : Bytes → Finset Bytes
  rest : Rest

/-- The database without one member of a set. -/
def Database.remove (key member : Bytes) (database : Database Rest) : Database Rest :=
  { database with sets := Function.update database.sets key ((database.sets key).erase member) }

/-- Whether an effect leaves a choice to the engine. -/
def Effect.chooses : Effect → Bool
  | .sPop _ => true
  | _ => false

/-- One execution by an engine that removes any member for SPOP and runs every
other effect as a function. -/
inductive Executes (run : Effect → Database Rest → Database Rest) :
    Effect → Database Rest → Database Rest → Prop
  | removed {key member : Bytes} {database : Database Rest} (held : member ∈ database.sets key) :
      Executes run (.sPop key) database (database.remove key member)
  | notFound {key : Bytes} {database : Database Rest} (empty : database.sets key = ∅) :
      Executes run (.sPop key) database database
  | determined {effect : Effect} {database : Database Rest} (fixed : effect.chooses = false) :
      Executes run effect database (run effect database)

/-- Two effects leave equal databases, whatever the engine is and chooses. -/
def LeavesEqual (sets : Bytes → Finset Bytes) (first second : Effect) : Prop :=
  ∀ (Rest : Type) (run : Effect → Database Rest → Database Rest)
    (rest : Rest) (master follower : Database Rest), Executes run first ⟨sets, rest⟩ master →
    Executes run second ⟨sets, rest⟩ follower →
    master = follower

/-- A command on the master and its record on a follower leave equal
databases, whatever the clocks read and the engines choose. -/
def ReplaysEqually (otherInitial : OtherInitial) (clock : Int)
    (item : BinlogItem) (sets : Bytes → Finset Bytes) (cmd : Cmd) : Prop :=
  ∀ later, LeavesEqual sets (cmd.effect clock)
    (followerEffect otherInitial (cmd.toBinlog clock item) later)

/-- What a command asks of its arguments, the clock and the sets. -/
def Cmd.ReplayFixed (clock : Int) (sets : Bytes → Finset Bytes) : Cmd → Prop
  | .set _ fields =>
    match fields.condition with
    | .kNONE => True
    | .kEXORPX => -2 ^ 31 ≤ clock + fields.sec ∧ clock + fields.sec < 2 ^ 31 - 1
    | .kNX | .kXX | .kVX => fields.sec ≤ 0
  | .setex _ _ sec => -2 ^ 31 ≤ clock + sec ∧ clock + sec < 2 ^ 31 - 1
  | .psetex _ _ usec => -2 ^ 31 ≤ clock + usec.tdiv 1000 ∧ clock + usec.tdiv 1000 < 2 ^ 31 - 1
  | .expire _ sec => -2 ^ 63 ≤ clock + sec ∧ clock + sec < 2 ^ 63
  | .pexpire _ _ msec => -2 ^ 63 ≤ clock + msec.tdiv 1000 ∧ clock + msec.tdiv 1000 < 2 ^ 63
  | .other .sPopCmd argv => (sets (argument argv 1)).card ≤ 1
  | .setnx .. | .expireat .. | .pexpireat .. | .pkSetexAt .. | .flushall
  | .flushdb .. | .padding .. | .other .. => True

variable {otherInitial : OtherInitial} {clock : Int} {item : BinlogItem}
variable {sets : Bytes → Finset Bytes} {cmd copy : Cmd}
variable {argv : List Bytes}

/-! ## Equal databases -/

theorem leavesEqual_self (fixed : effect.chooses = false) : LeavesEqual sets effect effect := by
  intro Rest run rest master follower masterRuns followerRuns
  cases masterRuns with
  | removed | notFound => cases fixed
  | determined =>
    cases followerRuns with
    | removed | notFound => cases fixed
    | determined => rfl

/-- An engine that remembers its last effect tells two effects apart. -/
theorem leavesEqual_iff_eq (firstFixed : first.chooses = false)
    (secondFixed : second.chooses = false) :
    LeavesEqual sets first second ↔ first = second := by
  constructor
  · intro equal
    have same := equal Effect (fun effect database =>
      { database with rest := effect }) .nothing _ _
      (.determined firstFixed) (.determined secondFixed)
    exact congrArg Database.rest same
  · rintro rfl
    exact leavesEqual_self firstFixed

/-- Two pops of one set agree exactly when there is nothing to choose. -/
theorem leavesEqual_sPop_iff :
    LeavesEqual sets (.sPop key) (.sPop key) ↔ (sets key).card ≤ 1 := by
  constructor
  · intro equal
    refine Finset.card_le_one.mpr ?_
    intro first firstHeld second secondHeld
    have same := equal Unit (fun _ database => database) () _ _
      (.removed firstHeld) (.removed secondHeld)
    have erased := congrFun (congrArg Database.sets same) key
    simp only [Database.remove, Function.update_self] at erased
    exact Finset.erase_injOn (sets key) firstHeld secondHeld erased
  · intro few Rest run rest master follower masterRuns followerRuns
    cases masterRuns with
    | determined fixed => cases fixed
    | notFound empty =>
      cases followerRuns with
      | determined fixed => cases fixed
      | notFound => rfl
      | removed held => exact absurd held (by simp_all)
    | removed held =>
      cases followerRuns with
      | determined fixed => cases fixed
      | notFound empty => exact absurd held (by simp_all)
      | removed secondHeld => rw [Finset.card_le_one.mp few _ held _ secondHeld]

/-! ## Records on the follower -/

theorem followerEffect_eq (record : Bytes) (later : Int) :
    followerEffect otherInitial record later =
      ((followerCmd otherInitial record).map (Cmd.effect later)).getD .nothing := by
  rw [followerEffect, followerCmd]
  cases readArray (recordContent record) with
  | none => rfl
  | some argv =>
    dsimp only [Option.bind_some]
    cases getCmd argv with
    | none => rfl
    | some command =>
      dsimp only [Option.bind_some]
      cases initial otherInitial command argv <;> rfl

theorem followerEffect_pksetexat (deadline later : Int) :
    followerEffect otherInitial (pksetexatRecord item key value deadline) later =
      if deadline % 2 ^ 32 = 2 ^ 31 - 1 then .nothing
      else .set key value (some (castInt32 deadline)) := by
  rw [followerEffect_eq, followerCmd_pksetexat]
  split_ifs <;> rfl

theorem followerEffect_expireat (three : count = 3) (deadline later : Int) :
    followerEffect otherInitial (expireatRecord item count key deadline) later =
      .expireat key (castInt64 deadline) := by
  rw [followerEffect_eq, followerCmd_expireat three]
  rfl

/-- A record whose command does on the follower what it does on the master. -/
theorem replaysEqually_of_followerCmd
    (made : ∀ later, followerEffect otherInitial (cmd.toBinlog clock item)
      later = cmd.effect clock) (fixed : (cmd.effect clock).chooses = false) :
    ReplaysEqually otherInitial clock item sets cmd := by
  intro later
  rw [made]
  exact leavesEqual_self fixed

/-! ## One lemma for each kind of record -/

/-- An absolute deadline through an `int32_t`. -/
theorem replaysEqually_iff_of_pksetexat
    (effectEq : cmd.effect clock = .set key value (some (clock + sec)))
    (recorded : cmd.toBinlog clock item = pksetexatRecord item key value (clock + sec)) :
    ReplaysEqually otherInitial clock item sets cmd ↔
      -2 ^ 31 ≤ clock + sec ∧ clock + sec < 2 ^ 31 - 1 := by
  have range := castInt32_mem_range (clock + sec)
  have last := castInt32_eq_last_iff (clock + sec)
  simp only [ReplaysEqually, effectEq, recorded, followerEffect_pksetexat, forall_const]
  split_ifs with refused
  · rw [leavesEqual_iff_eq rfl rfl]
    refine iff_of_false (by simp) ?_
    intro kept
    have same : castInt32 (clock + sec) = clock + sec := castInt32_eq_self kept.1 (by omega)
    omega
  · rw [leavesEqual_iff_eq rfl rfl]
    simp only [Effect.set.injEq, Option.some.injEq, true_and]
    constructor
    · intro same
      omega
    · intro kept
      exact (castInt32_eq_self kept.1 (by omega)).symm

/-- An absolute deadline through an `int64_t`. -/
theorem replaysEqually_iff_of_expireat (three : count = 3)
    (effectEq : cmd.effect clock = .expireat key deadline)
    (recorded : cmd.toBinlog clock item = expireatRecord item count key deadline) :
    ReplaysEqually otherInitial clock item sets cmd ↔ -2 ^ 63 ≤ deadline ∧ deadline < 2 ^ 63 := by
  have range := castInt64_mem_range deadline
  simp only [ReplaysEqually, effectEq, recorded, followerEffect_expireat three, forall_const]
  rw [leavesEqual_iff_eq rfl rfl]
  simp only [Effect.expireat.injEq, true_and]
  constructor
  · intro same
    omega
  · intro kept
    exact (castInt64_eq_self kept.1 kept.2).symm

/-- Arguments that are logged as they were received are run again. -/
theorem replaysEqually_iff_of_argvRecord (found : getCmd argv = some command)
    (accepted : initial otherInitial command argv = .ok cmd)
    (recorded : cmd.toBinlog clock item = argvRecord item argv) :
    ReplaysEqually otherInitial clock item sets cmd ↔
      ∀ later, LeavesEqual sets (cmd.effect clock) (cmd.effect later) := by
  simp only [ReplaysEqually, recorded, followerEffect_eq,
    followerCmd_argvRecord found accepted, Option.map_some, Option.getD_some]

/-- Logged arguments that neither the clock nor a choice enters. -/
theorem replaysEqually_of_argvRecord (found : getCmd argv = some command)
    (accepted : initial otherInitial command argv = .ok cmd)
    (recorded : cmd.toBinlog clock item = argvRecord item argv)
    (constant : ∀ later, cmd.effect later = cmd.effect clock)
    (fixed : (cmd.effect clock).chooses = false) :
    ReplaysEqually otherInitial clock item sets cmd := by
  refine (replaysEqually_iff_of_argvRecord found accepted recorded).mpr ?_
  intro later
  rw [constant later]
  exact leavesEqual_self fixed

/-- A clock one second later gives positive relative seconds another
deadline. -/
theorem relativeDeadline_constant_iff (clock sec : Int) :
    (∀ later, relativeDeadline clock sec = relativeDeadline later sec) ↔ sec ≤ 0 := by
  unfold relativeDeadline
  constructor
  · intro constant
    by_contra positive
    have next := constant (clock + 1)
    rw [if_pos (by omega), if_pos (by omega), Option.some.injEq] at next
    omega
  · intro few later
    rw [if_neg (by omega), if_neg (by omega)]

theorem replaysEqually_set_iff (found : getCmd argv = some .setCmd) (accepted :
      initial otherInitial .setCmd argv = .ok (.set argv fields)) :
    ReplaysEqually otherInitial clock item sets (.set argv fields) ↔
      (Cmd.set argv fields).ReplayFixed clock sets := by
  obtain ⟨key, value, target, sec, condition⟩ := fields
  cases condition with
  | kNONE =>
    exact iff_of_true (replaysEqually_of_argvRecord found accepted rfl (fun _ => rfl) rfl) trivial
  | kEXORPX => exact replaysEqually_iff_of_pksetexat rfl rfl
  | kNX | kXX | kVX =>
    rw [replaysEqually_iff_of_argvRecord found accepted rfl]
    refine Iff.trans (forall_congr' fun later => ?_) (relativeDeadline_constant_iff clock sec)
    rw [leavesEqual_iff_eq rfl rfl]
    simp [Cmd.effect]

/-- A padding does nothing, and neither does its record where it is one. -/
theorem followerEffect_padding (later : Int) :
    followerEffect otherInitial ((Cmd.padding argv).toBinlog clock item) later = .nothing := by
  rw [followerEffect_eq, followerCmd_padding]
  split_ifs <;> rfl

/-- Of the commands that log their own arguments, SPOP alone leaves a choice
to the engine. -/
theorem replaysEqually_other_iff (found : getCmd argv = some command) (accepted :
      initial otherInitial command argv = .ok (.other command argv)) :
    ReplaysEqually otherInitial clock item sets (.other command argv) ↔
      (Cmd.other command argv).ReplayFixed clock sets := by
  by_cases pops : command = .sPopCmd
  · subst pops
    rw [replaysEqually_iff_of_argvRecord found accepted rfl]
    refine Iff.trans ?_ leavesEqual_sPop_iff
    exact ⟨fun equal => equal clock, fun equal _ => equal⟩
  · have effectEq : ∀ clock, (Cmd.other command argv).effect clock = .other command argv := by
      intro clock
      cases command <;> first | rfl | exact absurd rfl pops
    refine iff_of_true (replaysEqually_of_argvRecord found accepted rfl (fun later => ?_) ?_) ?_
    · rw [effectEq, effectEq]
    · rw [effectEq]
      rfl
    · cases command <;> trivial

/-- A command and its record leave equal databases exactly when the record
carries what the engine would choose again. -/
theorem replaysEqually_iff_replayFixed (otherInitial : OtherInitial)
    (clock : Int) (item : BinlogItem) (sets : Bytes → Finset Bytes)
    {command : CommandName} {argv : List Bytes} {cmd : Cmd} (found : getCmd argv = some command)
    (accepted : initial otherInitial command argv = .ok cmd) :
    ReplaysEqually otherInitial clock item sets cmd ↔ cmd.ReplayFixed clock sets := by
  cases accepted_of_initial accepted with
  | set fields => exact replaysEqually_set_iff found accepted
  | setnx =>
    refine iff_of_true (replaysEqually_of_followerCmd (fun _ => ?_) rfl)
      trivial
    rw [followerEffect_eq, followerCmd_setnx]
    rfl
  | setex | psetex => exact replaysEqually_iff_of_pksetexat rfl rfl
  | expire => exact replaysEqually_iff_of_expireat rfl rfl rfl
  | pexpire _ three => exact replaysEqually_iff_of_expireat three rfl rfl
  | pexpireat timeStampMs three read =>
    refine iff_of_true ((replaysEqually_iff_of_expireat three rfl rfl).mpr ?_) trivial
    rw [← castInt64_tdiv read]
    exact castInt64_mem_range _
  | flushall =>
    refine iff_of_true (replaysEqually_of_followerCmd (fun _ => ?_) rfl)
      trivial
    rw [followerEffect_eq, followerCmd_flushall]
    rfl
  | padding =>
    exact iff_of_true (replaysEqually_of_followerCmd followerEffect_padding rfl) trivial
  | expireat | pkSetexAt | flushdb =>
    exact iff_of_true (replaysEqually_of_argvRecord found accepted rfl (fun _ => rfl) rfl) trivial
  | other => exact replaysEqually_other_iff found accepted

theorem getCmd_sPop : getCmd [ascii "spop", ascii "s"] = some .sPopCmd := by
  decide +kernel

/-- `SPOP s` of a set with one member empties it on both sides. -/
theorem replaysEqually_sPop_singleton :
    ReplaysEqually (fun _ _ => .ok ()) 100
      { execTime := 100, termId := 0, logicId := 1, filenum := 0, offset := 0 }
      (fun _ => {ascii "a"}) (.other .sPopCmd [ascii "spop", ascii "s"]) :=
  (replaysEqually_iff_replayFixed _ 100 _ _ getCmd_sPop rfl).mpr (Finset.card_singleton _).le

/-- `SPOP s` of a set with two members can remove one on the master and the
other on the follower. -/
theorem not_replaysEqually_sPop_pair :
    ¬ReplaysEqually (fun _ _ => .ok ()) 100
      { execTime := 100, termId := 0, logicId := 1, filenum := 0, offset := 0 }
      (fun _ => {ascii "a", ascii "b"})
      (.other .sPopCmd [ascii "spop", ascii "s"]) := by
  have distinct : ascii "a" ≠ ascii "b" := by decide
  rw [replaysEqually_other_iff getCmd_sPop rfl]
  intro few
  have two := Finset.card_pair distinct
  have one : Finset.card {ascii "a", ascii "b"} ≤ 1 := few
  omega

end Pika.Command
