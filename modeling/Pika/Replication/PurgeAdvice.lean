import Pika.Command.Stability
import Pika.Replication.Purge

/-!
# The purge that a partition advises

`GetSafetyPurgeBinlog` keeps a running minimum over the slaves and gives up at
the first one that has acknowledged nothing.  `BinlogCloudPurge` tests one file
against each slave.  Both describe the same threshold: the minimum is the last
file that passes the test.
-/

namespace Pika.Replication

open Foundation
open Binlog (Bytes)

/-- The slave has acknowledged a file in binlog-sync state. -/
def PurgeSlave.acknowledges (slave : PurgeSlave) : Bool :=
  slave.state = .binlogSync && 0 < slave.ackedFilenum

/-- The loop of `GetSafetyPurgeBinlog`: `purge_max`, or nothing where it
breaks. -/
def purgeMaxLoop (purgeMax : Nat) : List PurgeSlave → Option Nat
  | [] => some purgeMax
  | slave :: slaves =>
    if slave.acknowledges then purgeMaxLoop (min (slave.ackedFilenum - 1) purgeMax) slaves
    else none

/-- `purge_max` of a producer, if there is success. -/
def safePurgeMax (filenum : Nat) (slaves : List PurgeSlave) : Option Nat :=
  if 10 ≤ filenum then purgeMaxLoop (filenum - 10) slaves else none

/-- `GetSafetyPurgeBinlog`: `safety_purge`, if the log is open.  The number is
printed as an `int32_t`. -/
def getSafetyPurgeBinlog (view : PurgeView) : Option Bytes :=
  view.producer.map fun filenum =>
    match safePurgeMax filenum view.slaves with
    | some purgeMax => kBinlogPrefix ++ decimalInt (castInt32 purgeMax)
    | none => ascii "none"

/-! ## The loop -/

section Loop

variable {slave : PurgeSlave}

/-- A slave that acknowledges needs the files from the acknowledged one on. -/
theorem needs_of_acknowledges (acknowledges : slave.acknowledges = true) :
    slave.needs index = false ↔ index < slave.ackedFilenum := by
  rw [PurgeSlave.acknowledges, Bool.and_eq_true, decide_eq_true_eq] at acknowledges
  rw [PurgeSlave.needs, acknowledges.1, decide_eq_false_iff_not, Nat.not_le]

/-- The running minimum is the last index up to the start that no slave
needs. -/
theorem le_purgeMaxLoop_iff (found : purgeMaxLoop purgeMax slaves = some result) :
    index ≤ result ↔ index ≤ purgeMax ∧ ∀ slave ∈ slaves, slave.needs index = false := by
  induction slaves generalizing purgeMax with
  | nil =>
    cases found
    simp
  | cons slave slaves ih =>
    rw [purgeMaxLoop] at found
    split_ifs at found with acknowledges
    have positive : 0 < slave.ackedFilenum := by
      rw [PurgeSlave.acknowledges, Bool.and_eq_true, decide_eq_true_eq,
        decide_eq_true_eq] at acknowledges
      exact acknowledges.2
    rw [ih found, List.forall_mem_cons, needs_of_acknowledges acknowledges, Nat.le_min,
      Nat.le_sub_one_iff_lt positive]
    tauto

theorem isSome_purgeMaxLoop (acknowledge : ∀ slave ∈ slaves, slave.acknowledges = true) :
    (purgeMaxLoop purgeMax slaves).isSome = true := by
  induction slaves generalizing purgeMax with
  | nil => rfl
  | cons slave slaves ih =>
    obtain ⟨first, rest⟩ := List.forall_mem_cons.mp acknowledge
    rw [purgeMaxLoop, if_pos first]
    exact ih rest

end Loop

/-! ## The advice -/

section Advice

variable {view : PurgeView} {filenum purgeMax : Nat}

/-- `BinlogCloudPurge` tests an index against the minimum. -/
theorem binlogCloudPurge_iff (producer : view.producer = some filenum) (fits : filenum < 2 ^ 32)
    (safe : safePurgeMax filenum view.slaves = some purgeMax) (index : Nat) :
    binlogCloudPurge view index = true ↔ index ≤ purgeMax := by
  rw [safePurgeMax] at safe
  split_ifs at safe with advanced
  have distance : castUInt32 ((filenum : Int) - 10) = filenum - 10 := by
    unfold castUInt32
    omega
  rw [le_purgeMaxLoop_iff safe, binlogCloudPurge, producer]
  simp only [distance, Bool.and_eq_true, decide_eq_true_eq,
    Bool.not_eq_true', List.any_eq_false, Bool.not_eq_true]

theorem safePurgeMax_le (safe : safePurgeMax filenum slaves = some purgeMax) :
    purgeMax + 10 ≤ filenum := by
  rw [safePurgeMax] at safe
  split_ifs at safe with advanced
  have bounded := ((le_purgeMaxLoop_iff safe).mp purgeMax.le_refl).1
  omega

/-- The answer is no number where there is no success. -/
theorem kBinlogPrefix_append_ne_none (digits : Bytes) :
    kBinlogPrefix ++ digits ≠ ascii "none" := by
  intro same
  have first := congrArg List.head? same
  have literal : kBinlogPrefix.head? = some 119 := by decide
  rw [List.head?_append, literal, Option.some_or] at first
  revert first
  decide

/-- What an answer with a number says about the minimum. -/
theorem exists_purgeMax_of_answer (answer : getSafetyPurgeBinlog view =
      some (kBinlogPrefix ++ decimalInt number)) :
    ∃ filenum purgeMax, view.producer = some filenum ∧
      safePurgeMax filenum view.slaves = some purgeMax ∧
      castInt32 purgeMax = number := by
  obtain ⟨filenum, producer, text⟩ := Option.map_eq_some_iff.mp answer
  refine ⟨filenum, ?_⟩
  cases safe : safePurgeMax filenum view.slaves with
  | none =>
    rw [safe] at text
    exact absurd text.symm (kBinlogPrefix_append_ne_none _)
  | some purgeMax =>
    rw [safe] at text
    exact ⟨purgeMax, producer, rfl, decimalInt_injective (List.append_cancel_left text)⟩

end Advice

/-- The advice of a partition is exact. -/
structure AdvisesExactly (view : PurgeView) : Prop where
  /-- The file that is named is the last one that may be purged. -/
  threshold : ∀ number : Nat, getSafetyPurgeBinlog view = some (kBinlogPrefix ++ decimal number) →
      (∀ index ≤ number, binlogCloudPurge view index = true) ∧
        binlogCloudPurge view (number + 1) = false
  /-- A number that is printed negative names a file as a `uint32_t`. -/
  converted : ∀ number : Int,
    getSafetyPurgeBinlog view = some (kBinlogPrefix ++ decimalInt number) →
      ∀ index, binlogCloudPurge view index = true ↔ index ≤ castUInt32 number
  /-- A file is named once the producer has come to file ten and every slave has
  acknowledged a file. -/
  given : ∀ filenum, view.producer = some filenum → 10 ≤ filenum → (∀ slave ∈ view.slaves,
      slave.state = .binlogSync ∧ 0 < slave.ackedFilenum) →
    ∃ number : Int, getSafetyPurgeBinlog view = some (kBinlogPrefix ++ decimalInt number)

/-- `GetSafetyPurgeBinlog` names the last file that `BinlogCloudPurge` lets
pass, for every producer and all slaves. -/
theorem advisesExactly (view : PurgeView)
    (fits : ∀ filenum, view.producer = some filenum → filenum < 2 ^ 32) :
    AdvisesExactly view := by
  have converted : ∀ number : Int,
      getSafetyPurgeBinlog view = some (kBinlogPrefix ++ decimalInt number) →
        ∀ index, binlogCloudPurge view index = true ↔ index ≤ castUInt32 number := by
    intro number answer index
    obtain ⟨filenum, purgeMax, producer, safe, rfl⟩ := exists_purgeMax_of_answer answer
    have bounded := fits filenum producer
    have behind := safePurgeMax_le safe
    rw [binlogCloudPurge_iff producer bounded safe, castUInt32_castInt32,
      castUInt32_natCast_of_lt (by omega)]
  refine ⟨?_, converted, ?_⟩
  · intro number answer
    have exactly := converted (number : Int) answer
    obtain ⟨filenum, purgeMax, producer, safe, printed⟩ :=
      @exists_purgeMax_of_answer view number answer
    have range := castInt32_mem_range purgeMax
    simp only [castUInt32_natCast_of_lt (show number < 2 ^ 32 by omega)] at exactly
    refine ⟨fun index below => (exactly index).mpr below, ?_⟩
    apply Bool.eq_false_iff.mpr
    intro next
    exact absurd ((exactly _).mp next) (Nat.not_succ_le_self number)
  · intro filenum producer advanced acknowledge
    have goes : (safePurgeMax filenum view.slaves).isSome = true := by
      rw [safePurgeMax, if_pos advanced]
      apply isSome_purgeMaxLoop
      intro slave member
      obtain ⟨synced, positive⟩ := acknowledge slave member
      rw [PurgeSlave.acknowledges, Bool.and_eq_true, decide_eq_true_eq, decide_eq_true_eq]
      exact ⟨synced, positive⟩
    obtain ⟨purgeMax, safe⟩ := Option.isSome_iff_exists.mp goes
    refine ⟨castInt32 purgeMax, ?_⟩
    rw [getSafetyPurgeBinlog, producer, Option.map_some, safe]

/-- A producer at file twenty with slaves at the files six and eighteen. -/
def slaveBehind : PurgeView where
  mtime := none
  now := 0
  found := true
  producer := some 20
  slaves := [⟨.binlogSync, 6⟩, ⟨.binlogSync, 18⟩]
  deletes := true

/-- The answer is `write2file5`, and the advice is exact. -/
theorem advisesExactly_slaveBehind :
    getSafetyPurgeBinlog slaveBehind = some (ascii "write2file5") ∧
      AdvisesExactly slaveBehind := by
  refine ⟨by decide +kernel, advisesExactly _ ?_⟩
  intro filenum same
  cases same
  decide

end Pika.Replication
