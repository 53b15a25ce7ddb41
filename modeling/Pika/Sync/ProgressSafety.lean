import Pika.Sync.Progress

/-!
# The slaves of a partition as a map from addresses

The same calls are made to two sets of slaves, one kept under computed keys
and one kept under the addresses themselves.  The first refines the second for
as long as every call finds under the key of its address only an entry of this
address, and a match index is written only for a slave that is still there.
-/

namespace Pika.Sync

open Foundation Option
open SlaveAddress (slaveKey)
namespace SyncProgress

variable {Key : Type} {key : SlaveAddress → Key}

/-- The slaves under computed keys and the slaves under addresses. -/
abbrev Both (Key : Type) := SyncProgress Key × SyncProgress SlaveAddress

def bothStep [DecidableEq Key] (key : SlaveAddress → Key) (both : Both Key)
    (label : ProgressLabel) : Option (Both Key) :=
  (step key both.1 label).bind fun first =>
    (step id both.2 label).map fun second => (first, second)

/-- The ip and port of the node behind a pointer. -/
def addressOf (pointer : Nat) (calls : ProgressCalls) : Option SlaveAddress :=
  calls.nodes[pointer]?.map AddressedNode.address

/-- No slave is known to either. -/
def bothInitial (Key : Type) : Both Key := (initial Key, initial SlaveAddress)

/-- The slaves under computed keys are the slaves under addresses, each of
which has a node and a match index of its own. -/
structure Refines (key : SlaveAddress → Key) (both : Both Key) : Prop where
  slaves : Holds key both.1.slaves both.2.slaves
  matchIndex : Holds key both.1.matchIndex both.2.matchIndex
  calls : both.1.calls = both.2.calls
  sameKeys : ∀ place, (both.1.slaves place).isSome = (both.1.matchIndex place).isSome
  sameAddresses : ∀ address, (both.2.slaves address).isSome = (both.2.matchIndex address).isSome
  ownNodes : ∀ address pointer, both.2.slaves address = some pointer →
    addressOf pointer both.2.calls = some address

/-- A node found under the key of an address was made for this address. -/
def OnlyOwn (key : SlaveAddress → Key) (progress : SyncProgress Key)
    (address : SlaveAddress) : Prop :=
  ∀ pointer ∈ progress.slaves (key address), addressOf pointer progress.calls = some address

/-- A node made for an address is found under the key of this address. -/
def HasOwn (key : SlaveAddress → Key) (progress : SyncProgress Key)
    (address : SlaveAddress) : Prop :=
  ∃ pointer ∈ progress.slaves (key address), addressOf pointer progress.calls = some address

/-- The change that a call under way makes meets the entry of its own
address. -/
def CallMeetsOwn (key : SlaveAddress → Key) (progress : SyncProgress Key) : ProgressCall → Prop
  | .insert address _ => progress.OnlyOwn key address
  | .writeMatchIndex address _ => progress.HasOwn key address
  | .setSessionId _ _ => True
  | .updateNode _ _ _ _ => True

/-- The lookups and changes of a step meet the entry of their own address. -/
def MeetsOwn (key : SlaveAddress → Key) (progress : SyncProgress Key) : ProgressLabel → Prop
  | .getSlaveNode address => progress.OnlyOwn key address
  | .addSlaveNode address _ => progress.OnlyOwn key address
  | .removeSlaveNode address => progress.OnlyOwn key address
  | .update address _ _ => progress.OnlyOwn key address
  | .proceed call => call ∈ progress.calls.pending → progress.CallMeetsOwn key call
  | .change _ _ => True

/-! ## Changes of the nodes -/

/-- Every node is still there, with its ip and port. -/
def KeepsAddresses (before after : ProgressCalls) : Prop :=
  ∀ pointer address, addressOf pointer before = some address →
      addressOf pointer after = some address

theorem Refines.onCalls (refines : Refines key both)
    (same : change both.1.calls = other both.2.calls)
    (keeps : KeepsAddresses both.2.calls (other both.2.calls)) :
    Refines key (both.1.onCalls change, both.2.onCalls other) where
  __ := refines
  calls := same
  ownNodes := fun address pointer found =>
    keeps pointer address (refines.ownNodes address pointer found)

theorem Refines.onBothCalls (refines : Refines key both) (change : ProgressCalls → ProgressCalls)
    (keeps : KeepsAddresses both.2.calls (change both.2.calls)) :
    Refines key (both.1.onCalls change, both.2.onCalls change) :=
  refines.onCalls (congrArg change refines.calls) keeps

theorem KeepsAddresses.congr {between : ProgressCalls} (keeps : KeepsAddresses before between)
    (same : after.nodes = between.nodes) :
    KeepsAddresses before after := by
  intro pointer address found
  rw [addressOf, same]
  exact keeps pointer address found

theorem keepsAddresses_of_nodes_eq (same : after.nodes = before.nodes) :
    KeepsAddresses before after :=
  KeepsAddresses.congr (fun _ _ found => found) same

theorem keepsAddresses_setNode (pointer : Nat) (change : SlaveNode → SlaveNode)
    (calls : ProgressCalls) :
    KeepsAddresses calls (calls.setNode pointer change) := by
  intro other address found
  rw [← found, addressOf, addressOf, ProgressCalls.setNode, List.getElem?_modify]
  cases calls.nodes[other]? with
  | none => rfl
  | some entry => by_cases here : pointer = other <;> simp [here]

theorem keepsAddresses_make (address : SlaveAddress) (sessionId : Int) (calls : ProgressCalls) :
    KeepsAddresses calls (calls.make address sessionId) := by
  intro pointer other found
  obtain ⟨entry, there, rfl⟩ := map_eq_some_iff.mp found
  have inside : pointer < calls.nodes.length := (List.getElem?_eq_some_iff.mp there).1
  rw [addressOf, ProgressCalls.make, List.getElem?_append_left inside, there]
  rfl

theorem keepsAddresses_updateNode {calls after : ProgressCalls}
    (updated : calls.updateNode address pointer start stop = some after) :
    KeepsAddresses calls after := by
  obtain ⟨entry, _, rfl⟩ := map_eq_some_iff.mp updated
  have kept := keepsAddresses_setNode pointer
    (fun _ => (entry.node.update start stop .zero).2.2) calls
  dsimp only
  split
  · exact kept.congr rfl
  · exact kept.congr rfl

/-! ## What a call meets -/

/-- In slaves that refine, the key of an address has only its own node exactly
where no other address with this key has one. -/
theorem Refines.onlyOwn_iff_alone (refines : Refines key both) (address : SlaveAddress) :
    both.1.OnlyOwn key address ↔ Alone key both.2.slaves address := by
  constructor
  · intro onlyOwn other pointer sameKey found
    have there := (refines.slaves (key address) pointer).mpr ⟨other, sameKey, found⟩
    have own := onlyOwn pointer there
    rw [refines.calls, refines.ownNodes other pointer found] at own
    exact Option.some.inj own
  · intro alone pointer found
    obtain ⟨other, sameKey, there⟩ := (refines.slaves (key address) pointer).mp found
    have same := alone other pointer sameKey there
    rw [refines.calls, ← same]
    exact refines.ownNodes other pointer there

theorem Refines.alone_matchIndex (refines : Refines key both)
    (alone : Alone key both.2.slaves address) :
    Alone key both.2.matchIndex address := by
  intro other offset sameKey found
  have present := refines.sameAddresses other
  rw [found, isSome_some, isSome_iff_exists] at present
  obtain ⟨pointer, there⟩ := present
  exact alone other pointer sameKey there

/-- A call that meets a node of another address meets one that is not the node
of its own address. -/
theorem Refines.exists_other (refines : Refines key both) (meets : ¬both.1.OnlyOwn key address) :
    ∃ other pointer, other ≠ address ∧ key other = key address ∧
        both.2.slaves other = some pointer ∧
        both.1.slaves (key address) = some pointer ∧
        both.2.slaves address ≠ some pointer := by
  rw [refines.onlyOwn_iff_alone, Alone] at meets
  push Not at meets
  obtain ⟨other, pointer, sameKey, found, apart⟩ := meets
  refine ⟨other, pointer, apart, sameKey, found, ?_, ?_⟩
  · exact (refines.slaves (key address) pointer).mpr ⟨other, sameKey, found⟩
  · intro shared
    have own := refines.ownNodes address pointer shared
    rw [refines.ownNodes other pointer found] at own
    exact apart (Option.some.inj own)

/-! ## Calls that look up a slave -/

/-- How a call goes on with the node it has found is a change of the calls that
tells the node, and leaves the nodes alone. -/
structure Reaction (react : Option Nat → ProgressCalls → ProgressCalls) : Prop where
  nodes_eq : ∀ pointer calls, (react pointer calls).nodes = calls.nodes
  tells : ∀ first second calls, react first calls = react second calls → first = second

theorem reaction_found : Reaction ProgressCalls.found where
  nodes_eq := fun _ _ => rfl
  tells := by
    intro first second calls same
    simpa [ProgressCalls.found, ProgressCalls.answer] using same

theorem reaction_add (address : SlaveAddress) (sessionId : Int) :
    Reaction (ProgressCalls.add address sessionId) where
  nodes_eq := by
    intro pointer calls
    cases pointer <;> rfl
  tells := by
    intro first second calls same
    cases first <;> cases second <;> simp_all [ProgressCalls.add, ProgressCalls.suspend]

theorem reaction_acknowledge (address : SlaveAddress) (start stop : LogOffset) :
    Reaction (ProgressCalls.acknowledge address start stop) where
  nodes_eq := by
    intro pointer calls
    cases pointer <;> rfl
  tells := by
    intro first second calls same
    cases first <;> cases second <;>
      simp_all [ProgressCalls.acknowledge, ProgressCalls.suspend, ProgressCalls.answer]

theorem Refines.react {both : Both Key} (refines : Refines key both)
    {react : Option Nat → ProgressCalls → ProgressCalls}
    (reaction : Reaction react) {address : SlaveAddress} (onlyOwn : both.1.OnlyOwn key address) :
    Refines key (both.1.onCalls (react (both.1.slaves (key address))),
        both.2.onCalls (react (both.2.slaves address))) := by
  have alone := (refines.onlyOwn_iff_alone address).mp onlyOwn
  apply refines.onCalls
  · rw [refines.slaves.lookup alone, refines.calls]
  · exact keepsAddresses_of_nodes_eq (reaction.nodes_eq _ _)

theorem Refines.not_react {both : Both Key} (refines : Refines key both)
    {react : Option Nat → ProgressCalls → ProgressCalls}
    (reaction : Reaction react) {address : SlaveAddress} (meets : ¬both.1.OnlyOwn key address) :
    ¬Refines key (both.1.onCalls (react (both.1.slaves (key address))),
        both.2.onCalls (react (both.2.slaves address))) := by
  intro after
  obtain ⟨other, pointer, _, _, _, found, unshared⟩ := refines.exists_other meets
  have same : react (both.1.slaves (key address)) both.1.calls =
      react (both.2.slaves address) both.2.calls := after.calls
  rw [refines.calls] at same
  rw [← reaction.tells _ _ _ same, found] at unshared
  exact unshared rfl

/-! ## Calls that change an entry -/

variable [DecidableEq Key]

theorem Refines.setEntry (refines : Refines key both) (onlyOwn : both.1.OnlyOwn key address)
    (sameKind : pointer.isSome = offset.isSome)
    (own : ∀ made ∈ pointer, addressOf made both.2.calls = some address) :
    Refines key (both.1.setEntry (key address) pointer offset,
        both.2.setEntry address pointer offset) := by
  have alone := (refines.onlyOwn_iff_alone address).mp onlyOwn
  exact
    { slaves := refines.slaves.update alone pointer
      matchIndex := refines.matchIndex.update (refines.alone_matchIndex alone) offset
      calls := refines.calls
      sameKeys := by
        intro place
        by_cases here : place = key address
        · simp [SyncProgress.setEntry, here, sameKind]
        · simp [SyncProgress.setEntry, here, refines.sameKeys place]
      sameAddresses := by
        intro other
        by_cases here : other = address
        · simp [SyncProgress.setEntry, here, sameKind]
        · simp [SyncProgress.setEntry, here, refines.sameAddresses other]
      ownNodes := by
        intro other made found
        by_cases here : other = address
        · subst here
          exact own made (by simpa [SyncProgress.setEntry] using found)
        · apply refines.ownNodes other made
          simpa [SyncProgress.setEntry, here] using found }

/-- An entry that is set while another address has one with the same key takes
the place of that one. -/
theorem Refines.not_setEntry (refines : Refines key both)
    (meets : ¬both.1.OnlyOwn key address) (offset : Option LogOffset)
    (fresh : ∀ made ∈ pointer, addressOf made both.2.calls = none) :
    ¬Holds key (both.1.setEntry (key address) pointer offset).slaves
      (both.2.setEntry address pointer offset).slaves := by
  intro holds
  obtain ⟨other, taken, apart, sameKey, found, _, _⟩ := refines.exists_other meets
  have same := eq_of_holds_update holds sameKey found apart
  have absent := fresh taken same
  rw [refines.ownNodes other taken found] at absent
  cases absent

theorem Refines.setMatchIndex (refines : Refines key both)
    (hasOwn : both.1.HasOwn key address) (offset : LogOffset) :
    Refines key (both.1.setMatchIndex (key address) offset,
        both.2.setMatchIndex address offset) := by
  obtain ⟨pointer, found, own⟩ := hasOwn
  have onlyOwn : both.1.OnlyOwn key address := by
    intro other there
    cases found.symm.trans there
    exact own
  have alone := (refines.onlyOwn_iff_alone address).mp onlyOwn
  exact
    { slaves := refines.slaves
      matchIndex := refines.matchIndex.update (refines.alone_matchIndex alone) (some offset)
      calls := refines.calls
      sameKeys := by
        intro place
        by_cases here : place = key address
        · simp [SyncProgress.setMatchIndex, here, mem_def.mp found]
        · simp [SyncProgress.setMatchIndex, here, refines.sameKeys place]
      sameAddresses := by
        intro other
        by_cases here : other = address
        · have there := refines.slaves.lookup alone
          rw [mem_def.mp found] at there
          simp [SyncProgress.setMatchIndex, here, ← there]
        · simp [SyncProgress.setMatchIndex, here, refines.sameAddresses other]
      ownNodes := refines.ownNodes }

omit [DecidableEq Key] in
/-- A match index that is written where the address has no entry stands there
without a node. -/
theorem Refines.not_setMatchIndex (refines : Refines key both)
    (gone : ¬both.1.HasOwn key address) (offset : LogOffset) :
    ((both.2.setMatchIndex address offset).slaves address).isSome ≠
      ((both.2.setMatchIndex address offset).matchIndex address).isSome := by
  have absent : both.2.slaves address = none := by
    cases found : both.2.slaves address with
    | none => rfl
    | some pointer =>
      have own := refines.ownNodes address pointer found
      rw [← refines.calls] at own
      have there := (refines.slaves (key address) pointer).mpr ⟨address, rfl, found⟩
      exact absurd ⟨pointer, there, own⟩ gone
  simp [SyncProgress.setMatchIndex, absent]

/-! ## Steps of both -/

theorem bothStep_eq_some_iff :
    bothStep key both label = some next ↔ step key both.1 label = some next.1 ∧
        step id both.2 label = some next.2 := by
  rw [bothStep, bind_eq_some_iff]
  constructor
  · rintro ⟨first, steppedFirst, paired⟩
    obtain ⟨second, steppedSecond, rfl⟩ := map_eq_some_iff.mp paired
    exact ⟨steppedFirst, steppedSecond⟩
  · rintro ⟨steppedFirst, steppedSecond⟩
    exact ⟨next.1, steppedFirst, by rw [steppedSecond, map_some]⟩

theorem step_proceed_eq_some_iff :
    step key progress (.proceed call) = some next ↔ call ∈ progress.calls.pending ∧
        proceed key (progress.onCalls (.resume call)) call = some next := by
  rw [step]
  split
  next pending => simp [pending]
  next absent => simp [absent]

theorem addressOf_make (address : SlaveAddress) (sessionId : Int) (calls : ProgressCalls) :
    addressOf calls.nodes.length (calls.make address sessionId) = some address := by
  simp [addressOf, ProgressCalls.make]

theorem addressOf_length (calls : ProgressCalls) : addressOf calls.nodes.length calls = none := by
  simp [addressOf]

theorem Refines.proceed {both : Both Key} (refines : Refines key both)
    {call : ProgressCall} (meets : both.1.CallMeetsOwn key call)
    {stored : SyncProgress Key} {named : SyncProgress SlaveAddress}
    (first : proceed key both.1 call = some stored)
    (second : SyncProgress.proceed id both.2 call = some named) :
    Refines key (stored, named) := by
  cases call with
  | insert address sessionId =>
    cases first
    cases second
    have made := refines.onBothCalls (fun calls => (calls.make address sessionId).answer .ok)
      ((keepsAddresses_make address sessionId _).congr rfl)
    have onlyOwn : OnlyOwn key (both.1.onCalls fun calls =>
          (calls.make address sessionId).answer .ok) address := by
      intro pointer found
      exact keepsAddresses_make address sessionId both.1.calls pointer address
        (meets pointer found)
    rw [refines.calls]
    apply made.setEntry onlyOwn (by rfl)
    intro pointer fresh
    cases fresh
    exact addressOf_make address sessionId both.2.calls
  | setSessionId pointer sessionId =>
    cases first
    cases second
    have kept := keepsAddresses_setNode pointer
      (fun node => { node with sessionId := sessionId }) both.2.calls
    exact refines.onBothCalls _ (kept.congr rfl)
  | updateNode address pointer start stop =>
    obtain ⟨calls, updated, rfl⟩ := map_eq_some_iff.mp first
    obtain ⟨others, updatedToo, rfl⟩ := map_eq_some_iff.mp second
    rw [refines.calls] at updated
    cases updated.symm.trans updatedToo
    exact refines.onCalls rfl (keepsAddresses_updateNode updated)
  | writeMatchIndex address ackedOffset =>
    cases first
    cases second
    exact (refines.setMatchIndex meets ackedOffset).onBothCalls
      (.answer (.updated internalCalCommittedIndex))
      (keepsAddresses_of_nodes_eq rfl)

/-- Steps that meet their own entries keep the refinement. -/
theorem refines_of_bothStep (both : Both Key) (label : ProgressLabel)
    (next : Both Key) (refines : Refines key both) (meets : MeetsOwn key both.1 label)
    (stepped : bothStep key both label = some next) :
    Refines key next := by
  obtain ⟨first, second⟩ := bothStep_eq_some_iff.mp stepped
  obtain ⟨stored, named⟩ := next
  cases label with
  | getSlaveNode address =>
    cases first
    cases second
    exact refines.react reaction_found meets
  | addSlaveNode address sessionId =>
    cases first
    cases second
    exact refines.react (reaction_add address sessionId) meets
  | removeSlaveNode address =>
    cases first
    cases second
    have removed : Refines key (both.1.setEntry (key address) none none,
          both.2.setEntry address none none) := by
      apply refines.setEntry meets rfl
      nofun
    exact removed.onBothCalls (.answer .ok) (keepsAddresses_of_nodes_eq rfl)
  | update address start stop =>
    cases first
    cases second
    exact refines.react (reaction_acknowledge address start stop) meets
  | proceed call =>
    obtain ⟨pending, first⟩ := step_proceed_eq_some_iff.mp first
    obtain ⟨_, second⟩ := step_proceed_eq_some_iff.mp second
    have resumed := refines.onBothCalls (.resume call) (keepsAddresses_of_nodes_eq rfl)
    apply resumed.proceed _ first second
    cases call <;> exact meets pending
  | change pointer node =>
    obtain ⟨_, changed⟩ := ite_none_right_eq_some.mp first
    obtain ⟨_, changedToo⟩ := ite_none_right_eq_some.mp second
    cases changed
    cases changedToo
    exact refines.onBothCalls _ (keepsAddresses_setNode pointer (fun _ => node) both.2.calls)

/-- A call under way that does not meet its own entry goes on and breaks the
refinement. -/
theorem Refines.not_proceed (refines : Refines key both) (meets : ¬both.1.CallMeetsOwn key call) :
    ∃ stored named, SyncProgress.proceed key both.1 call = some stored ∧
        SyncProgress.proceed id both.2 call = some named ∧
        ¬Refines key (stored, named) := by
  cases call with
  | insert address sessionId =>
    refine ⟨_, _, rfl, rfl, ?_⟩
    intro after
    have holds := after.slaves
    rw [refines.calls] at holds
    apply refines.not_setEntry meets (some .zero) _ holds
    intro pointer fresh
    cases fresh
    exact addressOf_length both.2.calls
  | setSessionId pointer sessionId => exact absurd trivial meets
  | updateNode address pointer start stop => exact absurd trivial meets
  | writeMatchIndex address ackedOffset =>
    refine ⟨_, _, rfl, rfl, ?_⟩
    intro after
    exact refines.not_setMatchIndex meets ackedOffset (after.sameAddresses address)

/-- A step that does not meet its own entry breaks the refinement. -/
theorem exists_bothStep_not_refines (both : Both Key) (label : ProgressLabel)
    (refines : Refines key both) (meets : ¬MeetsOwn key both.1 label) :
    ∃ next, bothStep key both label = some next ∧ ¬Refines key next := by
  cases label with
  | getSlaveNode address => exact ⟨_, rfl, refines.not_react reaction_found meets⟩
  | addSlaveNode address sessionId =>
    exact ⟨_, rfl, refines.not_react (reaction_add address sessionId) meets⟩
  | removeSlaveNode address =>
    refine ⟨_, rfl, ?_⟩
    intro after
    apply refines.not_setEntry meets none _ after.slaves
    nofun
  | update address start stop =>
    exact ⟨_, rfl, refines.not_react (reaction_acknowledge address start stop) meets⟩
  | proceed call =>
    simp only [MeetsOwn, Classical.not_imp] at meets
    obtain ⟨pending, meets⟩ := meets
    have resumed := refines.onBothCalls (.resume call) (keepsAddresses_of_nodes_eq rfl)
    have stays : ¬CallMeetsOwn key (both.1.onCalls (.resume call)) call := by
      cases call <;> exact meets
    obtain ⟨stored, named, first, second, broken⟩ := resumed.not_proceed stays
    refine ⟨(stored, named), bothStep_eq_some_iff.mpr ⟨?_, ?_⟩, broken⟩
    · exact step_proceed_eq_some_iff.mpr ⟨pending, first⟩
    · exact step_proceed_eq_some_iff.mpr ⟨refines.calls ▸ pending, second⟩
  | change pointer node => exact absurd trivial meets

omit [DecidableEq Key] in
theorem refines_bothInitial (key : SlaveAddress → Key) : Refines key (bothInitial Key) where
  slaves := holds_empty key
  matchIndex := holds_empty key
  calls := rfl
  sameKeys := fun _ => rfl
  sameAddresses := fun _ => rfl
  ownNodes := by
    nofun

/-! ## The slaves under ip and port -/

/-- The slaves kept under the ip followed by the port are the slaves of the
addresses along a run exactly when every step of it meets the entry of its own
address. -/
theorem refines_iff_meetsOwn (labels : List ProgressLabel) :
    RunSatisfies (bothStep slaveKey) (Refines slaveKey)
        (bothInitial (List UInt8)) labels ↔ RunAdmissible (bothStep slaveKey)
        (fun both => MeetsOwn slaveKey both.1)
        (bothInitial (List UInt8)) labels :=
  runSatisfies_iff_runSafe id (refines_of_bothStep _ _ _) (exists_bothStep_not_refines _ _)
    (refines_bothInitial slaveKey)

/-- `10.0.0.1:19221`. -/
def firstSlave : SlaveAddress where
  ip := ascii "10.0.0.1"
  port := 19221
  dotted := by
    refine ⟨10, 0, 0, 1, by decide, by decide, by decide, by decide, ?_⟩
    simp [dottedDecimal, decimal, digitByte, ascii]
  inRange := by decide

/-- `10.0.0.11:9221`. -/
def secondSlave : SlaveAddress where
  ip := ascii "10.0.0.11"
  port := 9221
  dotted := by
    refine ⟨10, 0, 0, 11, by decide, by decide, by decide, by decide, ?_⟩
    simp [dottedDecimal, decimal, digitByte, ascii]
  inRange := by decide

/-- One slave is added, and another is asked for. -/
def askForAnother : List ProgressLabel :=
  [.addSlaveNode firstSlave 1, .proceed (.insert firstSlave 1), .getSlaveNode secondSlave]

theorem slaveKey_firstSlave : firstSlave.slaveKey = ascii "10.0.0.119221" := by
  simp [slaveKey, firstSlave, decimal, digitByte, ascii]

theorem slaveKey_secondSlave : secondSlave.slaveKey = ascii "10.0.0.119221" := by
  simp [slaveKey, secondSlave, decimal, digitByte, ascii]

/-- The node of the slave that was added is returned for the other one. -/
theorem not_refines_askForAnother :
    ¬RunSatisfies (bothStep slaveKey)
      (Refines slaveKey) (bothInitial (List UInt8))
      askForAnother := by
  intro satisfies
  have ends : (run (bothStep slaveKey) (bothInitial (List UInt8))
      askForAnother).map (fun both => (both.1.calls.results, both.2.calls.results)) =
      some ([.ok, .node (some 0)], [.ok, .node none]) := by
    have apart : secondSlave ≠ firstSlave := by decide
    have sameKey := slaveKey_secondSlave.trans slaveKey_firstSlave.symm
    simp [askForAnother, bothStep, bothInitial, initial, step, proceed,
      SyncProgress.onCalls, SyncProgress.setEntry, ProgressCalls.found,
      ProgressCalls.add, ProgressCalls.make, ProgressCalls.answer,
      ProgressCalls.suspend, ProgressCalls.resume, sameKey, apart]
  obtain ⟨both, ran, results⟩ := map_eq_some_iff.mp ends
  have same := (satisfies.of_run ran).calls
  have first := congrArg Prod.fst results
  rw [same] at first
  cases first.symm.trans (congrArg Prod.snd results)

end SyncProgress
end Pika.Sync
