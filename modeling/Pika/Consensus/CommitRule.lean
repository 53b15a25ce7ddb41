import Mathlib.Data.List.Sort
import Pika.Foundation.OrderStatistic
import Pika.Foundation.Transition
import Pika.Sync.Window

/-!
# The commit rule

`UpdateSlave` records what a slave has acknowledged, copies the match indexes,
takes the offset that enough of them reach, compares its term with the current
one and raises the committed index.  Each of these is done under another lock,
so that slaves are added and removed, and the term changes, in between.
-/

namespace Pika.Consensus

open Foundation List
open Binlog (BinlogOffset)
open Sync (LogOffset)

/-- `std::sort`: any function that orders a list. -/
structure Sorting where
  sort : List LogOffset → List LogOffset
  perm : ∀ offsets, (sort offsets).Perm offsets
  ordered : ∀ offsets, (sort offsets).Pairwise fun first second => ¬second < first

/-- `InternalCalCommittedIndex` of the match indexes. -/
def internalCalCommittedIndex (consensusLevel : Nat) (sorting : Sorting)
    (matchIndex : List LogOffset) : LogOffset :=
  if consensusLevel = 0 then .zero
  else if matchIndex.length < consensusLevel then .zero
  else (sorting.sort matchIndex)[matchIndex.length - consensusLevel]?.getD .zero

/-- An offset is the greatest that enough others reach, or zero if there are
not enough. -/
structure IsQuorumOffset (consensusLevel : Nat) (matchIndex : List LogOffset)
    (offset : LogOffset) : Prop where
  few : matchIndex.length < consensusLevel → offset = .zero
  member : consensusLevel ≤ matchIndex.length → offset ∈ matchIndex
  reached : consensusLevel ≤ matchIndex.length → consensusLevel ≤ reaching offset matchIndex
  greatest : ∀ bound, consensusLevel ≤ reaching bound matchIndex → ¬offset < bound

/-- The index computed is the greatest that enough slaves reach. -/
theorem isQuorumOffset_internalCalCommittedIndex (positive : 0 < consensusLevel)
    (sorting : Sorting) (matchIndex : List LogOffset) :
    IsQuorumOffset consensusLevel matchIndex
      (internalCalCommittedIndex consensusLevel sorting matchIndex) := by
  rw [internalCalCommittedIndex, if_neg positive.ne']
  split_ifs with few
  · refine ⟨fun _ => rfl, fun enough => absurd few (Nat.not_lt.mpr enough),
      fun enough => absurd few (Nat.not_lt.mpr enough), fun bound enough => ?_⟩
    have bounded : reaching bound matchIndex ≤ matchIndex.length := countP_le_length
    omega
  · have perm := sorting.perm matchIndex
    have ordered := sorting.ordered matchIndex
    have inside : matchIndex.length - consensusLevel < (sorting.sort matchIndex).length := by
      rw [perm.length_eq]
      omega
    have split := take_append_drop (matchIndex.length - consensusLevel)
      (sorting.sort matchIndex)
    rw [drop_eq_getElem_cons inside] at split
    rw [List.getElem?_eq_getElem inside, Option.getD_some]
    generalize (sorting.sort matchIndex)[matchIndex.length - consensusLevel] = value at split
    have rest : (List.drop (matchIndex.length - consensusLevel + 1)
        (sorting.sort matchIndex)).length + 1 = consensusLevel := by
      rw [length_drop, perm.length_eq]
      omega
    rw [← split] at ordered
    refine ⟨fun less => absurd less few, fun _ => ?_, fun _ => ?_, fun bound enough larger => ?_⟩
    · rw [← perm.mem_iff, ← split]
      simp
    · rw [← reaching_perm perm, ← split]
      have reached := length_lt_reaching ordered (BinlogOffset.lt_irrefl value.bOffset)
      omega
    · rw [← reaching_perm perm, ← split] at enough
      have bounded := reaching_le_length ordered larger fun element notAbove =>
        BinlogOffset.lt_of_not_lt_of_lt notAbove larger
      omega

/-- What a call has still to do. -/
inductive CommitCall (Key : Type) where
  /-- `AddSlaveNode`, which has found no node. -/
  | insert (key : Key)
  /-- `Update`, which has found the node. -/
  | update (key : Key)
  /-- `Update`, which has written the match index. -/
  | calculate
  | checkTerm (offset : LogOffset)
  /-- `InternalUpdateCommittedIndex` under `index_mu_`. -/
  | updateCommitted (offset : LogOffset)
  deriving DecidableEq

/-- What happens next at a leader. -/
inductive CommitLabel (Key : Type) where
  | addSlaveNode (key : Key)
  | removeSlaveNode (key : Key)
  | updateSlave (key : Key)
  | updateTerm (term : Nat)
  /-- A call goes on.  If it updates a node, the node returns an acknowledged
  offset or fails. -/
  | proceed (call : CommitCall Key) (ackedOffset : Option LogOffset)

/-- A leader and its slaves. -/
structure Leader (Key : Type) where
  slaves : List Key
  matchIndex : List (Key × LogOffset)
  committedIndex : LogOffset
  term : Nat
  calls : List (CommitCall Key)
  /-- What the registered slaves have acknowledged. -/
  acked : List (Key × LogOffset)
  deriving DecidableEq

namespace Leader

variable {Key : Type} [DecidableEq Key]

/-- A leader without slaves. -/
def initial (Key : Type) (committedIndex : LogOffset) (term : Nat) : Leader Key where
  slaves := []
  matchIndex := []
  committedIndex := committedIndex
  term := term
  calls := []
  acked := []

/-- The match indexes with one replaced. -/
def setMatchIndex (key : Key) (offset : LogOffset) (leader : Leader Key) :
    List (Key × LogOffset) :=
  (key, offset) :: leader.matchIndex.filter fun entry => entry.1 ≠ key

/-- A call pauses before it goes on. -/
def suspend (call : CommitCall Key) (leader : Leader Key) : Leader Key :=
  { leader with calls := call :: leader.calls }

/-- What a call does between two uses of the locks. -/
def proceed (consensusLevel : Nat) (sorting : Sorting) (leader : Leader Key)
    (ackedOffset : Option LogOffset) : CommitCall Key → Leader Key
  | .insert key =>
    { leader with
      slaves := key :: leader.slaves.filter (· ≠ key)
      matchIndex := leader.setMatchIndex key .zero }
  | .update key =>
    ackedOffset.elim leader fun offset =>
      suspend .calculate
        { leader with
          matchIndex := leader.setMatchIndex key offset
          acked := (key, offset) :: leader.acked }
  | .calculate =>
    leader.suspend (.checkTerm (internalCalCommittedIndex consensusLevel sorting
      (leader.matchIndex.map Prod.snd)))
  | .checkTerm offset =>
    if offset.lOffset.term = leader.term then leader.suspend (.updateCommitted offset)
    else leader
  | .updateCommitted offset =>
    if leader.committedIndex < offset then { leader with committedIndex := offset }
    else leader

/-- One step of the threads. -/
def step (consensusLevel : Nat) (sorting : Sorting) (leader : Leader Key) :
    CommitLabel Key → Option (Leader Key)
  | .addSlaveNode key =>
    some (if key ∈ leader.slaves then leader else leader.suspend (.insert key))
  | .removeSlaveNode key =>
    some { leader with
      slaves := leader.slaves.filter (· ≠ key)
      matchIndex := leader.matchIndex.filter fun entry => entry.1 ≠ key
      acked := leader.acked.filter fun entry => entry.1 ≠ key }
  | .updateSlave key =>
    some (if key ∈ leader.slaves then leader.suspend (.update key) else leader)
  | .updateTerm term => some { leader with term := term }
  | .proceed call ackedOffset =>
    if call ∈ leader.calls then
      some (proceed consensusLevel sorting
        { leader with calls := leader.calls.erase call } ackedOffset call)
    else none

/-- Enough registered slaves have acknowledged an offset. -/
def Acknowledged (consensusLevel : Nat) (offset : LogOffset) (leader : Leader Key) : Prop :=
  ∃ quorum : List Key, quorum.Nodup ∧ consensusLevel ≤ quorum.length ∧
    ∀ key ∈ quorum, key ∈ leader.slaves ∧ ∃ acked, (key, acked) ∈ leader.acked ∧ ¬acked < offset

/-- The committed index does not decrease, and where it is raised, enough
registered slaves have acknowledged it and its term is the current one. -/
structure Commits (consensusLevel : Nat) (leader next : Leader Key) : Prop where
  monotone : ¬next.committedIndex < leader.committedIndex
  acknowledged : leader.committedIndex < next.committedIndex →
    next.Acknowledged consensusLevel next.committedIndex
  current : leader.committedIndex < next.committedIndex →
    next.committedIndex.lOffset.term = next.term

/-- No `UpdateSlave` is under way. -/
def Idle (leader : Leader Key) : Prop := ∀ call ∈ leader.calls, ∃ key, call = .insert key

/-- Slaves are removed and terms change while no `UpdateSlave` is under way. -/
def Quiet (leader : Leader Key) : CommitLabel Key → Prop
  | .removeSlaveNode _ => leader.Idle
  | .updateTerm _ => leader.Idle
  | _ => True

instance (call : CommitCall Key) : Decidable (∃ key, call = .insert key) :=
  match call with
  | .insert key => .isTrue ⟨key, rfl⟩
  | .update _ | .calculate | .checkTerm _ | .updateCommitted _ =>
    .isFalse fun ⟨_, same⟩ => by cases same

instance (leader : Leader Key) : Decidable leader.Idle :=
  inferInstanceAs (Decidable (∀ call ∈ leader.calls, ∃ key, call = .insert key))

instance (leader : Leader Key) (label : CommitLabel Key) : Decidable (leader.Quiet label) :=
  match label with
  | .removeSlaveNode _ | .updateTerm _ => inferInstanceAs (Decidable leader.Idle)
  | .addSlaveNode _ | .updateSlave _ | .proceed _ _ => .isTrue trivial

/-- The match indexes are those of registered slaves, and every index under way
has its quorum. -/
structure Sound (consensusLevel : Nat) (leader : Leader Key) : Prop where
  entries : ∀ entry ∈ leader.matchIndex, entry.1 ∈ leader.slaves ∧
    (entry.2 = .zero ∨ entry ∈ leader.acked)
  distinct : (leader.matchIndex.map Prod.fst).Nodup
  updating : ∀ key, .update key ∈ leader.calls → key ∈ leader.slaves
  calculated : ∀ offset, .checkTerm offset ∈ leader.calls ∨
    .updateCommitted offset ∈ leader.calls → LogOffset.zero < offset →
      leader.Acknowledged consensusLevel offset
  current : ∀ offset, .updateCommitted offset ∈ leader.calls → offset.lOffset.term = leader.term

variable {leader next : Leader Key} {consensusLevel : Nat} {sorting : Sorting}

omit [DecidableEq Key] in
theorem Acknowledged.mono (acknowledged : leader.Acknowledged consensusLevel offset)
    (slaves : leader.slaves ⊆ next.slaves) (acked : leader.acked ⊆ next.acked) :
    next.Acknowledged consensusLevel offset := by
  obtain ⟨quorum, distinct, enough, all⟩ := acknowledged
  refine ⟨quorum, distinct, enough, fun key member => ?_⟩
  obtain ⟨registered, offset, here, reached⟩ := all key member
  exact ⟨slaves registered, offset, acked here, reached⟩

omit [DecidableEq Key] in
/-- An offset that is raised to is not zero. -/
theorem zero_lt_of_lt (less : first < second) : LogOffset.zero < second := by
  apply BinlogOffset.lt_of_not_lt_of_lt _ less
  rintro (file | ⟨-, place⟩)
  · exact Nat.not_lt_zero _ file
  · exact Nat.not_lt_zero _ place

namespace Sound

section

variable (sound : leader.Sound consensusLevel)
include sound

omit [DecidableEq Key] in
/-- The slaves whose match index reaches an offset have acknowledged it. -/
theorem acknowledged (positive : LogOffset.zero < offset) (enough : consensusLevel ≤
      reaching offset (leader.matchIndex.map Prod.snd)) :
    leader.Acknowledged consensusLevel offset := by
  rw [reaching, countP_map, countP_eq_length_filter] at enough
  refine ⟨(leader.matchIndex.filter _).map Prod.fst,
    sound.distinct.sublist (filter_sublist.map _), by simpa using enough, ?_⟩
  intro key member
  obtain ⟨entry, filtered, rfl⟩ := mem_map.mp member
  obtain ⟨listed, reached⟩ := mem_filter.mp filtered
  have notBelow : ¬entry.2 < offset := by simpa using reached
  obtain ⟨registered, zero | acked⟩ := sound.entries entry listed
  · exact absurd (zero ▸ positive) notBelow
  · exact ⟨registered, entry.2, acked, notBelow⟩

/-- Setting the entry of a registered slave keeps the entries. -/
theorem setMatchIndex {key : Key} {offset : LogOffset} (slaves : leader.slaves ⊆ next.slaves)
    (acked : leader.acked ⊆ next.acked) (registered : key ∈ next.slaves)
    (known : offset = .zero ∨ (key, offset) ∈ next.acked) :
    (∀ entry ∈ leader.setMatchIndex key offset, entry.1 ∈ next.slaves ∧
      (entry.2 = .zero ∨ entry ∈ next.acked)) ∧
      ((leader.setMatchIndex key offset).map Prod.fst).Nodup := by
  constructor
  · intro entry member
    rcases mem_cons.mp member with rfl | member
    · exact ⟨registered, known⟩
    · obtain ⟨here, zero | listed⟩ := sound.entries entry (mem_of_mem_filter member)
      · exact ⟨slaves here, .inl zero⟩
      · exact ⟨slaves here, .inr (acked listed)⟩
  · refine nodup_cons.mpr ⟨?_, ?_⟩
    · simp
    · exact sound.distinct.sublist (filter_sublist.map _)

omit [DecidableEq Key] in
theorem mono {calls : List (CommitCall Key)} (fewer : calls ⊆ leader.calls) :
    Sound consensusLevel { leader with calls := calls } where
  __ := sound
  updating key member := sound.updating key (fewer member)
  calculated offset member := sound.calculated offset (member.imp (fewer ·) (fewer ·))
  current offset member := sound.current offset (fewer member)

omit [DecidableEq Key] in
/-- A call whose index has its quorum may wait. -/
theorem suspend (updating : ∀ key, .update key = call → key ∈ leader.slaves)
    (calculated : ∀ offset, .checkTerm offset = call ∨
      .updateCommitted offset = call → LogOffset.zero < offset →
        leader.Acknowledged consensusLevel offset)
    (current : ∀ offset, .updateCommitted offset = call → offset.lOffset.term = leader.term) :
    (leader.suspend call).Sound consensusLevel where
  __ := sound
  updating key member := (mem_cons.mp member).elim (updating key) (sound.updating key)
  calculated offset member positive := by
    rcases member with member | member
    · rcases mem_cons.mp member with here | member
      · exact calculated offset (.inl here) positive
      · exact sound.calculated offset (.inl member) positive
    · rcases mem_cons.mp member with here | member
      · exact calculated offset (.inr here) positive
      · exact sound.calculated offset (.inr member) positive
  current offset member := (mem_cons.mp member).elim (current offset) (sound.current offset)

end

end Sound

omit [DecidableEq Key] in
/-- A step that does not touch the committed index commits by the rule. -/
theorem Commits.of_eq (same : next.committedIndex = leader.committedIndex) :
    Commits consensusLevel leader next := by
  have unraised : ¬leader.committedIndex < next.committedIndex := same ▸ BinlogOffset.lt_irrefl _
  exact ⟨same ▸ BinlogOffset.lt_irrefl _, fun raised => absurd raised unraised,
    fun raised => absurd raised unraised⟩

/-- Every call under way keeps a leader sound, and commits by the rule. -/
theorem Sound.proceed (level : 0 < consensusLevel)
    (sound : leader.Sound consensusLevel) {call : CommitCall Key}
    (called : call ∈ leader.calls) (ackedOffset : Option LogOffset) :
    Sound consensusLevel (Leader.proceed consensusLevel sorting
        { leader with calls := leader.calls.erase call } ackedOffset call) ∧
      Commits consensusLevel leader (Leader.proceed consensusLevel sorting
        { leader with calls := leader.calls.erase call } ackedOffset call) := by
  have fewer := sound.mono (erase_subset (a := call))
  cases call with
  | insert key =>
    have slaves : leader.slaves ⊆ key :: leader.slaves.filter (· ≠ key) := by
      intro other member
      by_cases here : other = key <;> simp [here, member]
    obtain ⟨entries, distinct⟩ := @setMatchIndex Key _ _ (Leader.proceed
      consensusLevel sorting { leader with calls := leader.calls.erase _ }
        ackedOffset (.insert key)) _ fewer key .zero slaves
      (List.Subset.refl _) mem_cons_self (.inl rfl)
    refine ⟨⟨entries, distinct, fun other member =>
      slaves (fewer.updating other member), fun offset member positive =>
        ?_, fewer.current⟩, .of_eq rfl⟩
    exact (fewer.calculated offset member positive).mono slaves (List.Subset.refl _)
  | update key =>
    cases ackedOffset with
    | none => exact ⟨fewer, .of_eq rfl⟩
    | some offset =>
      have acked := subset_cons_self (key, offset) leader.acked
      obtain ⟨entries, distinct⟩ := @setMatchIndex Key _ _ { leader with
        acked := (key, offset) :: leader.acked } _ fewer key offset
        (List.Subset.refl _) acked (sound.updating key called)
        (.inr mem_cons_self)
      have written : Sound consensusLevel { leader with
          calls := leader.calls.erase (.update key)
          matchIndex := leader.setMatchIndex key offset
          acked := (key, offset) :: leader.acked } := by
        refine ⟨entries, distinct, fewer.updating, ?_, fewer.current⟩
        intro other member positive
        exact (fewer.calculated other member positive).mono (List.Subset.refl _) acked
      exact ⟨written.suspend (by simp) (by simp) (by simp), .of_eq rfl⟩
  | calculate =>
    have quorum := isQuorumOffset_internalCalCommittedIndex level sorting
      (leader.matchIndex.map Prod.snd)
    refine ⟨fewer.suspend (by simp) ?_ (by simp), .of_eq rfl⟩
    intro offset here positive
    rcases here with here | here <;> cases here
    refine fewer.acknowledged positive (quorum.reached ?_)
    by_contra few
    change _ < internalCalCommittedIndex _ _ _ at positive
    rw [quorum.few (Nat.lt_of_not_le few)] at positive
    exact BinlogOffset.lt_irrefl _ positive
  | checkTerm offset =>
    rw [Leader.proceed]
    split_ifs with current
    · refine ⟨fewer.suspend (by simp) ?_ ?_, .of_eq rfl⟩
      · intro other here
        rcases here with here | here <;> cases here
        exact sound.calculated _ (.inl called)
      · intro other here
        cases here
        exact current
    · exact ⟨fewer, .of_eq rfl⟩
  | updateCommitted offset =>
    rw [Leader.proceed]
    split_ifs with raised
    · refine ⟨⟨fewer.entries, fewer.distinct, fewer.updating,
        fewer.calculated, fewer.current⟩, ?_, fun _ => ?_, fun _ => ?_⟩
      · exact fun lower => BinlogOffset.lt_irrefl _ (BinlogOffset.lt_trans raised lower)
      · exact sound.calculated offset (.inr called) (zero_lt_of_lt raised)
      · exact sound.current offset called
    · exact ⟨fewer, .of_eq rfl⟩

omit [DecidableEq Key] in
/-- Without an `UpdateSlave` under way, only the match indexes matter. -/
theorem Sound.of_idle (idle : leader.Idle)
    (entries : ∀ entry ∈ leader.matchIndex, entry.1 ∈ leader.slaves ∧
      (entry.2 = .zero ∨ entry ∈ leader.acked))
    (distinct : (leader.matchIndex.map Prod.fst).Nodup) :
    leader.Sound consensusLevel := by
  refine ⟨entries, distinct, fun key member => ?_, fun offset member => ?_, fun offset member => ?_⟩
  · obtain ⟨_, same⟩ := idle _ member
    cases same
  · rcases member with member | member <;> obtain ⟨_, same⟩ := idle _ member <;> cases same
  · obtain ⟨_, same⟩ := idle _ member
    cases same

/-- Every step keeps a leader sound, and commits by the rule. -/
theorem Sound.step (level : 0 < consensusLevel)
    (sound : leader.Sound consensusLevel) (quiet : leader.Quiet label)
    (stepped : leader.step consensusLevel sorting label = some next) :
    next.Sound consensusLevel ∧ Commits consensusLevel leader next := by
  cases label with
  | addSlaveNode key =>
    cases stepped
    split_ifs
    · exact ⟨sound, .of_eq rfl⟩
    · exact ⟨sound.suspend (by simp) (by simp) (by simp), .of_eq rfl⟩
  | removeSlaveNode key =>
    cases stepped
    refine ⟨of_idle quiet ?_ ?_, .of_eq rfl⟩
    · intro entry member
      obtain ⟨listed, other⟩ := mem_filter.mp member
      obtain ⟨registered, known⟩ := sound.entries entry listed
      refine ⟨mem_filter.mpr ⟨registered, other⟩, known.imp_right ?_⟩
      exact fun acked => mem_filter.mpr ⟨acked, other⟩
    · exact sound.distinct.sublist (filter_sublist.map _)
  | updateSlave key =>
    cases stepped
    split_ifs with registered
    · refine ⟨sound.suspend ?_ (by simp) (by simp), .of_eq rfl⟩
      intro other same
      cases same
      exact registered
    · exact ⟨sound, .of_eq rfl⟩
  | updateTerm term =>
    cases stepped
    exact ⟨of_idle quiet sound.entries sound.distinct, .of_eq rfl⟩
  | proceed call ackedOffset =>
    rw [Leader.step] at stepped
    split_ifs at stepped with called
    cases stepped
    exact sound.proceed level called ackedOffset

/-- In every run in which slaves are removed and terms change while no
`UpdateSlave` is under way, each step commits by the rule; and the index that
is computed is the greatest that enough match indexes reach. -/
theorem commits_of_run (level : 0 < consensusLevel) (sorting : Sorting)
    {committedIndex : LogOffset} {term : Nat} {labels : List (CommitLabel Key)}
    {label : CommitLabel Key} (quiet : RunAdmissible (step consensusLevel sorting) Quiet
      (initial Key committedIndex term) labels)
    (ran : run (step consensusLevel sorting) (initial Key committedIndex term)
      labels = some leader) (quietNow : leader.Quiet label)
    (stepped : leader.step consensusLevel sorting label = some next) :
    Commits consensusLevel leader next ∧ ∀ matchIndex, IsQuorumOffset consensusLevel matchIndex
        (internalCalCommittedIndex consensusLevel sorting matchIndex) := by
  have initially : (initial Key committedIndex term).Sound consensusLevel :=
    .of_idle (forall_mem_nil _) (forall_mem_nil _) nodup_nil
  have sound := invariant_of_run (fun _ _ _ sound quiet stepped =>
    (Sound.step level sound quiet stepped).1) initially quiet ran
  exact ⟨(sound.step level quietNow stepped).2,
    isQuorumOffset_internalCalCommittedIndex level sorting⟩

/-- Sorting by insertion. -/
def inserting : Sorting where
  sort := List.insertionSort fun first second => ¬second < first
  perm := perm_insertionSort _
  ordered offsets := by
    have total : Std.Total fun first second : LogOffset => ¬second < first :=
      ⟨fun first second => not_or_of_imp fun less more =>
        BinlogOffset.lt_irrefl _ (BinlogOffset.lt_trans less more)⟩
    have trans : IsTrans LogOffset fun first second => ¬second < first :=
      ⟨fun _ _ _ notFirst notSecond later => notFirst
        (BinlogOffset.lt_of_not_lt_of_lt notSecond later)⟩
    exact pairwise_insertionSort _ offsets

/-- Three slaves of which one is removed before the second acknowledges, in a
term that began after they were registered: the smaller offset is committed. -/
theorem commits_twoSlaves :
    ∃ leader next : Leader (Fin 3), leader.committedIndex = .zero ∧
      next.committedIndex = .inFile 10 1 ∧ next.slaves = [1, 0] ∧ Commits 2 leader next := by
  let labels : List (CommitLabel (Fin 3)) :=
    [.addSlaveNode 0, .proceed (.insert 0) none, .addSlaveNode 1, .proceed (.insert 1) none,
      .addSlaveNode 2, .proceed (.insert 2) none, .updateTerm 1, .updateSlave 0,
      .proceed (.update 0) (some (.inFile 20 2)), .proceed .calculate none,
      .proceed (.checkTerm .zero) none, .removeSlaveNode 2, .updateSlave 1,
      .proceed (.update 1) (some (.inFile 10 1)), .proceed .calculate none,
      .proceed (.checkTerm (.inFile 10 1)) none]
  let acked : List (Fin 3 × LogOffset) := [(1, .inFile 10 1), (0, .inFile 20 2)]
  let leader : Leader (Fin 3) :=
    { slaves := [1, 0], matchIndex := acked, committedIndex := .zero, term := 1
      calls := [.updateCommitted (.inFile 10 1)], acked }
  have quiet : RunAdmissible (step 2 inserting) Quiet (initial (Fin 3) .zero 0) labels := by
    decide +kernel
  have ran : run (step 2 inserting) (initial (Fin 3) .zero 0) labels = some leader := by
    decide +kernel
  have stepped : leader.step 2 inserting (.proceed (.updateCommitted (.inFile 10 1)) none) =
      some { leader with committedIndex := .inFile 10 1, calls := [] } := by
    decide +kernel
  exact ⟨_, _, rfl, rfl, rfl,
    (commits_of_run Nat.two_pos inserting quiet ran (by trivial) stepped).1⟩

/-- A slave that is removed while its `UpdateSlave` is under way leaves a match
index, with which an offset is committed that no registered slave has
acknowledged. -/
theorem not_commits_removedSlave :
    ∃ leader next : Leader Unit, run (step 1 inserting) (initial Unit .zero 1)
          [.addSlaveNode (), .proceed (.insert ()) none, .updateSlave (),
            .removeSlaveNode (), .proceed (.update ()) (some (.inFile 10 1)),
            .proceed .calculate none, .proceed (.checkTerm (.inFile 10 1)) none] = some leader ∧
      leader.step 1 inserting (.proceed (.updateCommitted (.inFile 10 1)) none) = some next ∧
      ¬Commits 1 leader next := by
  refine ⟨_, _, rfl, rfl, fun commits => ?_⟩
  obtain ⟨quorum, -, enough, all⟩ := commits.acknowledged (by decide)
  obtain ⟨key, others, rfl⟩ := exists_cons_of_ne_nil (ne_nil_of_length_pos enough)
  cases (all key mem_cons_self).1

end Leader
end Pika.Consensus
