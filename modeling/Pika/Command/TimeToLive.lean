import Pika.Command.Reply

/-!
# TTL and PTTL

A key can exist under several types, and the engine answers with a time for
each of them.  TTL and PTTL report the first type that has the key, each in an
order of its own: the orders differ in their last two types.
-/

namespace Pika

open Foundation

namespace Command

/-- `blackwidow::DataType`. -/
inductive DataType where
  | kStrings | kHashes | kLists | kZSets | kSets
  deriving DecidableEq, Repr

/-- What the engine's `TTL` answers when it works: for every type -2 if it does
not have the key, -1 if the key does not expire, or the seconds left. -/
structure TypeTimestamp where
  of : DataType → Int
  /-- There is no answer below -2. -/
  lower : ∀ type, -2 ≤ of type
  upper : ∀ type, of type < 2 ^ 31

/-- The first answer, in an order of types, of a type that has the key. -/
def firstHeld (timestamp : DataType → Int) (order : List DataType) : Option Int :=
  (order.map timestamp).find? fun seconds => decide (seconds ≠ -2)

/-- The tests of `TtlCmd::Do` in their order. -/
def ttlOrder : List DataType := [.kStrings, .kHashes, .kLists, .kZSets, .kSets]

/-- The tests of `PttlCmd::Do` in their order. -/
def pttlOrder : List DataType := [.kStrings, .kHashes, .kLists, .kSets, .kZSets]

/-- The reply of one branch of `PttlCmd::Do`. -/
def pttlInteger (seconds : Int) : Int := if seconds = -1 then -1 else seconds * 1000

/-- `Do` of the two commands: their order of the types, and the integer they
reply for a type that has the key. -/
def timeDo (order : List DataType) (integer : Int → Int) (timestamp : DataType → Int) : CmdRes :=
  if order.any fun type => decide (timestamp type = -3) then
    CmdRes.create.setResContent .kErrOther (ascii "ttl internal error")
  else CmdRes.create.appendInteger ((firstHeld timestamp order).elim (-2) integer)

/-- `TtlCmd::Do`. -/
def ttlDo (timestamp : DataType → Int) : CmdRes := timeDo ttlOrder id timestamp

/-- `PttlCmd::Do`. -/
def pttlDo (timestamp : DataType → Int) : CmdRes := timeDo pttlOrder pttlInteger timestamp

/-- TTL and PTTL say the same of a key, in seconds and in milliseconds. -/
def TimesAgree (timestamp : DataType → Int) : Prop :=
  ∃ ttl pttl : Int, ttlDo timestamp = CmdRes.create.appendInteger ttl ∧
    pttlDo timestamp = CmdRes.create.appendInteger pttl ∧
    (pttl = -1 ↔ ttl = -1) ∧
    (pttl = -2 ↔ ttl = -2) ∧
    (ttl ≠ -1 → ttl ≠ -2 → pttl = 1000 * ttl)

/-- The first match in two elements does not depend on their order exactly if
at most one of them matches or they are the same. -/
theorem find?_pair_comm_iff {α : Type} (test : α → Bool) (first second : α) :
    [first, second].find? test = [second, first].find? test ↔
      test first = false ∨ test second = false ∨ first = second := by
  cases firstTest : test first <;> cases secondTest : test second <;> simp [firstTest, secondTest]

/-- The two commands find the same type, or the key is a set and a sorted
set. -/
theorem firstHeld_eq_iff (timestamp : DataType → Int) :
    firstHeld timestamp ttlOrder = firstHeld timestamp pttlOrder ↔
      timestamp .kStrings ≠ -2 ∨ timestamp .kHashes ≠ -2 ∨
        timestamp .kLists ≠ -2 ∨ timestamp .kZSets = -2 ∨
        timestamp .kSets = -2 ∨ timestamp .kZSets = timestamp .kSets := by
  have pair := find?_pair_comm_iff (fun seconds => decide (seconds ≠ -2))
    (timestamp .kZSets) (timestamp .kSets)
  simp only [decide_eq_false_iff_not, not_not] at pair
  unfold firstHeld ttlOrder pttlOrder
  simp only [List.map_cons, List.map_nil]
  by_cases strings : timestamp .kStrings = -2
  · by_cases hashes : timestamp .kHashes = -2
    · by_cases lists : timestamp .kLists = -2
      · simpa [strings, hashes, lists] using pair
      · simp [strings, hashes, lists]
    · simp [strings, hashes]
  · simp [strings]

theorem firstHeld_spec (timestamp : TypeTimestamp) {order : List DataType}
    {seconds : Int} (found : firstHeld timestamp.of order = some seconds) :
    -1 ≤ seconds := by
  have held := List.find?_some found
  have member := List.mem_of_find?_eq_some found
  rw [List.mem_map] at member
  obtain ⟨type, -, rfl⟩ := member
  have lower := timestamp.lower type
  have differs : timestamp.of type ≠ -2 := of_decide_eq_true held
  omega

theorem timeDo_of (order : List DataType) (integer : Int → Int) (timestamp : TypeTimestamp) :
    timeDo order integer timestamp.of = CmdRes.create.appendInteger
        ((firstHeld timestamp.of order).elim (-2) integer) := by
  apply if_neg
  intro failed
  obtain ⟨type, -, three⟩ := List.any_eq_true.mp failed
  have lower := timestamp.lower type
  have same : timestamp.of type = -3 := of_decide_eq_true three
  omega

theorem CmdRes.appendInteger_create_injective :
    Function.Injective fun integer => CmdRes.create.appendInteger integer := by
  intro integer other same
  have lines := congrArg CmdRes.raw same
  simp only [CmdRes.appendInteger, CmdRes.appendLen, CmdRes.create, lengthLine,
    List.nil_append, List.cons.injEq, true_and, List.append_cancel_right_eq] at lines
  exact decimalInt_injective lines

/-- What two commands that found a type each reply: it agrees exactly if they
found the same. -/
theorem pttlInteger_agrees_iff (heldLower : ∀ seconds, held = some seconds → -1 ≤ seconds)
    (otherLower : ∀ seconds, other = some seconds → -1 ≤ seconds) :
    ((other.elim (-2) pttlInteger = -1 ↔ held.elim (-2) id = -1) ∧
      (other.elim (-2) pttlInteger = -2 ↔ held.elim (-2) id = -2) ∧
      (held.elim (-2) id ≠ -1 → held.elim (-2) id ≠ -2 →
        other.elim (-2) pttlInteger = 1000 * held.elim (-2) id)) ↔ held = other := by
  cases held with
  | none =>
    cases other with
    | none => simp
    | some second =>
      have lower := otherLower second rfl
      simp only [Option.elim_none, Option.elim_some, pttlInteger, reduceCtorEq, iff_false]
      rintro ⟨-, missing, -⟩
      have reply := missing.mpr trivial
      split_ifs at reply <;> omega
  | some first =>
    have lower := heldLower first rfl
    cases other with
    | none =>
      simp only [Option.elim_none, Option.elim_some, id_eq, reduceCtorEq, iff_false]
      omega
    | some second =>
      have otherLower := otherLower second rfl
      simp only [Option.elim_some, id_eq, pttlInteger, Option.some.injEq]
      split_ifs <;> omega

/-- TTL and PTTL agree exactly if an earlier type has the key, or not both of
sorted sets and sets have it with different times. -/
theorem timesAgree_iff (timestamp : TypeTimestamp) :
    TimesAgree timestamp.of ↔ timestamp.of .kStrings ≠ -2 ∨ timestamp.of .kHashes ≠ -2 ∨
        timestamp.of .kLists ≠ -2 ∨ timestamp.of .kZSets = -2 ∨
        timestamp.of .kSets = -2 ∨
        timestamp.of .kZSets = timestamp.of .kSets := by
  have agrees := pttlInteger_agrees_iff (fun _ => @firstHeld_spec timestamp ttlOrder _)
    (fun _ => @firstHeld_spec timestamp pttlOrder _)
  rw [← firstHeld_eq_iff, ← agrees]
  have ttlReply := timeDo_of ttlOrder id timestamp
  have pttlReply := timeDo_of pttlOrder pttlInteger timestamp
  constructor
  · rintro ⟨ttl, pttl, ttlEq, pttlEq, same⟩
    have ttlFound := CmdRes.appendInteger_create_injective (ttlReply.symm.trans ttlEq)
    have pttlFound := CmdRes.appendInteger_create_injective (pttlReply.symm.trans pttlEq)
    rw [ttlFound, pttlFound]
    exact same
  · intro same
    exact ⟨_, _, ttlReply, pttlReply, same⟩

/-- A key that is a sorted set for 10 seconds and a set for 20. -/
def setAndZSet : TypeTimestamp where
  of type := if type = .kZSets then 10 else if type = .kSets then 20 else -2
  lower type := by cases type <;> decide
  upper type := by cases type <;> decide

/-- TTL reports the sorted set, 10, and PTTL the set, 20000. -/
theorem not_timesAgree_setAndZSet :
    ttlDo setAndZSet.of = CmdRes.create.appendInteger 10 ∧
      pttlDo setAndZSet.of = CmdRes.create.appendInteger 20000 ∧
      ¬TimesAgree setAndZSet.of := by
  have ttlReply : ttlDo setAndZSet.of = CmdRes.create.appendInteger 10 := rfl
  have pttlReply : pttlDo setAndZSet.of = CmdRes.create.appendInteger 20000 := rfl
  refine ⟨ttlReply, pttlReply, ?_⟩
  rintro ⟨ttl, pttl, ttlEq, pttlEq, -, -, thousand⟩
  cases CmdRes.appendInteger_create_injective (ttlReply.symm.trans ttlEq)
  cases CmdRes.appendInteger_create_injective (pttlReply.symm.trans pttlEq)
  exact absurd (thousand (by decide) (by decide)) (by decide)

end Command

end Pika
