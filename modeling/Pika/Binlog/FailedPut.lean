import Pika.Binlog.RoundTrip

/-!
# Puts that fail

A `Put` is a sequence of file operations: the padding of a block tail, and for
each fragment an append of its header, an append of its payload and a flush.
Once one of them fails the rest are not made.  What was appended before stays
in the file, the block offset has moved over the whole fragment, and the
published position has not moved.
-/

namespace Pika.Binlog

open Foundation List

/-! ## The writer -/

namespace ProduceState

/-- The number of appends of `closeBlock`. -/
def paddings (state : ProduceState) : Nat :=
  let leftover := kBlockSize - state.blockOffset
  if leftover < kHeaderSize ∧ 0 < leftover then 1 else 0

/-- A fragment of whose operations only the first `made` succeed.  The block
offset moves all the same. -/
def emitFragmentFailing (now made : Nat) (state : ProduceState) : ProduceState :=
  let emitted := state.emitFragment now
  { emitted with appends := state.appends ++ (emitted.appends.drop state.appends.length).take made }

end ProduceState

/-- The loop of `Produce` in which the operation after `made` successful ones
fails, or nothing if there are no more than `made`. -/
def produceLoopFailing (now : Nat → Nat) (made : Nat) (state : ProduceState) :
    Option ProduceState :=
  if made < state.paddings then some state
  else if made < state.paddings + 3 then
    some (state.closeBlock.emitFragmentFailing (now 0) (made - state.paddings))
  else if (state.produceStep (now 0)).left = [] then none
  else produceLoopFailing (fun iteration => now (iteration + 1))
    (made - (state.paddings + 3)) (state.produceStep (now 0))
termination_by made

/-- `Put` of a slice in which the file operation after `made` successful ones
fails, or nothing if there are no more than `made`. -/
def putFailing (now : Nat → Nat) (made : Nat) (item : Bytes) (log : Binlog) : Option Binlog :=
  let log := log.checkRoll
  (produceLoopFailing now made
    { appends := []
      blockOffset := log.blockOffset
      tempProOffset := castInt32 log.version.proOffset
      left := item
      isBegin := true }).map fun failed =>
    { failed.appends.foldl appendQueue log with blockOffset := failed.blockOffset }

/-! ## The operations of a layout -/

/-- What the operations of a fragment append; a flush appends nothing. -/
def Fragment.operations (fragment : Fragment) : List Bytes := fragment.appends ++ [[]]

/-- What the operations of the fragments of an item append. -/
def operations (now : Nat → Nat) (offset : Nat) (isBegin : Bool) (left : Bytes) : List Bytes :=
  (fragments now offset isBegin left).flatMap Fragment.operations

theorem operations_of_lt (longer : roomAt offset < left.length) (now : Nat → Nat) (isBegin : Bool) :
    operations now offset isBegin left = (nextFragment (now 0) offset isBegin left).operations ++
        operations (fun iteration => now (iteration + 1))
          (offset + (padAt offset + (kHeaderSize + roomAt offset))) false
          (left.drop (roomAt offset)) := by
  rw [operations, fragments, dif_pos longer, flatMap_cons, operations]

theorem operations_of_le (fits : left.length ≤ roomAt offset) (now : Nat → Nat) (isBegin : Bool) :
    operations now offset isBegin left = (nextFragment (now 0) offset isBegin left).operations := by
  rw [operations, fragments, dif_neg (Nat.not_lt.mpr fits), flatMap_singleton]

namespace ProduceState

variable {state : ProduceState}

section

variable (placed : BlockAt state.blockOffset offset)
include placed

theorem paddings_eq :
    state.paddings = if 0 < padAt offset then 1 else 0 := by
  obtain ⟨inBlock, sameMod⟩ := placed
  have place := padAt_roomAt_cases offset
  simp only [kBlockSize] at inBlock sameMod
  apply if_congr _ rfl rfl
  simp only [kBlockSize, kHeaderSize]
  omega

theorem length_operations_nextFragment (now : Nat) (isBegin : Bool) (left : Bytes) :
    (nextFragment now offset isBegin left).operations.length = state.paddings + 3 := by
  rw [paddings_eq placed]
  by_cases padded : 0 < padAt offset <;>
    simp [Fragment.operations, Fragment.appends, nextFragment, padded]

theorem flatten_emitFragmentFailing
    (now : Nat) (padded : state.paddings ≤ made) (failing : made < state.paddings + 3) :
    (state.closeBlock.emitFragmentFailing now (made - state.paddings)).appends.flatten =
      state.appends.flatten ++ ((nextFragment now offset state.isBegin
          state.left).operations.take made).flatten := by
  rw [paddings_eq placed] at padded failing ⊢
  rw [emitFragmentFailing, closeBlock_eq state placed, emitFragment_eq now _ rfl]
  simp only [Fragment.operations, Fragment.appends, nextFragment]
  by_cases pad : 0 < padAt offset
  · simp only [pad, if_true] at padded failing ⊢
    obtain ⟨more, rfl⟩ := Nat.exists_eq_add_of_le' padded
    have cases : more = 0 ∨ more = 1 ∨ more = 2 := by omega
    rcases cases with rfl | rfl | rfl <;> simp
  · simp only [pad, if_false] at padded failing ⊢
    have cases : made = 0 ∨ made = 1 ∨ made = 2 := by omega
    rcases cases with rfl | rfl | rfl <;> simp

theorem emitFragmentFailing_blockOffset_le (now made : Nat) :
    (state.closeBlock.emitFragmentFailing now made).blockOffset ≤ kBlockSize := by
  rw [emitFragmentFailing, closeBlock_eq state placed, emitFragment_eq now _ rfl]
  exact (BlockAt.of_record (length_take_le _ _)).le

end

end ProduceState

theorem produceLoopFailing_of_lt {state : ProduceState}
    (placed : BlockAt state.blockOffset offset) (now : Nat → Nat) {made : Nat}
    (failing : made < state.paddings + 3) (rest : List Bytes) :
    ∃ failed, produceLoopFailing now made state = some failed ∧
        failed.appends.flatten = state.appends.flatten ++
          (((nextFragment (now 0) offset state.isBegin
            state.left).operations ++ rest).take made).flatten ∧
        failed.blockOffset ≤ kBlockSize := by
  have lengthEq := ProduceState.length_operations_nextFragment placed
    (now 0) state.isBegin state.left
  rw [produceLoopFailing, take_append_of_le_length (by omega)]
  by_cases early : made < state.paddings
  · have first : made = 0 := by
      rw [ProduceState.paddings_eq placed] at early
      split_ifs at early <;> omega
    rw [if_pos early]
    refine ⟨state, rfl, ?_, placed.le⟩
    simp [first]
  · rw [if_neg early, if_pos failing]
    exact ⟨_, rfl, ProduceState.flatten_emitFragmentFailing placed (now 0)
        (Nat.le_of_not_lt early) failing,
      ProduceState.emitFragmentFailing_blockOffset_le placed _ _⟩

/-- Where the loop of `Produce` fails, it does so at an operation of the
layout, having appended what the operations before it append. -/
theorem produceLoopFailing_spec (now : Nat → Nat) (offset : Nat)
    (isBegin : Bool) (left : Bytes) (made : Nat) (state failed : ProduceState)
    (placed : BlockAt state.blockOffset offset)
    (sameBegin : state.isBegin = isBegin) (sameLeft : state.left = left)
    (returned : produceLoopFailing now made state = some failed) :
    made < (operations now offset isBegin left).length ∧
      failed.appends.flatten = state.appends.flatten ++
        ((operations now offset isBegin left).take made).flatten ∧
      failed.blockOffset ≤ kBlockSize := by
  -- As for the loop without failures, the layout's own recursion carries the
  -- state along.
  fun_induction fragments now offset isBegin left generalizing state made with
  | case1 now offset isBegin left longer ih =>
    subst sameBegin sameLeft
    have step := ProduceState.produceStep_eq (now 0) state placed
    have lengthEq := ProduceState.length_operations_nextFragment placed
      (now 0) state.isBegin state.left
    rw [operations_of_lt longer]
    by_cases here : made < state.paddings + 3
    · obtain ⟨first, loopEq, stops⟩ := produceLoopFailing_of_lt placed now here _
      cases loopEq.symm.trans returned
      exact ⟨by rw [length_append]; omega, stops⟩
    · have taken : (state.left.take (roomAt offset)).length = roomAt offset := by simp [longer.le]
      have unfinished : (state.produceStep (now 0)).left ≠ [] := by
        rw [step]
        simpa using longer
      rw [produceLoopFailing, if_neg (by omega), if_neg here, if_neg unfinished] at returned
      obtain ⟨failing, appendsEq, inBlock⟩ :=
        ih (made - (state.paddings + 3)) (state.produceStep (now 0)) (by
            rw [step, taken]
            exact BlockAt.of_record le_rfl)
          (by rw [step]) (by rw [step]) returned
      refine ⟨by rw [length_append]; omega, ?_, inBlock⟩
      have whole : (nextFragment (now 0) offset state.isBegin state.left).operations.take made =
          (nextFragment (now 0) offset state.isBegin state.left).appends ++ [[]] :=
        take_of_length_le (by omega)
      rw [appendsEq, take_append, lengthEq, whole, step]
      simp
  | case2 now offset isBegin left fits =>
    subst sameBegin sameLeft
    have fits := Nat.le_of_not_lt fits
    have lengthEq := ProduceState.length_operations_nextFragment placed
      (now 0) state.isBegin state.left
    have finished : (state.produceStep (now 0)).left = [] := by
      rw [ProduceState.produceStep_eq (now 0) state placed]
      simpa using fits
    have failing : made < state.paddings + 3 := by
      by_contra enough
      rw [produceLoopFailing, if_neg (by omega), if_neg enough, if_pos finished] at returned
      cases returned
    obtain ⟨first, loopEq, stops⟩ := produceLoopFailing_of_lt placed now failing []
    cases loopEq.symm.trans returned
    rw [append_nil] at stops
    rw [operations_of_le fits, lengthEq]
    exact ⟨failing, stops⟩

/-! ## What a failed Put leaves -/

/-- The bytes that the operations of an item append before one fails. -/
def leftBehind (now : Nat → Nat) (offset : Nat) (item : Bytes) (made : Nat) : Bytes :=
  ((operations now offset true item).take made).flatten

variable {log failed : Binlog}

/-- A failed `Put` appends what its operations appended before the failure,
moves the block offset, and changes nothing else behind the roll. -/
theorem Aligned.putFailing_spec (aligned : log.Aligned)
    (returned : log.putFailing now made item = some failed) :
    made < (operations now log.checkRoll.version.proOffset true item).length ∧
      failed.blockOffset ≤ kBlockSize ∧
      failed =
        { log.checkRoll.appendQueue
            (leftBehind now log.checkRoll.version.proOffset item made) with
          blockOffset := failed.blockOffset } := by
  have rolled := aligned.checkRoll
  obtain ⟨state, loopEq, rfl⟩ := Option.map_eq_some_iff.mp returned
  obtain ⟨failing, appendsEq, inBlock⟩ :=
    produceLoopFailing_spec now log.checkRoll.version.proOffset true item made
      _ state rolled.blockAt rfl rfl loopEq
  refine ⟨failing, inBlock, ?_⟩
  rw [foldl_appendQueue_of_present rolled.fileExists, appendsEq,
    flatten_nil, nil_append, leftBehind]

/-- When the first operation fails, nothing is appended; the block offset stays
only if the operation was the padding. -/
theorem Aligned.putFailing_zero (aligned : log.Aligned)
    (returned : log.putFailing now 0 item = some failed) :
    failed =
      { log.checkRoll with
        blockOffset :=
          if 0 < padAt log.checkRoll.version.proOffset then log.checkRoll.blockOffset
          else
            log.checkRoll.version.proOffset % kBlockSize + (kHeaderSize +
              (item.take (roomAt log.checkRoll.version.proOffset)).length) }
    := by
  have placed := aligned.checkRoll.blockAt
  rw [putFailing, produceLoopFailing, ProduceState.paddings_eq (by exact placed)] at returned
  by_cases padded : 0 < padAt log.checkRoll.version.proOffset
  · simp only [padded, if_true, Nat.zero_lt_one, Option.map_some,
      foldl_nil, Option.some.injEq] at returned ⊢
    exact returned.symm
  · have pad := Nat.eq_zero_of_not_pos padded
    simp only [padded, if_false, Nat.lt_irrefl, Nat.zero_add,
      Nat.zero_lt_succ, if_true, ProduceState.emitFragmentFailing,
      Nat.sub_self, take_zero, append_nil, Option.map_some,
      Option.some.injEq] at returned ⊢
    rw [ProduceState.closeBlock_eq _ (by exact placed),
      ProduceState.emitFragment_eq _ _ rfl] at returned
    simp only [pad, Nat.lt_irrefl, if_false, append_nil, foldl_nil,
      Nat.add_zero] at returned
    exact returned.symm

end Pika.Binlog
