import Pika.Binlog.Layout
import Pika.Binlog.Writer

/-!
# The writer follows the layout

`Produce` keeps its own position in the current block.  Started where that
position agrees with the size of the file, its loop appends exactly the
fragments of the layout and moves the producer offset by their size.
-/

namespace Pika.Binlog

open Foundation
namespace ProduceState

/-- Closing a block appends the padding of the layout. -/
theorem closeBlock_eq (state : ProduceState) (placed : BlockAt state.blockOffset offset) :
    state.closeBlock =
      { state with
        appends := state.appends ++
          if 0 < padAt offset then [List.replicate (padAt offset) 0] else []
        blockOffset := (offset + padAt offset) % kBlockSize
        tempProOffset :=
          if 0 < padAt offset then castInt32 (state.tempProOffset + padAt offset)
          else state.tempProOffset } := by
  obtain ⟨inBlock, sameMod⟩ := placed
  have place := padAt_roomAt_cases offset
  simp only [kBlockSize] at inBlock sameMod
  by_cases tail : kBlockSize - state.blockOffset < kHeaderSize
  · by_cases padded : 0 < kBlockSize - state.blockOffset
    · have pad : padAt offset = kBlockSize - state.blockOffset := by
        simp only [kBlockSize, kHeaderSize] at tail padded ⊢
        omega
      have start : (offset + padAt offset) % kBlockSize = 0 := by
        simp only [kBlockSize] at pad ⊢
        omega
      rw [pad] at start ⊢
      simp [closeBlock, tail, padded, start]
    · have pad : padAt offset = 0 := by
        simp only [kBlockSize, kHeaderSize] at tail padded ⊢
        omega
      have start : offset % kBlockSize = 0 := by
        simp only [kBlockSize] at padded ⊢
        omega
      simp [closeBlock, tail, padded, pad, start]
  · have pad : padAt offset = 0 := by
      simp only [kBlockSize, kHeaderSize] at tail ⊢
      omega
    have start : offset % kBlockSize = state.blockOffset := by
      simp only [kBlockSize, kHeaderSize] at tail ⊢
      omega
    simp [closeBlock, tail, pad, start]

theorem emitFragment_eq (now : Nat) (state : ProduceState) (placed :
      state.blockOffset = (offset + padAt offset) % kBlockSize) :
    state.emitFragment now =
      { appends := state.appends ++ [header (nextFragment now offset state.isBegin state.left).type
              (state.left.take (roomAt offset)).length now, state.left.take (roomAt offset)]
        blockOffset := state.blockOffset + (kHeaderSize + (state.left.take (roomAt offset)).length)
        tempProOffset := castInt32 (state.tempProOffset +
          (kHeaderSize + (state.left.take (roomAt offset)).length : Nat))
        left := state.left.drop (roomAt offset)
        isBegin := false } := by
  have avail : kBlockSize - state.blockOffset - kHeaderSize = roomAt offset := by
    rw [placed, roomAt]
  by_cases fits : state.left.length < roomAt offset
  · simp [emitFragment, emitPhysicalRecord, avail, nextFragment, fits,
      fits.le, List.take_of_length_le, List.drop_of_length_le]
  · have whole : state.left.length = roomAt offset ↔ state.left.length ≤ roomAt offset := by omega
    simp [emitFragment, emitPhysicalRecord, avail, nextFragment, fits, whole]

theorem produceStep_eq (now : Nat) (state : ProduceState)
    (placed : BlockAt state.blockOffset offset) :
    state.produceStep now =
      { appends := state.appends ++ (nextFragment now offset state.isBegin state.left).appends
        blockOffset := (offset + padAt offset) % kBlockSize +
          (kHeaderSize + (state.left.take (roomAt offset)).length)
        tempProOffset := castInt32 (state.tempProOffset +
          (nextFragment now offset state.isBegin state.left).size)
        left := state.left.drop (roomAt offset)
        isBegin := false } := by
  rw [produceStep, closeBlock_eq state placed, emitFragment_eq now _ rfl]
  by_cases padded : 0 < padAt offset
  · simp [padded, Fragment.appends, Fragment.size, nextFragment, add_assoc]
  · have pad : padAt offset = 0 := Nat.eq_zero_of_not_pos padded
    simp [pad, Fragment.appends, Fragment.size, nextFragment]

end ProduceState

/-- The loop of `Produce` appends the fragments of the layout and adds their
size to the producer offset. -/
theorem produceLoop_spec (now : Nat → Nat) (offset : Nat) (isBegin : Bool)
    (left : Bytes) (state : ProduceState) (placed : BlockAt state.blockOffset offset)
    (sameBegin : state.isBegin = isBegin) (sameLeft : state.left = left) :
    (produceLoop now state).appends = state.appends ++
        (fragments now offset isBegin left).flatMap Fragment.appends ∧
      BlockAt (produceLoop now state).blockOffset (recordEnd offset left.length) ∧
      (produceLoop now state).tempProOffset = castInt32 (state.tempProOffset +
        (recordEnd offset left.length - offset : Nat)) := by
  -- The loop and the layout recurse on the same cuts, so the layout's own
  -- induction carries the state along.
  fun_induction fragments now offset isBegin left generalizing state with
  | case1 now offset isBegin left longer ih =>
    subst sameBegin sameLeft
    have step := ProduceState.produceStep_eq (now 0) state placed
    have taken : (state.left.take (roomAt offset)).length = roomAt offset := by simp [longer.le]
    have unfinished : (state.produceStep (now 0)).left ≠ [] := by
      rw [step]
      simpa using longer
    obtain ⟨appendsEq, blockAt, offsetEq⟩ := ih (state.produceStep (now 0)) (by
          rw [step, taken]
          exact BlockAt.of_record le_rfl)
        (by rw [step]) (by rw [step])
    rw [List.length_drop, ← recordEnd_of_lt longer] at blockAt offsetEq
    rw [produceLoop, if_neg unfinished]
    refine ⟨?_, blockAt, ?_⟩
    · rw [appendsEq, step]
      simp
    · have grows := add_length_lt_recordEnd
        (offset + (padAt offset + (kHeaderSize + roomAt offset)))
        (state.left.length - roomAt offset)
      rw [← recordEnd_of_lt longer] at grows
      rw [offsetEq, step]
      simp only [castInt32_castInt32_add, Fragment.size, nextFragment, taken]
      congr 1
      omega
  | case2 now offset isBegin left fits =>
    subst sameBegin sameLeft
    have fits := Nat.le_of_not_lt fits
    have step := ProduceState.produceStep_eq (now 0) state placed
    have finished : (state.produceStep (now 0)).left = [] := by
      rw [step]
      simpa using fits
    rw [produceLoop, if_pos finished, step, recordEnd_of_le fits]
    refine ⟨by simp, ?_, ?_⟩
    · simpa [List.take_of_length_le fits] using BlockAt.of_record fits
    · simp [Fragment.size, nextFragment, List.take_of_length_le fits]

end Pika.Binlog
