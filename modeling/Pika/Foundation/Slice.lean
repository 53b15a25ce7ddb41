import Mathlib.Data.Int.Cast.Lemmas
import Mathlib.Tactic.SplitIfs
import Pika.Foundation.MachineInt

/-!
# Slices of a vector

A slice leaves out a number of items and keeps at most a number of those that
follow.  A loop that reads a vector at consecutive indices, upwards or
downwards, is a fold over a slice of it, as long as it stays inside; outside
the vector it has no outcome, and neither has a sum that does not fit a signed
64-bit integer, or a read through a pointer and a length that leave the vector.
-/

namespace Pika.Foundation

open List hiding count

/-- A value that a signed 64-bit operation gives, where it does not overflow. -/
def fitsInt64 (value : Int) : Option Int :=
  if -2 ^ 63 ≤ value ∧ value < 2 ^ 63 then some value else none

theorem fitsInt64_eq_some (lower : -2 ^ 63 ≤ value) (upper : value < 2 ^ 63) :
    fitsInt64 value = some value :=
  if_pos ⟨lower, upper⟩

theorem fitsInt64_eq_none (above : 2 ^ 63 ≤ value) : fitsInt64 value = none := by
  apply if_neg
  omega

/-- A value that a signed 32-bit integer holds. -/
def fitsInt32 (value : Int) : Option Int :=
  if -2 ^ 31 ≤ value ∧ value < 2 ^ 31 then some value else none

theorem fitsInt32_eq_some (lower : -2 ^ 31 ≤ value) (upper : value < 2 ^ 31) :
    fitsInt32 value = some value :=
  if_pos ⟨lower, upper⟩

theorem fitsInt32_eq_none (above : 2 ^ 31 ≤ value) : fitsInt32 value = none := by
  apply if_neg
  omega

/-- A vector whose elements take at least eight bytes each. -/
structure StdVector (α : Type) where
  items : List α
  /-- A vector has less than `2 ^ 63` bytes. -/
  bounded : 8 * items.length < 2 ^ 63

/-- The elements that pass a test. -/
def StdVector.filter (keep : α → Bool) (vector : StdVector α) : StdVector α where
  items := vector.items.filter keep
  bounded := by
    have bounded := vector.bounded
    have kept := length_filter_le keep vector.items
    omega

/-- The elements in the reversed order. -/
def StdVector.reverse (vector : StdVector α) : StdVector α where
  items := vector.items.reverse
  bounded := by
    rw [length_reverse]
    exact vector.bounded

/-! ## Slices -/

/-- The items behind an offset, at most as many as a count.  A negative count
means all of them, and a negative offset means none. -/
def slice (offset count : Int) (items : List α) : List α :=
  if offset < 0 then []
  else if count < 0 then items.drop offset.toNat
  else (items.drop offset.toNat).take count.toNat

/-- Where a slice of a list of some size begins. -/
def sliceStart (offset : Int) (size : Nat) : Int :=
  if 0 ≤ offset ∧ offset < size then offset else size

/-- How long a slice of a list of some size is. -/
def sliceLength (offset count : Int) (size : Nat) : Int :=
  if count < 0 then size - sliceStart offset size
  else min count (size - sliceStart offset size)

theorem sliceStart_mem_range (offset : Int) (size : Nat) :
    0 ≤ sliceStart offset size ∧ sliceStart offset size ≤ size := by
  unfold sliceStart
  split_ifs <;> omega

theorem sliceLength_mem_range (offset count : Int) (size : Nat) :
    0 ≤ sliceLength offset count size ∧
      sliceStart offset size + sliceLength offset count size ≤ size := by
  have start := sliceStart_mem_range offset size
  unfold sliceLength
  split_ifs <;> omega

/-- A slice is a part of the items. -/
theorem slice_eq_take_drop (offset count : Int) (items : List α) :
    slice offset count items = (items.drop (sliceStart offset items.length).toNat).take
        (sliceLength offset count items.length).toNat := by
  unfold slice sliceLength sliceStart
  by_cases inside : 0 ≤ offset ∧ offset < items.length
  · rw [if_neg (by omega), if_pos inside]
    split_ifs
    · rw [take_of_length_le]
      rw [length_drop]
      omega
    · apply take_eq_take_iff.mpr
      rw [length_drop]
      omega
  · -- An offset that is negative or too large leaves nothing.
    have nothing : items.drop (items.length : Int).toNat = [] := by simp
    rw [if_neg inside, nothing, take_nil]
    split_ifs
    · rfl
    · rw [drop_eq_nil_iff]
      omega
    · rw [drop_eq_nil_of_le (by omega), take_nil]

/-- A slice has the length computed. -/
theorem length_slice (offset count : Int) (items : List α) :
    ((slice offset count items).length : Int) = sliceLength offset count items.length := by
  have start := sliceStart_mem_range offset items.length
  have length := sliceLength_mem_range offset count items.length
  rw [slice_eq_take_drop, length_take, length_drop]
  omega

theorem getElem?_slice {round : Nat} (inside : round < (slice offset count items).length) :
    (slice offset count items)[round]? =
      items[(sliceStart offset items.length).toNat + round]? := by
  have length := length_slice offset count items
  rw [slice_eq_take_drop, List.getElem?_take_of_lt (by omega), List.getElem?_drop]

theorem slice_map (f : α → β) (offset count : Int) (items : List α) :
    slice offset count (items.map f) = (slice offset count items).map f := by
  unfold slice
  split_ifs <;> simp

/-- The offset 0 and the count -1 stand for all items. -/
@[simp] theorem slice_all (items : List α) : slice 0 (-1) items = items := by
  simp [slice]

/-! ## Loops -/

/-- `operator[]`, which has no outcome outside the items. -/
def itemAt (items : List α) (index : Int) : Option α :=
  if 0 ≤ index then items[index.toNat]? else none

theorem itemAt_natCast (items : List α) (index : Nat) : itemAt items index = items[index]? := by
  rw [itemAt, if_pos (Int.natCast_nonneg index), Int.toNat_natCast]

/-- A loop that reads the items at an index and a number of rounds after it. -/
def loopAt (items : List α) (step : Int) (body : σ → α → σ) : Nat → Int → σ → Option σ
  | 0, _, state => some state
  | rounds + 1, index, state =>
    (itemAt items index).bind fun item =>
      loopAt items step body rounds (index + step) (body state item)

/-- A loop that finds the items of another list folds over that list. -/
theorem loopAt_eq_foldl {items others : List α} (reads : ∀ round : Nat, round < others.length →
      itemAt items (index + step * round) = others[round]?) :
    loopAt items step body others.length index state = some (others.foldl body state) := by
  induction others generalizing index state with
  | nil => rfl
  | cons other others ih =>
    have first : itemAt items index = some other := by
      have here := reads 0 (Nat.succ_pos _)
      rw [Nat.cast_zero, mul_zero, add_zero] at here
      exact here
    rw [length_cons, loopAt, first, Option.bind_some, foldl_cons]
    apply ih
    intro round inside
    have later := reads (round + 1) (Nat.succ_lt_succ inside)
    rw [Nat.cast_succ, mul_add, mul_one, add_comm (step * round), ← add_assoc] at later
    exact later

/-- A loop upwards from the start of a slice folds over the slice. -/
theorem loopAt_slice (items : List α) (offset count : Int) (body : σ → α → σ) (state : σ) :
    loopAt items 1 body (sliceLength offset count items.length).toNat
        (sliceStart offset items.length) state =
      some ((slice offset count items).foldl body state) := by
  have start := sliceStart_mem_range offset items.length
  rw [← length_slice, Int.toNat_natCast]
  apply loopAt_eq_foldl
  intro round inside
  rw [getElem?_slice inside, itemAt, if_pos (by omega)]
  congr 1
  omega

/-- A loop downwards folds over a slice of the reversed list. -/
theorem loopAt_slice_reverse (items : List α) (offset count : Int) (body : σ → α → σ) (state : σ) :
    loopAt items (-1) body (sliceLength offset count items.length).toNat
        (items.length - 1 - sliceStart offset items.length) state =
      some ((slice offset count items.reverse).foldl body state) := by
  have start := sliceStart_mem_range offset items.length
  have length := length_slice offset count items.reverse
  have bounds := sliceLength_mem_range offset count items.length
  rw [length_reverse] at length
  rw [← length, Int.toNat_natCast]
  apply loopAt_eq_foldl
  intro round inside
  rw [getElem?_slice inside, length_reverse, itemAt, if_pos (by omega),
    List.getElem?_reverse (by omega)]
  congr 1
  omega

/-! ## Parts given by a pointer and a length -/

/-- A part of a buffer: where it starts, and how many elements it has. -/
structure Extent where
  /-- The pointer, as an index. -/
  start : Nat
  /-- The length, a `size_t`. -/
  length : Nat
  deriving DecidableEq, Repr

namespace Extent

/-- The part lies in the buffer. -/
def Inside (extent : Extent) (buffer : List α) : Prop :=
  extent.start + extent.length ≤ buffer.length

instance (extent : Extent) (buffer : List α) : Decidable (extent.Inside buffer) :=
  inferInstanceAs (Decidable (_ ≤ _))

/-- What is read through the pointer, as long as it is in the buffer. -/
def read (extent : Extent) (buffer : List α) : Option (List α) :=
  if extent.Inside buffer then some ((buffer.drop extent.start).take extent.length)
  else none

/-- `data() + count` and `size() - count`. -/
def behind (count : Nat) (buffer : List α) : Extent where
  start := count
  length := castUInt64 (buffer.length - count)

/-- A difference of sizes that wraps around points outside the buffer. -/
theorem inside_behind_iff (count : Nat) (buffer : List α) :
    (behind count buffer).Inside buffer ↔ count ≤ buffer.length := by
  simp only [Inside, behind, castUInt64]
  constructor <;> omega

end Extent

end Pika.Foundation
