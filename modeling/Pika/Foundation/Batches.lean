import Mathlib.Algebra.BigOperators.Group.List.Basic
import Mathlib.Algebra.GroupWithZero.Nat
import Mathlib.Algebra.Order.BigOperators.Group.List
import Mathlib.Algebra.Order.Group.Nat
import Mathlib.Logic.Function.Iterate

/-!
# Batches cut from a queue

A batch takes items from the front of a queue, at most a given number of them,
and ends before the first item with which a test of the total size fails.  A
round cuts a number of batches.  The test is meant to keep a bound on the total
size, and may answer wrongly for sizes above the bound.
-/

namespace Pika.Foundation

open List

variable {Item : Type*}

/-- The total size of some items. -/
def totalSize (size : Item → Nat) (items : List Item) : Nat := (items.map size).sum

/-- The items of one batch, and the queue behind them. -/
def cutBatch (size : Item → Nat) (fits : Nat → Bool) :
    Nat → Nat → List Item → List Item × List Item
  | 0, _, queue => ([], queue)
  | _ + 1, _, [] => ([], [])
  | count + 1, total, item :: queue =>
    if fits (total + size item) then
      let cut := cutBatch size fits count (total + size item) queue
      (item :: cut.1, cut.2)
    else ([], item :: queue)

/-- The batches of one round that hold an item, and the queue behind them. -/
def cutBatches (size : Item → Nat) (fits : Nat → Bool) (limit : Nat) :
    Nat → List Item → List (List Item) × List Item
  | 0, queue => ([], queue)
  | count + 1, queue =>
    let batch := cutBatch size fits limit 0 queue
    let later := cutBatches size fits limit count batch.2
    (if batch.1.isEmpty then later.1 else batch.1 :: later.1, later.2)

/-- The test that keeps a bound. -/
def atMost (bound : Nat) (total : Nat) : Bool := total ≤ bound

variable {size : Item → Nat} {fits : Nat → Bool}
variable {limit count total bound : Nat} {item : Item} {queue : List Item}

@[simp] theorem totalSize_nil : totalSize size [] = 0 := rfl

theorem cutBatch_cons_of_fits (taken : fits (total + size item) = true) :
    cutBatch size fits (count + 1) total (item :: queue) =
      (item :: (cutBatch size fits count (total + size item) queue).1,
        (cutBatch size fits count (total + size item) queue).2) := by
  rw [cutBatch, if_pos taken]

theorem cutBatch_cons_of_not_fits (refused : fits (total + size item) = false) :
    cutBatch size fits count total (item :: queue) = ([], item :: queue) := by
  cases count with
  | zero => rfl
  | succ count => rw [cutBatch, if_neg (by simp [refused])]

/-! ## Order and number -/

/-- A batch and what is left of the items are the items. -/
theorem cutBatch_append (size : Item → Nat) (fits : Nat → Bool)
    (count total : Nat) (queue : List Item) :
    (cutBatch size fits count total queue).1 ++ (cutBatch size fits count total queue).2 =
      queue := by
  induction count generalizing total queue with
  | zero => rfl
  | succ count ih =>
    cases queue with
    | nil => rfl
    | cons item queue =>
      cases taken : fits (total + size item) with
      | true => rw [cutBatch_cons_of_fits taken, cons_append, ih]
      | false => rw [cutBatch_cons_of_not_fits taken, nil_append]

theorem cutBatch_length (total : Nat) (whole : queue.length ≤ count) :
    cutBatch size fits queue.length total queue = cutBatch size fits count total queue := by
  induction queue generalizing count total with
  | nil => cases count <;> rfl
  | cons item queue ih =>
    obtain ⟨count, rfl⟩ := Nat.exists_eq_succ_of_ne_zero (Nat.ne_zero_of_lt whole)
    cases taken : fits (total + size item) with
    | true =>
      rw [length_cons, cutBatch_cons_of_fits taken, cutBatch_cons_of_fits taken,
        ih _ (Nat.le_of_succ_le_succ whole)]
    | false => rw [cutBatch_cons_of_not_fits taken, cutBatch_cons_of_not_fits taken]

@[simp] theorem cutBatch_nil (count total : Nat) :
    cutBatch size fits count total [] = ([], []) := by
  cases count <;> rfl

@[simp] theorem cutBatches_nil (count : Nat) :
    cutBatches size fits limit count [] = ([], []) := by
  induction count with
  | zero => rfl
  | succ count ih => simp [cutBatches, ih]

/-- The batches and what is left are the items. -/
theorem cutBatches_append (size : Item → Nat) (fits : Nat → Bool)
    (limit count : Nat) (queue : List Item) :
    (cutBatches size fits limit count queue).1.flatten ++
        (cutBatches size fits limit count queue).2 = queue := by
  induction count generalizing queue with
  | zero => rfl
  | succ count ih =>
    have later := ih (cutBatch size fits limit 0 queue).2
    conv_rhs => rw [← cutBatch_append size fits limit 0 queue, ← later]
    rw [cutBatches]
    dsimp only
    split
    next empty => rw [List.isEmpty_iff.mp empty, nil_append]
    next filled => rw [flatten_cons, append_assoc]

/-- What is left of a queue after one round. -/
def afterRound (size : Item → Nat) (fits : Nat → Bool) (limit count : Nat)
    (queue : List Item) : List Item :=
  (cutBatches size fits limit count queue).2

/-- The test is right about the items of a queue on top of any batch that keeps
the bound. -/
def RightAbout (size : Item → Nat) (fits : Nat → Bool) (bound : Nat) (queue : List Item) : Prop :=
  ∀ item ∈ queue, ∀ total ≤ bound, fits (total + size item) = atMost bound (total + size item)

theorem RightAbout.suffix (right : RightAbout size fits bound queue) (suffix : later <:+ queue) :
    RightAbout size fits bound later :=
  fun item member => right item (suffix.mem member)

end Pika.Foundation
