import Mathlib.Data.List.Basic

/-!
# Reading a sequence page by page

A paged reader answers a cursor and a count with a page and the next cursor, of
which zero means that there is nothing left.  Whatever counts are used, the
pages that are read by following the cursors from zero make up the sequence.
-/

namespace Pika.Foundation

variable {α : Type}

/-- A reader pages through a sequence: what is left behind each cursor that it
hands out, and how much work that is. -/
structure Pages (scan : Int → Int → Int × List α) (sequence : List α) where
  /-- The cursors that are handed out. -/
  issued : Int → Prop
  /-- What is left at a cursor. -/
  rest : Int → List α
  /-- A number that falls with every call. -/
  work : Int → Nat
  issued_zero : issued 0
  rest_zero : rest 0 = sequence
  issued_next : ∀ {cursor count}, issued cursor → 0 < count → issued (scan cursor count).1
  page : ∀ {cursor count}, issued cursor → 0 < count → (scan cursor count).2 ++
        (if (scan cursor count).1 = 0 then []
        else rest (scan cursor count).1) = rest cursor
  work_next : ∀ {cursor count}, issued cursor → 0 < count →
    (scan cursor count).1 ≠ 0 → work (scan cursor count).1 < work cursor

/-- Calls in a row: from a cursor they read elements and end at a cursor. -/
inductive Reads (scan : Int → Int → Int × List α) : Int → List α → Int → Prop
  | call {cursor count : Int} (positive : 0 < count) :
      Reads scan cursor (scan cursor count).2 (scan cursor count).1
  | more {cursor next last count : Int} {elements : List α} (positive : 0 < count)
      (unfinished : (scan cursor count).1 ≠ 0)
      (continued : (scan cursor count).1 = next)
      (behind : Reads scan next elements last) :
      Reads scan cursor ((scan cursor count).2 ++ elements) last

namespace Pages

variable {scan : Int → Int → Int × List α} {sequence elements : List α}
variable {cursor next : Int}

/-- What is left behind a call that returned a cursor. -/
def after (pages : Pages scan sequence) (cursor : Int) : List α :=
  if cursor = 0 then [] else pages.rest cursor

section

variable (pages : Pages scan sequence)
include pages

@[simp] theorem after_zero : pages.after 0 = [] := if_pos rfl

theorem after_of_ne (unfinished : cursor ≠ 0) :
    pages.after cursor = pages.rest cursor := if_neg unfinished

theorem issued_of_reads (reads : Reads scan cursor elements next) (issued : pages.issued cursor) :
    pages.issued next := by
  induction reads with
  | call positive => exact pages.issued_next issued positive
  | more positive _ continued _ ih =>
    apply ih
    rw [← continued]
    exact pages.issued_next issued positive

theorem append_after_of_reads
    (reads : Reads scan cursor elements next) (issued : pages.issued cursor) :
    elements ++ pages.after next = pages.rest cursor := by
  induction reads with
  | call positive => exact pages.page issued positive
  | more positive unfinished continued _ ih =>
    subst continued
    have later := ih (pages.issued_next issued positive)
    have first := pages.page issued positive
    rw [if_neg unfinished] at first
    rw [List.append_assoc, later, first]

/-- Every page leaves less to read. -/
theorem work_lt_of_reads (reads : Reads scan cursor elements next) (issued : pages.issued cursor)
    (unfinished : next ≠ 0) :
    pages.work next < pages.work cursor := by
  induction reads with
  | call positive => exact pages.work_next issued positive unfinished
  | more positive notYet continued _ ih =>
    subst continued
    have later := ih (pages.issued_next issued positive) unfinished
    exact Nat.lt_trans later (pages.work_next issued positive notYet)

end

end Pages

/-! ## A list behind its indices -/

/-- The elements of a list from an index on, which is the cursor. -/
def listScan (elements : List α) (cursor count : Int) : Int × List α :=
  (if cursor.toNat + count.toNat < elements.length then (cursor.toNat + count.toNat : Nat)
    else 0, (elements.drop cursor.toNat).take count.toNat)

/-- The indices of a list page through it. -/
def listPages (elements : List α) : Pages (listScan elements) elements where
  issued cursor := 0 ≤ cursor ∧ cursor ≤ elements.length
  rest cursor := elements.drop cursor.toNat
  work cursor := elements.length - cursor.toNat
  issued_zero := ⟨Int.le_refl 0, Int.natCast_nonneg _⟩
  rest_zero := rfl
  issued_next := by
    intro cursor count issued positive
    unfold listScan
    split_ifs <;> omega
  page := by
    intro cursor count issued positive
    unfold listScan
    by_cases inside : cursor.toNat + count.toNat < elements.length
    · have someLeft : ((cursor.toNat + count.toNat : Nat) : Int) ≠ 0 := by omega
      simp only [if_pos inside, if_neg someLeft, Int.toNat_natCast]
      rw [← List.drop_drop, List.take_append_drop]
    · simp only [if_neg inside, if_true, List.append_nil]
      apply List.take_of_length_le
      rw [List.length_drop]
      omega
  work_next := by
    intro cursor count issued positive unfinished
    unfold listScan at unfinished ⊢
    by_cases inside : cursor.toNat + count.toNat < elements.length
    · simp only [if_pos inside, Int.toNat_natCast]
      omega
    · simp only [if_neg inside, ne_eq, not_true_eq_false] at unfinished

end Pika.Foundation
