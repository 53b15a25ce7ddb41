import Mathlib.Data.List.TakeWhile

/-!
# Marked segments of a list

A search for the segment of a list between two marked elements, the parts it
cuts the list into, the prefix of a list that satisfies a predicate, and the
elements that a run over a list can reach.
-/

namespace Pika.Foundation

open List

variable {α : Type*} {isStart isStop : α → Bool} {segment : List α}

/-- The indices of the last start up to the first stop, and of that stop. -/
def locate (isStart isStop : α → Bool) : List α → Nat → Option Nat → Option (Nat × Nat)
  | [], _, _ => none
  | item :: items, index, found =>
    let found := if isStart item then some index else found
    if isStop item then found.map fun first => (first, index)
    else locate isStart isStop items (index + 1) found

/-- The search behind some elements returns a start and a stop of the whole
list, in this order. -/
theorem locate_spec (seen items : List α) (started : ∀ index ∈ found,
      index < seen.length ∧ ∃ item ∈ (seen ++ items)[index]?, isStart item)
    (located : locate isStart isStop items seen.length found = some (first, last)) :
    first ≤ last ∧ (∃ item ∈ (seen ++ items)[first]?, isStart item) ∧
      ∃ item ∈ (seen ++ items)[last]?, isStop item := by
  induction items generalizing seen found with
  | nil => simp [locate] at located
  | cons item items ih =>
    have here : (seen ++ item :: items)[seen.length]? = some item := by simp
    have startedHere : ∀ index ∈ (if isStart item then some seen.length
        else found), index ≤ seen.length ∧
          ∃ other ∈ (seen ++ item :: items)[index]?, isStart other := by
      intro index member
      split_ifs at member with starts
      · cases member
        exact ⟨le_rfl, item, here, starts⟩
      · exact ⟨(started index member).1.le, (started index member).2⟩
    simp only [locate] at located
    generalize (if isStart item then some seen.length else found) = latest at startedHere located
    split_ifs at located with stops
    · rw [Option.map_eq_some_iff] at located
      obtain ⟨index, member, pair⟩ := located
      obtain ⟨rfl, rfl⟩ := Prod.mk.inj pair
      exact ⟨(startedHere index member).1, (startedHere index member).2, item, here, stops⟩
    · have regroup : seen ++ item :: items = seen ++ [item] ++ items := by simp
      have length : seen.length + 1 = (seen ++ [item]).length := by simp
      rw [length] at located
      rw [regroup] at startedHere ⊢
      apply ih (seen ++ [item]) ?_ located
      intro index member
      exact ⟨length ▸ Nat.lt_succ_of_le (startedHere index member).1, (startedHere index member).2⟩

/-- What lies before, in and behind a segment that was found. -/
structure Segment (isStart isStop : α → Bool) (items before segment behind : List α) : Prop where
  split : items = before ++ (segment ++ behind)
  head : ∃ item ∈ segment.head?, isStart item
  last : ∃ item ∈ segment.getLast?, isStop item

/-- What is located is a segment. -/
theorem segment_of_locate (located : locate isStart isStop items 0 none = some (first, last)) :
    Segment isStart isStop items (items.take first)
      ((items.drop first).take (last + 1 - first)) (items.drop (last + 1)) := by
  obtain ⟨ordered, ⟨start, startAt, starts⟩, stop, stopAt, stops⟩ :=
    locate_spec [] items (by simp) located
  rw [nil_append, Option.mem_def] at startAt stopAt
  have behind : items.drop (last + 1) = (items.drop first).drop (last + 1 - first) := by
    rw [drop_drop]
    congr 1
    omega
  refine ⟨?_, ⟨start, ?_, starts⟩, stop, ?_, stops⟩
  · rw [behind, take_append_drop, take_append_drop]
  · rw [Option.mem_def, List.head?_take, if_neg (by omega), List.head?_drop]
    exact startAt
  · have bound : last < items.length := (List.getElem?_eq_some_iff.mp stopAt).1
    rw [Option.mem_def, List.getLast?_eq_getElem?, length_take,
      length_drop, List.getElem?_take_of_lt (by omega), List.getElem?_drop, ← stopAt]
    congr 1
    omega

namespace Segment

section

variable {items before behind : List α}
variable (found : Segment isStart isStop items before segment behind)
include found

/-- In an ordered list, what lies before a segment is below its start. -/
theorem before_related (ordered : items.Pairwise relation) (member : item ∈ before) :
    ∃ start, isStart start ∧ relation item start := by
  obtain ⟨start, atHead, starts⟩ := found.head
  rw [found.split, pairwise_append] at ordered
  refine ⟨start, starts, ordered.2.2 item member start ?_⟩
  exact mem_append_left _ (mem_of_mem_head? atHead)

/-- In an ordered list, what lies behind a segment is above its stop. -/
theorem behind_related (ordered : items.Pairwise relation) (member : item ∈ behind) :
    ∃ stop, isStop stop ∧ relation stop item := by
  obtain ⟨stop, atLast, stops⟩ := found.last
  rw [found.split, pairwise_append, pairwise_append] at ordered
  exact ⟨stop, stops, ordered.2.1.2.2 stop (mem_of_mem_getLast? atLast) item member⟩

theorem start_related (ordered : items.Pairwise relation) (member : item ∈ segment) :
    isStart item ∨ ∃ start, isStart start ∧ relation start item := by
  obtain ⟨start, atHead, starts⟩ := found.head
  obtain ⟨tail, rfl⟩ := List.head?_eq_some_iff.mp atHead
  rw [found.split, pairwise_append, pairwise_append] at ordered
  rcases mem_cons.mp member with rfl | later
  · exact .inl starts
  · exact .inr ⟨start, starts, rel_of_pairwise_cons ordered.2.1.1 later⟩

theorem stop_related (ordered : items.Pairwise relation) (member : item ∈ segment) :
    isStop item ∨ ∃ stop, isStop stop ∧ relation item stop := by
  obtain ⟨stop, atLast, stops⟩ := found.last
  obtain ⟨front, rfl⟩ := List.getLast?_eq_some_iff.mp atLast
  rw [found.split, pairwise_append, pairwise_append] at ordered
  rcases mem_append.mp member with earlier | last
  · exact .inr ⟨stop, stops, (pairwise_append.mp ordered.2.1.1).2.2
      item earlier stop (mem_singleton_self stop)⟩
  · cases mem_singleton.mp last
    exact .inl stops

end

end Segment

/-- A prefix that satisfies a predicate is the longest one if the next element
does not. -/
theorem takeWhile_append_of_head {front rest : List α} (all : ∀ item ∈ front, holds item = true)
    (next : ∀ item ∈ rest.head?, holds item = false) :
    (front ++ rest).takeWhile holds = front := by
  rw [takeWhile_append_of_pos all]
  cases rest with
  | nil => simp
  | cons item rest => rw [takeWhile_cons_of_neg (by simp [next item rfl]), append_nil]

/-- Behind elements that pass, a list has one that is found. -/
def Reaches (passes found : α → Prop) (items : List α) : Prop :=
  ∃ before item behind, items = before ++ item :: behind ∧
    (∀ earlier ∈ before, passes earlier) ∧ found item

/-- An empty list reaches nothing. -/
theorem not_reaches_nil (passes found : α → Prop) : ¬Reaches passes found [] := by
  rintro ⟨before, item, behind, split, -⟩
  exact append_ne_nil_of_right_ne_nil before (cons_ne_nil _ _)
    split.symm

/-- The first element is found, or it passes and the others reach one. -/
theorem reaches_cons (passes found : α → Prop) (item : α) (items : List α) :
    Reaches passes found (item :: items) ↔
      found item ∨ passes item ∧ Reaches passes found items := by
  constructor
  · rintro ⟨before, reached, behind, split, passed, isFound⟩
    cases before with
    | nil =>
      cases split
      exact .inl isFound
    | cons earlier before =>
      cases split
      rw [forall_mem_cons] at passed
      exact .inr ⟨passed.1, before, reached, behind, rfl, passed.2, isFound⟩
  · rintro (isFound | ⟨passed, before, reached, behind, rfl, others, isFound⟩)
    · exact ⟨[], item, items, rfl, forall_mem_nil _, isFound⟩
    · exact ⟨item :: before, reached, behind, rfl,
        forall_mem_cons.mpr ⟨passed, others⟩, isFound⟩

end Pika.Foundation
