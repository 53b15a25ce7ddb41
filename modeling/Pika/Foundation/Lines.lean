import Mathlib.Data.List.Basic

/-!
# Lines of a text

A text is read line by line, as `std::getline` does: the mark at the end of a
line is dropped, and the last line need not have one.  What is read of a text
that was cut off are the whole lines before the cut and the part of the line in
which it is.  A line may also end with a pair of letters; a text put between
others gets no such end from them.
-/

namespace Pika.Foundation

open List

variable {Letter : Type*} [DecidableEq Letter] {mark : Letter}

/-- The lines of a text behind the line begun. -/
def linesFrom (mark : Letter) (line : List Letter) : List Letter → List (List Letter)
  | [] => if line = [] then [] else [line]
  | letter :: text =>
    if letter = mark then line :: linesFrom mark [] text
    else linesFrom mark (line ++ [letter]) text

/-- The lines of a text. -/
def lines (mark : Letter) (text : List Letter) : List (List Letter) := linesFrom mark [] text

/-- Lines with a mark behind each. -/
def unlines (mark : Letter) (written : List (List Letter)) : List Letter :=
  written.flatMap fun line => line ++ [mark]

/-- The text through the end of a line, without its mark. -/
def through (mark : Letter) (written : List (List Letter)) (index : Nat) : List Letter :=
  unlines mark (written.take index) ++ written.getD index []

/-- A text of whole lines that was cut off: the lines before, the line with the
cut and the lines behind. -/
structure Cut (mark : Letter) (written : List (List Letter)) (text : List Letter) where
  before : List (List Letter)
  line : List Letter
  after : List (List Letter)
  /-- What is left of the line. -/
  part : List Letter
  written_eq : written = before ++ line :: after
  part_of : part <+: line
  text_eq : text = unlines mark before ++ part

/-- Letters before a mark go to the line in front. -/
theorem linesFrom_append (unmarked : mark ∉ first) (line rest : List Letter) :
    linesFrom mark line (first ++ rest) = linesFrom mark (line ++ first) rest := by
  induction first generalizing line with
  | nil => rw [nil_append, append_nil]
  | cons letter first ih =>
    rw [mem_cons, not_or] at unmarked
    obtain ⟨different, later⟩ := unmarked
    rw [cons_append, linesFrom, if_neg (Ne.symm different),
      ih later, append_assoc, singleton_append]

/-- A text without a mark is one line, or none. -/
theorem lines_of_unmarked (unmarked : mark ∉ text) :
    lines mark text = if text = [] then [] else [text] := by
  have read := linesFrom_append unmarked [] []
  rw [append_nil, nil_append] at read
  exact read

/-- Lines that were written are read back. -/
theorem lines_unlines_append (unmarked : ∀ line ∈ written, mark ∉ line) (text : List Letter) :
    lines mark (unlines mark written ++ text) = written ++ lines mark text := by
  induction written with
  | nil => rfl
  | cons line written ih =>
    obtain ⟨here, later⟩ := forall_mem_cons.mp unmarked
    rw [unlines, flatMap_cons, ← unlines, append_assoc,
      append_assoc, singleton_append, lines,
      linesFrom_append here, nil_append, linesFrom, if_pos rfl, ← lines,
      ih later, cons_append]

/-- Lines without a mark are read as they were written. -/
theorem lines_unlines (unmarked : ∀ line ∈ written, mark ∉ line) :
    lines mark (unlines mark written) = written := by
  have read := lines_unlines_append unmarked []
  rw [append_nil] at read
  rw [read]
  exact append_nil written

section

omit [DecidableEq Letter]

@[simp] theorem unlines_append (first second : List (List Letter)) :
    unlines mark (first ++ second) = unlines mark first ++ unlines mark second :=
  flatMap_append

theorem unlines_cons (line : List Letter) (written : List (List Letter)) :
    unlines mark (line :: written) = line ++ mark :: unlines mark written := by
  rw [unlines, flatMap_cons, ← unlines, append_assoc, singleton_append]

theorem through_append_mark (mark : Letter) (inside : index < written.length) :
    through mark written index ++ [mark] = unlines mark (written.take (index + 1)) := by
  have found : written.getD index [] = written[index] := by simp [inside]
  rw [through, take_succ_eq_append_getElem inside, unlines_append,
    unlines_cons, found, append_assoc]
  rfl

theorem through_prefix_unlines (inside : index < written.length) :
    through mark written index <+: unlines mark written := by
  have marked : through mark written index <+: unlines mark (written.take (index + 1)) := by
    rw [← through_append_mark mark inside]
    exact prefix_append _ _
  apply marked.trans
  conv_rhs => rw [← take_append_drop (index + 1) written]
  rw [unlines_append]
  exact prefix_append _ _

/-! ## Cuts -/

/-- Every proper beginning of a text of lines is a cut. -/
theorem exists_cut (beginning : text <+: unlines mark written)
    (proper : text ≠ unlines mark written) :
    Nonempty (Cut mark written text) := by
  induction written generalizing text with
  | nil => exact absurd (prefix_nil.mp beginning) proper
  | cons line written ih =>
    rw [unlines_cons] at beginning proper
    rcases prefix_or_prefix_of_prefix beginning
        (prefix_append line _) with short | ⟨rest, rfl⟩
    · exact ⟨{ before := [], line := line, after := written, part := text,
               written_eq := rfl, part_of := short, text_eq := rfl }⟩
    · rw [prefix_append_right_inj] at beginning
      cases rest with
      | nil =>
        exact ⟨{ before := [], line := line, after := written, part := line, written_eq := rfl,
                 part_of := prefix_rfl, text_eq := append_nil line }⟩
      | cons letter rest =>
        obtain ⟨rfl, later⟩ := cons_prefix_cons.mp beginning
        obtain ⟨cut⟩ := ih later fun same => proper (by rw [same])
        refine ⟨{ before := line :: cut.before, line := cut.line,
                  after := cut.after, part := cut.part, written_eq := ?_, part_of := cut.part_of,
                  text_eq := ?_ }⟩
        · exact congrArg (line :: ·) cut.written_eq
        · rw [unlines_cons, append_assoc, cons_append]
          exact congrArg (line ++ letter :: ·) cut.text_eq

end

namespace Cut

section

omit [DecidableEq Letter]

theorem mem_of_mem_before (cut : Cut mark written text) {line : List Letter}
    (member : line ∈ cut.before) :
    line ∈ written := by
  rw [cut.written_eq]
  exact mem_append_left _ member

theorem line_mem (cut : Cut mark written text) : cut.line ∈ written := by
  obtain ⟨before, line, after, part, rfl, -, -⟩ := cut
  exact mem_append_right _ mem_cons_self

theorem getElem?_before (cut : Cut mark written text) :
    written[cut.before.length]? = some cut.line := by
  obtain ⟨before, line, after, part, rfl, -, -⟩ := cut
  simp

theorem text_proper (cut : Cut mark written text) :
    text <+: unlines mark written ∧ text ≠ unlines mark written := by
  obtain ⟨before, line, after, part, rfl, partOf, rfl⟩ := cut
  rw [unlines_append, unlines_cons]
  constructor
  · rw [prefix_append_right_inj]
    exact partOf.trans (prefix_append _ _)
  · intro same
    have shorter := partOf.length_le
    have length := congrArg List.length same
    simp only [length_append, length_cons] at length
    omega

end

/-- The lines of a text that was cut off. -/
theorem lines_eq (cut : Cut mark written text) (unmarked : ∀ line ∈ written, mark ∉ line) :
    lines mark text = cut.before ++ if cut.part = [] then [] else [cut.part] := by
  have partUnmarked : mark ∉ cut.part := fun member =>
    unmarked cut.line cut.line_mem (cut.part_of.subset member)
  calc
    lines mark text = lines mark (unlines mark cut.before ++ cut.part) := by
      rw [← cut.text_eq]
    _ = cut.before ++ lines mark cut.part :=
      lines_unlines_append (fun line member => unmarked line (cut.mem_of_mem_before member)) _
    _ = _ := by rw [lines_of_unmarked partUnmarked]

omit [DecidableEq Letter] in
/-- The text goes through the lines before the cut, and through the one with the
cut if nothing but its mark is missing. -/
theorem through_prefix_iff (cut : Cut mark written text) (inside : index < written.length) :
    through mark written index <+: text ↔ index < cut.before.length ∨
        (index = cut.before.length ∧ cut.part = cut.line) := by
  obtain ⟨before, line, after, part, rfl, partOf, rfl⟩ := cut
  rcases Nat.lt_trichotomy index before.length with earlier | rfl | later
  · apply iff_of_true _ (.inl earlier)
    have same : through mark (before ++ line :: after) index = through mark before index := by
      simp [through, take_append_of_le_length (Nat.le_of_lt earlier),
        List.getElem?_append_left earlier]
    rw [same]
    exact (through_prefix_unlines earlier).trans (prefix_append _ _)
  · have reached : through mark (before ++ line :: after) before.length =
        unlines mark before ++ line := by
      simp [through]
    rw [reached, prefix_append_right_inj]
    constructor
    · intro whole
      exact .inr ⟨rfl, partOf.eq_of_length_le whole.length_le⟩
    · rintro (absurdity | ⟨-, whole⟩)
      · exact absurd absurdity (Nat.lt_irrefl _)
      · obtain rfl : part = line := whole
        exact prefix_rfl
  · apply iff_of_false
    · intro reached
      have longer := reached.length_le
      have partLength := partOf.length_le
      obtain ⟨more, rfl⟩ := Nat.exists_eq_add_of_lt later
      have taken : (before ++ line :: after).take (before.length + more + 1) =
          before ++ line :: after.take more := by
        rw [Nat.add_assoc, take_length_add_append, take_succ_cons]
      simp only [through, taken, unlines_append, unlines_cons,
        length_append, length_cons] at longer partLength
      omega
    · rintro (absurdity | ⟨absurdity, -⟩)
      · exact absurd absurdity (Nat.lt_asymm later)
      · exact absurd absurdity (Nat.ne_of_gt later)

/-- What is read in the place of a line: a whole one, the part that is left, or
nothing. -/
theorem getElem?_lines (cut : Cut mark written text)
    (unmarked : ∀ line ∈ written, mark ∉ line) (index : Nat) :
    (lines mark text)[index]? = if index < cut.before.length then written[index]?
      else if index = cut.before.length ∧ cut.part ≠ [] then some cut.part
      else none := by
  rw [cut.lines_eq unmarked]
  obtain ⟨before, line, after, part, rfl, -, rfl⟩ := cut
  rcases Nat.lt_trichotomy index before.length with earlier | rfl | later
  · rw [if_pos earlier, List.getElem?_append_left earlier, List.getElem?_append_left earlier]
  · by_cases empty : part = [] <;> simp [empty]
  · have ended : (before ++ if part = [] then [] else [part]).length ≤ index := by
      split_ifs <;> simp <;> omega
    rw [List.getElem?_eq_none ended, if_neg (Nat.lt_asymm later),
      if_neg fun here => Nat.ne_of_gt later here.1]

/-- A line that is not empty is read whole if the text goes through it, and
otherwise not at all or in part. -/
theorem read_cases (cut : Cut mark written text)
    (unmarked : ∀ line ∈ written, mark ∉ line) {index : Nat}
    {line : List Letter} (isLine : written[index]? = some line) (nonempty : line ≠ []) :
    (through mark written index <+: text ∧ (lines mark text)[index]? = some line) ∨
      (¬through mark written index <+: text ∧ ((lines mark text)[index]? = none ∨
          ∃ part, (lines mark text)[index]? = some part ∧ part ≠ [] ∧
            part <+: line ∧ part ≠ line)) := by
  have inside : index < written.length := (List.getElem?_eq_some_iff.mp isLine).1
  rw [cut.through_prefix_iff inside, cut.getElem?_lines unmarked]
  rcases Nat.lt_trichotomy index cut.before.length with earlier | same | later
  · left
    exact ⟨.inl earlier, by rw [if_pos earlier, isLine]⟩
  · have here : cut.line = line := by
      rw [same, cut.getElem?_before] at isLine
      exact Option.some.inj isLine
    rw [if_neg (by omega)]
    by_cases whole : cut.part = cut.line
    · left
      rw [whole, here, if_pos ⟨same, nonempty⟩]
      exact ⟨.inr ⟨same, rfl⟩, rfl⟩
    · right
      refine ⟨by simp [same, whole], ?_⟩
      by_cases empty : cut.part = []
      · exact .inl (if_neg fun both => both.2 empty)
      · exact .inr ⟨cut.part, if_pos ⟨same, empty⟩, empty, here ▸ cut.part_of, here ▸ whole⟩
  · right
    refine ⟨by omega, .inl ?_⟩
    rw [if_neg (by omega), if_neg (by omega)]

end Cut

/-! ## Ends of two letters -/

section Pairs

variable {Symbol : Type*}

theorem pair_infix_cons_iff (letter : Symbol) (text : List Symbol) :
    [first, second] <:+: letter :: text ↔
      (first = letter ∧ text.head? = some second) ∨ [first, second] <:+: text := by
  rw [infix_cons_iff, cons_prefix_cons]
  cases text with
  | nil => simp
  | cons next text => simp [cons_prefix_cons, eq_comm]

/-- A text behind letters that are not the first of the end has the ends it
had. -/
theorem pair_infix_append_left (unmarked : first ∉ before) (text : List Symbol) :
    [first, second] <:+: before ++ text ↔ [first, second] <:+: text := by
  induction before with
  | nil => rfl
  | cons letter before ih =>
    rw [mem_cons, not_or] at unmarked
    rw [cons_append, pair_infix_cons_iff, ih unmarked.2]
    apply or_iff_right
    exact fun same => unmarked.1 same.1

/-- A text in front of letters that are not the second of the end has the ends
it had. -/
theorem pair_infix_append_right (unmarked : second ∉ behind) (text : List Symbol) :
    [first, second] <:+: text ++ behind ↔ [first, second] <:+: text := by
  induction text with
  | nil =>
    have absent : ¬[first, second] <:+: behind := fun inside => unmarked (inside.subset (by simp))
    exact iff_of_false absent (by simp)
  | cons letter text ih =>
    rw [cons_append, pair_infix_cons_iff, pair_infix_cons_iff, ih]
    apply or_congr_left
    apply and_congr_right
    intro _
    cases text with
    | cons next text => rfl
    | nil =>
      apply iff_of_false _ (by simp)
      intro follows
      exact unmarked (mem_of_mem_head? follows)

end Pairs

end Pika.Foundation
