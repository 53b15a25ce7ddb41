import Mathlib.Data.List.Perm.Basic
import Mathlib.Data.List.Nodup

/-!
# Reordered actions

Actions folded over a list in two orders lead to the same state when actions
that do not commute keep their order.
-/

namespace Pika.Foundation

open List

variable {Item State Key Value : Type*}

/-- One item stands somewhere before another one in a list. -/
def Precedes (items : List Item) (first second : Item) : Prop := [first, second].Sublist items

namespace Precedes

theorem left_mem (precedes : Precedes items first second) : first ∈ items :=
  precedes.subset mem_cons_self

theorem right_mem (precedes : Precedes items first second) : second ∈ items :=
  precedes.subset (mem_cons_of_mem _ mem_cons_self)

theorem append (precedes : Precedes items first second) (more : List Item) :
    Precedes (items ++ more) first second :=
  precedes.trans (sublist_append_left items more)

/-- A new last item stands behind all others. -/
theorem of_mem (member : first ∈ items) : Precedes (items ++ [second]) first second :=
  (singleton_sublist.mpr member).append (List.Sublist.refl [second])

theorem of_append (precedes : Precedes (items ++ [new]) first second) :
    Precedes items first second ∨ first ∈ items ∧ second = new := by
  obtain ⟨front, back, split, frontSub, backSub⟩ := sublist_append_iff.mp precedes
  rcases sublist_singleton.mp backSub with rfl | rfl
  · rw [append_nil] at split
    subst split
    exact .inl frontSub
  · rw [show [first, second] = [first] ++ [second] from rfl] at split
    obtain ⟨rfl, last⟩ := append_inj' split rfl
    exact .inr ⟨singleton_sublist.mp frontSub, singleton_inj.mp last⟩

theorem of_middle (precedes : Precedes (before ++ new :: behind) first second)
    (firstNe : first ≠ new) (secondNe : second ≠ new) :
    Precedes (before ++ behind) first second := by
  obtain ⟨front, back, split, frontSub, backSub⟩ := sublist_append_iff.mp precedes
  rw [Precedes, split]
  rcases sublist_cons_iff.mp backSub with inner | ⟨rest, rfl, _⟩
  · exact frontSub.append inner
  · have member : new ∈ [first, second] := by
      rw [split]
      exact mem_append_right _ mem_cons_self
    rcases mem_pair.mp member with same | same
    · exact absurd same.symm firstNe
    · exact absurd same.symm secondNe

/-- Without repetitions two items stand in one order only. -/
theorem asymm (nodup : items.Nodup) (precedes : Precedes items first second) :
    ¬ Precedes items second first := by
  intro reverse
  have distinct : first ≠ second := by
    have := precedes.nodup nodup
    simp_all
  induction items with
  | nil => cases precedes
  | cons item items ih =>
    obtain ⟨fresh, nodup⟩ := nodup_cons.mp nodup
    rcases sublist_cons_iff.mp precedes with inner | ⟨_, split, _⟩
    · rcases sublist_cons_iff.mp reverse with reverse | ⟨_, split, _⟩
      · exact ih nodup inner reverse
      · cases split
        exact fresh (right_mem inner)
    · cases split
      rcases sublist_cons_iff.mp reverse with reverse | ⟨_, split, _⟩
      · exact fresh (right_mem reverse)
      · cases split
        exact distinct rfl

end Precedes

variable {act : Item → State → State}

/-- Two actions lead to the same state in either order. -/
def Commutes (act : Item → State → State) (first second : Item) : Prop :=
  ∀ state, act second (act first state) = act first (act second state)

/-- An edit of a store reads and writes some of its keys only. -/
structure Local (keys : Key → Prop) (edit : (Key → Value) → Key → Value) : Prop where
  frame : ∀ store key, ¬ keys key → edit store key = store key
  reads : ∀ first second : Key → Value, (∀ key, keys key → first key = second key) →
      ∀ key, keys key → edit first key = edit second key

/-- Edits of disjoint keys commute. -/
theorem Local.commutes {act : Item → (Key → Value) → Key → Value}
    (keys : Item → Key → Prop) {first second : Item} (firstLocal : Local (keys first) (act first))
    (secondLocal : Local (keys second) (act second))
    (disjoint : ∀ key, keys first key → ¬ keys second key) :
    Commutes act first second := by
  intro store
  funext key
  by_cases inFirst : keys first key
  · rw [secondLocal.frame _ key (disjoint key inFirst)]
    refine firstLocal.reads _ _ ?_ key inFirst
    intro other inFirst
    exact (secondLocal.frame _ other (disjoint other inFirst)).symm
  · rw [firstLocal.frame _ key inFirst]
    by_cases inSecond : keys second key
    · refine secondLocal.reads _ _ ?_ key inSecond
      intro other inSecond
      exact firstLocal.frame _ other fun inFirst => disjoint other inFirst inSecond
    · rw [secondLocal.frame _ key inSecond, secondLocal.frame _ key inSecond,
        firstLocal.frame _ key inFirst]

/-- The state behind a list of items. -/
def perform (act : Item → State → State) (items : List Item) (state : State) : State :=
  items.foldl (fun state item => act item state) state

@[simp] theorem perform_nil (state : State) : perform act [] state = state := rfl

@[simp] theorem perform_cons (item : Item) (items : List Item) (state : State) :
    perform act (item :: items) state = perform act items (act item state) :=
  rfl

@[simp] theorem perform_append (first second : List Item) (state : State) :
    perform act (first ++ second) state = perform act second (perform act first state) :=
  foldl_append

/-- An action moves to the front of actions it commutes with. -/
theorem perform_move_front (commutes : ∀ other ∈ items, Commutes act other item) (state : State) :
    act item (perform act items state) = perform act items (act item state) := by
  induction items generalizing state with
  | nil => rfl
  | cons other items ih =>
    rw [perform_cons, perform_cons, ih fun later member =>
        commutes later (mem_cons_of_mem _ member), commutes other mem_cons_self]

/-- Lists that order the actions which do not commute alike perform alike. -/
theorem perform_eq_of_precedes (nodup : items.Nodup) (perm : items.Perm others)
    (keeps : ∀ first second, Precedes items first second →
        Commutes act second first ∨ Precedes others first second) (state : State) :
    perform act items state = perform act others state := by
  induction items generalizing others state with
  | nil => rw [nil_perm.mp perm]
  | cons item items ih =>
    have othersNodup := perm.nodup_iff.mp nodup
    obtain ⟨fresh, nodup⟩ := nodup_cons.mp nodup
    obtain ⟨before, behind, rfl⟩ := append_of_mem (perm.subset mem_cons_self)
    have rest : items.Perm (before ++ behind) := (perm.trans perm_middle).cons_inv
    have ahead : ∀ other ∈ before, Commutes act other item := by
      intro other member
      have inItems : other ∈ items := rest.mem_iff.mpr (mem_append_left _ member)
      have first : Precedes (item :: items) item other :=
        (singleton_sublist.mpr inItems).cons_cons item
      have second : Precedes (before ++ item :: behind) other item :=
        (singleton_sublist.mpr member).append (singleton_sublist.mpr mem_cons_self)
      exact (keeps item other first).resolve_right (Precedes.asymm othersNodup second)
    have kept : ∀ first second, Precedes items first second →
          Commutes act second first ∨ Precedes (before ++ behind) first second := by
      intro first second precedes
      refine (keeps first second (precedes.cons item)).imp_right ?_
      intro reordered
      apply reordered.of_middle
      · exact fun same => fresh (same ▸ precedes.left_mem)
      · exact fun same => fresh (same ▸ precedes.right_mem)
    rw [perform_cons, ih nodup rest kept, perform_append,
      perform_append, perform_cons, perform_move_front ahead]

end Pika.Foundation
