import Mathlib.Data.Option.Basic

/-!
# Runs of labelled transition systems

A step function says which labelled steps are enabled in a state and where
they lead.  A run follows a list of labels; what holds initially and is kept by
every admissible step holds at the end of every admissible run.
-/

namespace Pika.Foundation

variable {State Label : Type*}

/-- Follow a list of labels, each of which must be enabled. -/
def run (step : State → Label → Option State) : State → List Label → Option State
  | state, [] => some state
  | state, label :: labels => (step state label).bind fun next => run step next labels

/-- Every step of a run is admissible in the state it starts from. -/
def RunAdmissible (step : State → Label → Option State) (admissible : State → Label → Prop) :
    State → List Label → Prop
  | _, [] => True
  | state, label :: labels =>
    admissible state label ∧ ∀ next, step state label = some next →
        RunAdmissible step admissible next labels

/-- Every state along a run is good. -/
def RunSatisfies (step : State → Label → Option State) (good : State → Prop) :
    State → List Label → Prop
  | state, [] => good state
  | state, label :: labels =>
    good state ∧ ∀ next, step state label = some next → RunSatisfies step good next labels

variable {step : State → Label → Option State}
variable {admissible : State → Label → Prop}
variable {invariant : State → Prop}

instance decidableRunAdmissible [∀ state label, Decidable (admissible state label)] :
    ∀ state labels, Decidable (RunAdmissible step admissible state labels)
  | _, [] => .isTrue trivial
  | state, label :: labels =>
    match stepped : step state label with
    | none => decidable_of_iff (admissible state label) (by simp [RunAdmissible, stepped])
    | some next =>
      have := decidableRunAdmissible next labels
      decidable_of_iff (admissible state label ∧ RunAdmissible step admissible next labels)
        (by simp [RunAdmissible, stepped])

@[simp] theorem run_nil (state : State) : run step state [] = some state := rfl

@[simp] theorem run_cons (state : State) (label : Label) (labels : List Label) :
    run step state (label :: labels) =
      (step state label).bind fun next => run step next labels := rfl

/-- A run in two parts. -/
theorem run_append (state : State) (first second : List Label) :
    run step state (first ++ second) =
      (run step state first).bind fun next => run step next second := by
  induction first generalizing state with
  | nil => rfl
  | cons label labels ih =>
    cases enabled : step state label with
    | none => simp [enabled]
    | some next => simp [enabled, ih]

/-- A run over allowed labels is admissible when they keep an invariant under
which they are admissible. -/
theorem runAdmissible_of_invariant {allowed : Label → Prop}
    (preserved : ∀ state label next, invariant state → allowed label →
        step state label = some next → invariant next)
    (admits : ∀ state label, invariant state → allowed label → admissible state label)
    {start : State} {labels : List Label} (initially : invariant start)
    (all : ∀ label ∈ labels, allowed label) :
    RunAdmissible step admissible start labels := by
  induction labels generalizing start with
  | nil => trivial
  | cons label labels ih =>
    obtain ⟨here, later⟩ := List.forall_mem_cons.mp all
    refine ⟨admits start label initially here, ?_⟩
    intro next stepped
    exact ih (preserved start label next initially here stepped) later

/-- Where every step is admissible, every run is. -/
theorem runAdmissible_of_forall (always : ∀ state label, admissible state label)
    (state : State) (labels : List Label) :
    RunAdmissible step admissible state labels :=
  have preserved : ∀ state label next, True → True → step state label = some next → True :=
    fun _ _ _ _ _ _ => trivial
  runAdmissible_of_invariant preserved
    (fun state label _ _ => always state label) trivial fun _ _ => trivial

/-- What every admissible step keeps holds in every state along an admissible
run. -/
theorem runSatisfies_of_runAdmissible (sound : ∀ state, invariant state → good state)
    (preserved : ∀ state label next,
      invariant state → admissible state label → step state label = some next → invariant next)
    (initially : invariant start) (admitted : RunAdmissible step admissible start labels) :
    RunSatisfies step good start labels := by
  induction labels generalizing start with
  | nil => exact sound start initially
  | cons label labels ih =>
    refine ⟨sound start initially, fun next stepped => ?_⟩
    exact ih (preserved start label next initially admitted.1 stepped) (admitted.2 next stepped)

/-- What holds along a run holds at its end. -/
theorem RunSatisfies.of_run (satisfies : RunSatisfies step good start labels)
    (ran : run step start labels = some stop) :
    good stop := by
  induction labels generalizing start with
  | nil =>
    cases ran
    exact satisfies
  | cons label labels ih =>
    rw [run_cons, Option.bind_eq_some_iff] at ran
    obtain ⟨next, stepped, ran⟩ := ran
    exact ih (satisfies.2 next stepped) ran

/-- What every admissible step keeps, every admissible run keeps. -/
theorem invariant_of_run (preserved : ∀ state label next,
      invariant state → admissible state label → step state label = some next → invariant next)
    (initially : invariant start) (admitted : RunAdmissible step admissible start labels)
    (ran : run step start labels = some stop) :
    invariant stop :=
  (runSatisfies_of_runAdmissible (fun _ => id) preserved initially admitted).of_run ran

/-- Where safe steps keep an invariant and the first unsafe one is noticed at
once, the good runs are those with safe steps only. -/
theorem runSatisfies_iff_runAdmissible (sound : ∀ state, invariant state → good state)
    (preserved : ∀ state label next, invariant state → admissible state label → safe state label →
        step state label = some next → invariant next) (noticed : ∀ state label,
      invariant state → admissible state label → ¬safe state label →
        ∃ next, step state label = some next ∧ ¬good next) (initially : invariant start)
    (admitted : RunAdmissible step admissible start labels) :
    RunSatisfies step good start labels ↔ RunAdmissible step safe start labels := by
  induction labels generalizing start with
  | nil => exact iff_of_true (sound start initially) trivial
  | cons label labels ih =>
    obtain ⟨allowed, later⟩ := admitted
    by_cases safeHere : safe start label
    · refine and_congr (iff_of_true (sound start initially) safeHere) (forall₂_congr ?_)
      intro next stepped
      exact ih (preserved start label next initially allowed safeHere stepped) (later next stepped)
    · obtain ⟨next, stepped, bad⟩ := noticed start label initially allowed safeHere
      refine iff_of_false ?_ fun safely => safeHere safely.1
      rintro ⟨-, goodLater⟩
      apply bad
      cases labels with
      | nil => exact goodLater next stepped
      | cons => exact (goodLater next stepped).1

/-- The same where every step is admissible. -/
theorem runSatisfies_iff_runSafe (sound : ∀ {state}, invariant state → good state)
    (preserved : ∀ {state label next}, invariant state → safe state label →
      step state label = some next → invariant next)
    (noticed : ∀ {state label}, invariant state → ¬safe state label →
      ∃ next, step state label = some next ∧ ¬good next) (initially : invariant start) :
    RunSatisfies step good start labels ↔ RunAdmissible step safe start labels :=
  runSatisfies_iff_runAdmissible (fun _ => sound) (fun _ _ _ holds (_ : True) => preserved holds)
    (fun _ _ holds _ => noticed holds) initially (runAdmissible_of_forall (fun _ _ => trivial) _ _)

end Pika.Foundation
