import Mathlib.Data.Finset.Max
import Mathlib.Data.Fintype.Defs
import Mathlib.Logic.Relation
import Pika.Foundation.Transition

/-!
# Threads that take locks

Threads run operations, each a script of acquisitions and releases.  The
acquisitions made while other locks are held are recorded.  Where every script
takes its locks in the order of a rank, no thread asks for a lock it holds, the
recorded relation has no cycle, and no set of threads waits on each other.
-/

namespace Pika.Foundation

open List

/-- The two sides of a lock.  A mutex is only taken exclusively. -/
inductive LockMode where
  | shared | exclusive
  deriving DecidableEq, Repr

/-- A lock held, or asked for. -/
structure Hold (Lock : Type*) where
  lock : Lock
  mode : LockMode
  deriving DecidableEq, Repr

/-- Two threads cannot have both. -/
def Hold.Conflicts (first second : Hold Lock) : Prop :=
  first.lock = second.lock ∧ (first.mode = .exclusive ∨ second.mode = .exclusive)

instance [DecidableEq Lock] (first second : Hold Lock) : Decidable (first.Conflicts second) :=
  inferInstanceAs (Decidable (_ ∧ _))

theorem Hold.Conflicts.symm {first second : Hold Lock} (conflicts : first.Conflicts second) :
    second.Conflicts first :=
  ⟨conflicts.1.symm, conflicts.2.symm⟩

/-- What a thread does next. -/
inductive LockAction (Lock : Type*) where
  | acquire (hold : Hold Lock)
  | release (lock : Lock)
  deriving DecidableEq, Repr

/-- The locks of a thread, and what is left of its operation. -/
structure ThreadState (Lock : Type*) where
  held : List (Hold Lock)
  script : List (LockAction Lock)
  deriving DecidableEq

section Scripts

variable {Lock : Type*} [DecidableEq Lock]

/-- The locks held after an action. -/
def LockAction.apply (held : List (Hold Lock)) : LockAction Lock → List (Hold Lock)
  | acquire hold => hold :: held
  | release lock => held.eraseP fun hold => hold.lock = lock

/-- The pairs an action adds: another lock held, and the one acquired. -/
def LockAction.pairs (held : List (Hold Lock)) : LockAction Lock → List (Lock × Lock)
  | acquire hold =>
    (held.filter fun other => other.lock ≠ hold.lock).map fun other => (other.lock, hold.lock)
  | release _ => []

/-- The locks held after a script. -/
def heldAfter (held : List (Hold Lock)) : List (LockAction Lock) → List (Hold Lock)
  | [] => held
  | action :: script => heldAfter (action.apply held) script

/-- The pairs a script adds. -/
def pairsOf (held : List (Hold Lock)) : List (LockAction Lock) → List (Lock × Lock)
  | [] => []
  | action :: script => action.pairs held ++ pairsOf (action.apply held) script

/-- A lock of a lower rank, or the shared side of a lock that may be taken
again. -/
def Hold.Precedes (rank : Lock → Nat) (recursive : Lock → Prop) (first second : Hold Lock) : Prop :=
  rank first.lock < rank second.lock ∨ (first.lock = second.lock ∧ first.mode = .shared ∧
      second.mode = .shared ∧ recursive second.lock)

/-- A script takes its locks in the order of the ranks. -/
def Ordered (rank : Lock → Nat) (recursive : Lock → Prop) :
    List (Hold Lock) → List (LockAction Lock) → Prop
  | _, [] => True
  | held, .acquire hold :: script =>
    (∀ other ∈ held, other.Precedes rank recursive hold) ∧
      Ordered rank recursive (hold :: held) script
  | held, .release lock :: script =>
    Ordered rank recursive (LockAction.apply held (.release lock)) script

/-- A script releases what it acquires. -/
def Balanced (script : List (LockAction Lock)) : Prop := ∀ held, heldAfter held script = held

/-- A scope in which a lock is held. -/
def within (hold : Hold Lock) (body : List (LockAction Lock)) : List (LockAction Lock) :=
  .acquire hold :: body ++ [.release hold.lock]

variable {held : List (Hold Lock)} {first second : List (LockAction Lock)}

@[simp] theorem heldAfter_append :
    heldAfter held (first ++ second) = heldAfter (heldAfter held first) second := by
  induction first generalizing held with
  | nil => rfl
  | cons action first ih => exact ih

theorem pairsOf_append :
    pairsOf held (first ++ second) =
      pairsOf held first ++ pairsOf (heldAfter held first) second := by
  induction first generalizing held with
  | nil => rfl
  | cons action first ih => simp [pairsOf, heldAfter, ih]

/-- Scripts in order, one behind the other. -/
theorem ordered_append :
    Ordered rank recursive held (first ++ second) ↔ Ordered rank recursive held first ∧
        Ordered rank recursive (heldAfter held first) second := by
  induction first generalizing held with
  | nil => simp [Ordered, heldAfter]
  | cons action first ih =>
    cases action with
    | acquire hold =>
      simp only [cons_append, Ordered, ih, and_assoc]
      rfl
    | release lock => exact ih

/-! ### Scopes -/

theorem balanced_nil : Balanced ([] : List (LockAction Lock)) := fun _ => rfl

theorem Balanced.append (left : Balanced first) (right : Balanced second) :
    Balanced (first ++ second) := by
  intro held
  rw [heldAfter_append, left, right]

theorem Balanced.flatMap {items : List Item} {body : Item → List (LockAction Lock)}
    (each : ∀ item, Balanced (body item)) :
    Balanced (items.flatMap body) := by
  induction items with
  | nil => exact balanced_nil
  | cons item items ih =>
    rw [flatMap_cons]
    exact (each item).append ih

/-- Locks of a scope are released. -/
theorem Balanced.within (inner : Balanced body) (hold : Hold Lock) :
    Balanced (within hold body) := by
  intro held
  rw [Foundation.within, cons_append, heldAfter, heldAfter_append, inner]
  simp [LockAction.apply, heldAfter]

/-- A scope is ordered if its lock and its body are. -/
theorem ordered_within :
    Ordered rank recursive held (within hold body) ↔
      (∀ other ∈ held, other.Precedes rank recursive hold) ∧
        Ordered rank recursive (hold :: held) body := by
  rw [Foundation.within, cons_append, Ordered, ordered_append]
  simp [Ordered]

/-- Items that leave the held locks as they are go one after the other. -/
theorem ordered_flatMap {items : List Item} (balanced : ∀ item, Balanced (body item))
    (each : ∀ item ∈ items, Ordered rank recursive held (body item)) :
    Ordered rank recursive held (items.flatMap body) := by
  induction items with
  | nil => exact trivial
  | cons item items ih =>
    obtain ⟨here, later⟩ := forall_mem_cons.mp each
    rw [flatMap_cons, ordered_append, balanced item]
    exact ⟨here, ih later⟩

theorem mem_pairsOf_within (inner : pair ∈ pairsOf (hold :: held) body) :
    pair ∈ pairsOf held (within hold body) := by
  rw [Foundation.within, cons_append, pairsOf, pairsOf_append]
  exact mem_append_right _ (mem_append_left _ inner)

theorem mem_pairsOf_flatMap {items : List Item}
    (balanced : ∀ item, Balanced (body item)) (member : item ∈ items)
    (inner : pair ∈ pairsOf held (body item)) :
    pair ∈ pairsOf held (items.flatMap body) := by
  induction items with
  | nil => cases member
  | cons other items ih =>
    rw [flatMap_cons, pairsOf_append, balanced other]
    rcases mem_cons.mp member with rfl | later
    · exact mem_append_left _ inner
    · exact mem_append_right _ (ih later)

theorem mem_pairsOf_acquire (member : other ∈ held) (different : other.lock ≠ hold.lock) :
    (other.lock, hold.lock) ∈ pairsOf held (.acquire hold :: script) := by
  refine mem_append_left _ (mem_map.mpr ⟨other, ?_, rfl⟩)
  simpa [different] using member

end Scripts

/-! ## Threads -/

/-- The threads, and the pairs of locks of which the second was acquired while
the first was held. -/
structure LockSystem (Thread Lock : Type*) where
  threads : Thread → ThreadState Lock
  nested : List (Lock × Lock)

/-- What happens next to the locks. -/
inductive LockLabel (Thread Operation : Type*) where
  | start (thread : Thread) (operation : Operation)
  | act (thread : Thread)

/-- The operation a label starts is one of a set. -/
def LockLabel.Starts (allowed : Operation → Prop) : LockLabel Thread Operation → Prop
  | start _ operation => allowed operation
  | act _ => True

theorem LockLabel.Starts.mono {label : LockLabel Thread Operation} (starts : label.Starts allowed)
    (implies : ∀ operation, allowed operation → other operation) :
    label.Starts other := by
  cases label with
  | start thread operation => exact implies operation starts
  | act thread => exact trivial

namespace LockSystem

variable {Thread Lock Operation : Type*}

/-- No lock is held and no operation under way. -/
def initial : LockSystem Thread Lock where
  threads _ := { held := [], script := [] }
  nested := []

section Step

variable [Fintype Thread] [DecidableEq Thread] [DecidableEq Lock]

/-- A thread has taken an action. -/
def perform (thread : Thread) (action : LockAction Lock)
    (rest : List (LockAction Lock)) (system : LockSystem Thread Lock) :
    LockSystem Thread Lock where
  threads := Function.update system.threads thread
    { held := action.apply (system.threads thread).held, script := rest }
  nested := system.nested ++ action.pairs (system.threads thread).held

/-- One step.  A lock is acquired if no thread has it in conflict. -/
def step (script : Operation → List (LockAction Lock)) (system : LockSystem Thread Lock) :
    LockLabel Thread Operation → Option (LockSystem Thread Lock)
  | .start thread operation =>
    if (system.threads thread).script = [] then
      some { system with
        threads := Function.update system.threads thread
          { system.threads thread with script := script operation } }
    else none
  | .act thread =>
    match (system.threads thread).script with
    | [] => none
    | .acquire hold :: rest =>
      if ∀ other, ∀ taken ∈ (system.threads other).held, ¬taken.Conflicts hold then
        some (system.perform thread (.acquire hold) rest)
      else none
    | .release lock :: rest => some (system.perform thread (.release lock) rest)

end Step

/-- A thread asks for a lock. -/
def Requests (system : LockSystem Thread Lock) (thread : Thread) (hold : Hold Lock) : Prop :=
  ∃ rest, (system.threads thread).script = .acquire hold :: rest

/-- A thread asks for a lock that another one has. -/
def WaitsFor (system : LockSystem Thread Lock) (thread other : Thread) : Prop :=
  other ≠ thread ∧ ∃ hold taken, system.Requests thread hold ∧
      taken ∈ (system.threads other).held ∧ taken.Conflicts hold

/-- No thread asks for a lock it has, unless the lock may be taken again; locks
are acquired without cycles; and no set of threads waits on each other. -/
structure Disciplined (recursive : Lock → Prop) (system : LockSystem Thread Lock) : Prop where
  /-- Locks are not asked for twice. -/
  once : ∀ thread hold, system.Requests thread hold →
    ∀ taken ∈ (system.threads thread).held, taken.lock = hold.lock → recursive hold.lock
  acyclic : ∀ lock, ¬Relation.TransGen
    (fun first second => (first, second) ∈ system.nested) lock lock
  noDeadlock : ∀ waiting : Finset Thread, waiting.Nonempty →
    ¬∀ thread ∈ waiting, ∃ other ∈ waiting, system.WaitsFor thread other

/-- The rank of the lock a thread asks for. -/
def requestRank (rank : Lock → Nat) (system : LockSystem Thread Lock) (thread : Thread) : Nat :=
  match (system.threads thread).script with
  | .acquire hold :: _ => rank hold.lock
  | _ => 0

theorem requestRank_eq {system : LockSystem Thread Lock} {hold : Hold Lock}
    (requests : system.Requests thread hold) :
    system.requestRank rank thread = rank hold.lock := by
  obtain ⟨rest, scriptEq⟩ := requests
  simp [requestRank, scriptEq]

variable [DecidableEq Lock]

/-- The scripts are ordered, and no two threads have conflicting locks. -/
structure WellOrdered (rank : Lock → Nat) (recursive : Lock → Prop)
    (system : LockSystem Thread Lock) : Prop where
  ordered : ∀ thread, Ordered rank recursive (system.threads thread).held
    (system.threads thread).script
  balanced : ∀ thread, heldAfter (system.threads thread).held (system.threads thread).script = []
  nested : ∀ pair ∈ system.nested, rank pair.1 < rank pair.2
  exclusive : ∀ thread other, other ≠ thread → ∀ hold ∈ (system.threads thread).held,
      ∀ taken ∈ (system.threads other).held, ¬taken.Conflicts hold

variable {rank : Lock → Nat} {recursive : Lock → Prop}
variable {system next : LockSystem Thread Lock}

theorem wellOrdered_initial : (initial : LockSystem Thread Lock).WellOrdered rank recursive where
  ordered _ := trivial
  balanced _ := rfl
  nested := nofun
  exclusive _ _ _ := nofun

section

variable (wellOrdered : system.WellOrdered rank recursive)
include wellOrdered

/-- A lock that is asked for comes behind those held. -/
theorem WellOrdered.precedes
    (requests : system.Requests thread hold) (member : taken ∈ (system.threads thread).held) :
    taken.Precedes rank recursive hold := by
  obtain ⟨rest, scriptEq⟩ := requests
  have ordered := wellOrdered.ordered thread
  rw [scriptEq] at ordered
  exact ordered.1 taken member

/-- The highest lock asked for is had by a thread that asks for a higher one. -/
theorem WellOrdered.noDeadlock (waiting : Finset Thread) (nonempty : waiting.Nonempty) :
    ¬∀ thread ∈ waiting, ∃ other ∈ waiting, system.WaitsFor thread other := by
  intro waits
  obtain ⟨highest, isMember, maximal⟩ := waiting.exists_max_image (system.requestRank rank) nonempty
  obtain ⟨holder, isHolder, -, wanted, taken, asks, has, conflicts⟩ := waits highest isMember
  obtain ⟨third, -, apart, wantsToo, blocking, asksToo, hasToo, blocks⟩ := waits holder isHolder
  rcases wellOrdered.precedes asksToo has with
    lower | ⟨again, -, asksShared, -⟩
  · have bounded := maximal holder isHolder
    rw [requestRank_eq asks, requestRank_eq asksToo] at bounded
    rw [conflicts.1] at lower
    omega
  · -- The holder shares the lock and asks for its shared side once more, so
    -- that nobody can have the exclusive side.
    apply wellOrdered.exclusive holder third apart taken has blocking hasToo
    refine ⟨blocks.1.trans again.symm, .inl ?_⟩
    apply blocks.2.resolve_right
    rw [asksShared]
    exact nofun

/-- The invariant gives the discipline. -/
theorem WellOrdered.disciplined :
    system.Disciplined recursive where
  once thread hold requests taken member same := by
    rcases wellOrdered.precedes requests member with lower | ⟨-, -, -, again⟩
    · rw [same] at lower
      exact absurd lower (lt_irrefl _)
    · exact again
  acyclic lock cycle := by
    have ascends : ∀ {first second}, Relation.TransGen
        (fun first second => (first, second) ∈ system.nested) first second →
          rank first < rank second := by
      intro first second path
      induction path with
      | single pair => exact wellOrdered.nested _ pair
      | tail _ pair ih => exact ih.trans (wellOrdered.nested _ pair)
    exact lt_irrefl _ (ascends cycle)
  noDeadlock := wellOrdered.noDeadlock

end

/-! ## Runs -/

section Runs

variable [DecidableEq Thread]
variable {script : Operation → List (LockAction Lock)}

/-- An operation that takes its locks in order and releases them. -/
def OrderedOperation (rank : Lock → Nat) (recursive : Lock → Prop)
    (script : Operation → List (LockAction Lock)) (operation : Operation) :
    Prop :=
  Ordered rank recursive [] (script operation) ∧ Balanced (script operation)

section

variable (wellOrdered : system.WellOrdered rank recursive)
include wellOrdered

/-- A thread whose locks keep apart from those of the others may go on. -/
theorem WellOrdered.update {thread : Thread} {after : ThreadState Lock}
    {nested : List (Lock × Lock)} (ordered : Ordered rank recursive after.held after.script)
    (balanced : heldAfter after.held after.script = [])
    (ascends : ∀ pair ∈ nested, rank pair.1 < rank pair.2)
    (apart : ∀ other, other ≠ thread → ∀ hold ∈ after.held,
      ∀ taken ∈ (system.threads other).held, ¬taken.Conflicts hold) :
    WellOrdered rank recursive
      { threads := Function.update system.threads thread after, nested := nested } where
  ordered other := by
    by_cases same : other = thread
    · simpa [same] using ordered
    · simpa [same] using wellOrdered.ordered other
  balanced other := by
    by_cases same : other = thread
    · simpa [same] using balanced
    · simpa [same] using wellOrdered.balanced other
  nested := ascends
  exclusive one other different := by
    by_cases same : one = thread
    · subst same
      simpa [different] using apart other different
    · by_cases otherSame : other = thread
      · subst otherSame
        intro hold member taken memberToo conflicts
        simp only [Function.update_of_ne same] at member
        simp only [Function.update_self] at memberToo
        exact apart one same taken memberToo hold member conflicts.symm
      · simpa [same, otherSame] using wellOrdered.exclusive one other different

/-- A lock is taken or released. -/
theorem WellOrdered.perform {thread : Thread} {action : LockAction Lock}
    {rest : List (LockAction Lock)} (scriptEq : (system.threads thread).script = action :: rest)
    (free : ∀ hold, action = .acquire hold → ∀ other,
      ∀ taken ∈ (system.threads other).held, ¬taken.Conflicts hold) :
    (system.perform thread action rest).WellOrdered rank recursive := by
  have ordered := wellOrdered.ordered thread
  have balanced := wellOrdered.balanced thread
  rw [scriptEq] at ordered balanced
  cases action with
  | acquire hold =>
    refine wellOrdered.update ordered.2 balanced ?_ ?_
    · intro pair member
      rcases mem_append.mp member with old | new
      · exact wellOrdered.nested pair old
      · obtain ⟨other, held, rfl⟩ := mem_map.mp new
        obtain ⟨isHeld, different⟩ := mem_filter.mp held
        exact (ordered.1 other isHeld).resolve_right fun again =>
          of_decide_eq_true different again.1
    · intro other different taken member
      rcases mem_cons.mp member with rfl | old
      · exact free taken rfl other
      · exact wellOrdered.exclusive thread other different taken old
  | release lock =>
    refine wellOrdered.update ordered balanced ?_ ?_
    · intro pair member
      exact wellOrdered.nested pair ((mem_append.mp member).resolve_right not_mem_nil)
    · intro other different taken member
      exact wellOrdered.exclusive thread other different taken (mem_of_mem_eraseP member)

/-- A thread starts an ordered operation. -/
theorem WellOrdered.start {thread : Thread} {operation : Operation}
    (idle : (system.threads thread).script = [])
    (ordered : OrderedOperation rank recursive script operation) :
    WellOrdered rank recursive
      { system with
        threads := Function.update system.threads thread
          { system.threads thread with script := script operation } } := by
  have nothing : (system.threads thread).held = [] := by
    have ends := wellOrdered.balanced thread
    rwa [idle] at ends
  refine wellOrdered.update ?_ ?_ wellOrdered.nested ?_
  · simpa only [nothing] using ordered.1
  · simpa only [nothing] using ordered.2 []
  · exact fun other different => wellOrdered.exclusive thread other different

end

variable [Fintype Thread]

/-- Every step keeps the order. -/
theorem WellOrdered.step (wellOrdered : system.WellOrdered rank recursive)
    (starts : label.Starts (OrderedOperation rank recursive script))
    (stepped : system.step script label = some next) :
    next.WellOrdered rank recursive := by
  cases label with
  | start thread operation =>
    simp only [LockSystem.step] at stepped
    split_ifs at stepped with idle
    cases stepped
    exact wellOrdered.start idle starts
  | act thread =>
    simp only [LockSystem.step] at stepped
    split at stepped
    case h_1 => cases stepped
    case h_2 hold rest scriptEq =>
      split_ifs at stepped with free
      cases stepped
      refine wellOrdered.perform scriptEq ?_
      rintro _ ⟨⟩
      exact free
    case h_3 lock rest scriptEq =>
      cases stepped
      exact wellOrdered.perform scriptEq nofun

/-- Threads that run ordered operations are disciplined throughout. -/
theorem disciplined_of_ordered {labels : List (LockLabel Thread Operation)}
    (ordered : ∀ label ∈ labels, label.Starts (OrderedOperation rank recursive script)) :
    RunSatisfies (step script) (Disciplined recursive) initial labels :=
  runSatisfies_of_runAdmissible (fun _ wellOrdered => WellOrdered.disciplined wellOrdered)
    (fun _ _ _ wellOrdered starts stepped => WellOrdered.step wellOrdered starts stepped)
    wellOrdered_initial
    (runAdmissible_of_invariant (fun _ _ _ (_ : True) _ _ => trivial) (fun _ _ _ => id) trivial
      ordered)

/-- A thread goes on alone as long as its locks are in order. -/
theorem run_act_alone (scriptEq : (system.threads thread).script = first ++ rest)
    (ordered : Ordered rank recursive (system.threads thread).held first)
    (alone : ∀ other, other ≠ thread → (system.threads other).held = []) :
    run (step script) system (List.replicate first.length (.act thread)) = some
        { threads := Function.update system.threads thread
            { held := heldAfter (system.threads thread).held first, script := rest }
          nested := system.nested ++ pairsOf (system.threads thread).held first } := by
  induction first generalizing system with
  | nil =>
    have same : ThreadState.mk (system.threads thread).held rest = system.threads thread := by
      rw [← show (system.threads thread).script = rest from scriptEq]
    simp only [length_nil, replicate_zero, run_nil, heldAfter,
      pairsOf, append_nil, same, Function.update_eq_self]
  | cons action first ih =>
    have free : ∀ hold, action = .acquire hold → ∀ other,
        ∀ taken ∈ (system.threads other).held, ¬taken.Conflicts hold := by
      rintro hold rfl other taken member conflicts
      by_cases same : other = thread
      · subst same
        rcases ordered.1 taken member with lower | ⟨-, first, second, -⟩
        · rw [conflicts.1] at lower
          exact lt_irrefl _ lower
        · rcases conflicts.2 with exclusive | exclusive
          · cases first.symm.trans exclusive
          · cases second.symm.trans exclusive
      · rw [alone other same] at member
        cases member
    have stepped : system.step script (.act thread) =
        some (system.perform thread action (first ++ rest)) := by
      cases action with
      | acquire hold =>
        simp only [step, scriptEq, cons_append]
        rw [if_pos (free hold rfl)]
      | release lock => simp only [step, scriptEq, cons_append]
    have later : Ordered rank recursive (action.apply (system.threads thread).held) first := by
      cases action with
      | acquire hold => exact ordered.2
      | release lock => exact ordered
    rw [length_cons, replicate_succ, run_cons, stepped, Option.bind_some, ih]
    · simp [perform, heldAfter, pairsOf, append_assoc]
    · simp [perform]
    · simpa [perform] using later
    · intro other different
      simpa [perform, different] using alone other different

theorem run_start_alone (quiet : ∀ other, system.threads other = { held := [], script := [] })
    (scriptEq : script operation = first ++ rest)
    (ordered : Ordered rank recursive [] first) :
    run (step script) system (.start thread operation ::
          List.replicate first.length (.act thread)) = some
        { threads := Function.update system.threads thread
            { held := heldAfter [] first, script := rest }
          nested := system.nested ++ pairsOf [] first } := by
  have begun : system.step script (.start thread operation) = some
        { system with
          threads := Function.update system.threads thread
            { held := [], script := first ++ rest } } := by
    simp [step, quiet thread, scriptEq]
  have here : (Function.update system.threads thread
      { held := [], script := first ++ rest } thread).script = first ++ rest := by
    simp
  have inOrder : Ordered rank recursive (Function.update system.threads thread
      { held := [], script := first ++ rest } thread).held first := by
    simpa using ordered
  have alone : ∀ other, other ≠ thread → (Function.update system.threads thread
        { held := [], script := first ++ rest } other).held = [] := by
    intro other different
    simp [different, quiet other]
  rw [run_cons, begun, Option.bind_some, run_act_alone here inOrder alone]
  simp

theorem run_operation_alone (quiet : ∀ other, system.threads other = { held := [], script := [] })
    (ordered : OrderedOperation rank recursive script operation) :
    run (step script) system (.start thread operation ::
          List.replicate (script operation).length (.act thread)) =
      some { system with nested := system.nested ++ pairsOf [] (script operation) } := by
  rw [run_start_alone quiet (append_nil _).symm ordered.1, ordered.2,
    ← quiet thread, Function.update_eq_self]

end Runs

end LockSystem

end Pika.Foundation
