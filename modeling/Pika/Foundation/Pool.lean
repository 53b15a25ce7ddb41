import Mathlib.Logic.Function.Basic
import Pika.Foundation.Reorder

/-!
# Worker pools

Items are dispatched to workers that serve their own queues in order.  When
items that wait at different workers commute, the pool ends as if the items
were performed one after the other in the order of their dispatch.
-/

namespace Pika.Foundation

open List

variable {Item Worker State : Type*}

/-- Queues of items and the state the items act on. -/
structure Pool (Item Worker State : Type*) where
  queue : Worker → List Item
  state : State

namespace Pool

variable [DecidableEq Worker]

/-- A pool in which nothing waits. -/
def idle (state : State) : Pool Item Worker State where
  queue _ := []
  state := state

/-- Put an item at the end of its worker's queue. -/
def dispatch (assign : Item → Worker) (item : Item)
    (pool : Pool Item Worker State) : Pool Item Worker State :=
  { pool with
    queue := Function.update pool.queue (assign item) (pool.queue (assign item) ++ [item]) }

@[simp] theorem queue_dispatch_self (assign : Item → Worker) (item : Item)
    (pool : Pool Item Worker State) :
    (pool.dispatch assign item).queue (assign item) = pool.queue (assign item) ++ [item] :=
  Function.update_self ..

theorem queue_dispatch_of_ne (elsewhere : worker ≠ assign item) (pool : Pool Item Worker State) :
    (pool.dispatch assign item).queue worker = pool.queue worker :=
  Function.update_of_ne elsewhere ..

/-- A worker performs the first item of its queue. -/
def serve (act : Item → State → State) (worker : Worker)
    (pool : Pool Item Worker State) : Option (Pool Item Worker State) :=
  match pool.queue worker with
  | [] => none
  | item :: rest =>
    some
      { queue := Function.update pool.queue worker rest, state := act item pool.state }

/-- Something holds of every waiting item and its worker. -/
def Holds (property : Worker → Item → Prop) (pool : Pool Item Worker State) : Prop :=
  ∀ worker, ∀ item ∈ pool.queue worker, property worker item

namespace Holds

variable {pool next : Pool Item Worker State}

theorem dispatch (holds : pool.Holds property) (new : property (assign item) item) :
    (pool.dispatch assign item).Holds property := by
  intro worker other waits
  by_cases own : worker = assign item
  · subst own
    rw [queue_dispatch_self, mem_append, mem_singleton] at waits
    rcases waits with waits | rfl
    · exact holds _ other waits
    · exact new
  · rw [queue_dispatch_of_ne own] at waits
    exact holds worker other waits

theorem serve (holds : pool.Holds property) (served : pool.serve act worker = some next) :
    next.Holds property := by
  unfold Pool.serve at served
  split at served
  case h_1 => cases served
  case h_2 item rest waiting =>
    cases served
    intro other left waits
    dsimp only at waits
    by_cases own : other = worker
    · subst own
      rw [Function.update_self] at waits
      exact holds _ left (waiting ▸ mem_cons_of_mem item waits)
    · rw [Function.update_of_ne own] at waits
      exact holds other left waits

end Holds

/-- The items that wait, in the order of their dispatch.  Performed in that
order they lead to the target. -/
structure Backlog (assign : Item → Worker) (act : Item → State → State)
    (pool : Pool Item Worker State) (target : State) (items : List Item) :
    Prop where
  queue_eq : ∀ worker, pool.queue worker = items.filter fun item => assign item = worker
  apart : items.Pairwise fun first second =>
    assign first = assign second ∨ Commutes act first second
  perform_eq : perform act items pool.state = target

namespace Backlog

variable {pool next : Pool Item Worker State}

theorem idle (assign : Item → Worker) (act : Item → State → State) (state : State) :
    Backlog assign act (Pool.idle state) state [] where
  queue_eq _ := rfl
  apart := List.Pairwise.nil
  perform_eq := rfl

theorem mem_queue (backlog : Backlog assign act pool target items) (member : item ∈ items) :
    item ∈ pool.queue (assign item) := by
  rw [backlog.queue_eq]
  exact mem_filter.mpr ⟨member, decide_eq_true rfl⟩

theorem dispatch (backlog : Backlog assign act pool target items) (item : Item)
    (commutes : ∀ worker, worker ≠ assign item →
      ∀ other ∈ pool.queue worker, Commutes act other item) :
    Backlog assign act (pool.dispatch assign item) (act item target) (items ++ [item]) where
  queue_eq worker := by
    rw [filter_append, ← backlog.queue_eq]
    by_cases own : worker = assign item
    · simp [own]
    · simp [queue_dispatch_of_ne own, Ne.symm own]
  apart := by
    refine pairwise_append.mpr ⟨backlog.apart, pairwise_singleton _ _, ?_⟩
    intro other member last same
    obtain rfl := mem_singleton.mp same
    by_cases own : assign other = assign last
    · exact .inl own
    · exact .inr (commutes _ own other (backlog.mem_queue member))
  perform_eq := by
    rw [perform_append, perform_cons, perform_nil, Pool.dispatch, backlog.perform_eq]

/-- A worker performs its first item: the items before it in the backlog wait
at other workers, so it moves to the front. -/
theorem serve (backlog : Backlog assign act pool target items)
    (served : pool.serve act worker = some next) :
    ∃ rest, Backlog assign act next target rest := by
  unfold Pool.serve at served
  split at served
  case h_1 => cases served
  case h_2 item rest waits =>
    cases served
    rw [backlog.queue_eq, filter_eq_cons_iff] at waits
    obtain ⟨before, behind, rfl, others, own, rfl⟩ := waits
    have itemWorker : assign item = worker := of_decide_eq_true own
    obtain ⟨beforeApart, behindApart, across⟩ := pairwise_append.mp backlog.apart
    have commutes : ∀ other ∈ before, Commutes act other item := by
      intro other member
      refine (across other member item mem_cons_self).resolve_left ?_
      intro same
      exact others other member (decide_eq_true (same.trans itemWorker))
    refine ⟨before ++ behind, ?_, ?_, ?_⟩
    · intro other
      rw [filter_append]
      by_cases same : other = worker
      · subst same
        rw [filter_eq_nil_iff.mpr others, nil_append]
        exact Function.update_self ..
      · have skipped : assign item ≠ other := by
          rw [itemWorker]
          exact Ne.symm same
        refine (Function.update_of_ne same _ _).trans ?_
        rw [backlog.queue_eq, filter_append, filter_cons_of_neg (by simpa using skipped)]
    · refine pairwise_append.mpr ⟨beforeApart, (pairwise_cons.mp behindApart).2, ?_⟩
      intro first firstMember second secondMember
      exact across first firstMember second (mem_cons_of_mem _ secondMember)
    · rw [← backlog.perform_eq, perform_append, perform_append, perform_cons,
        perform_move_front commutes]

theorem state_eq (backlog : Backlog assign act pool target items)
    (drained : ∀ item, pool.queue (assign item) = []) :
    pool.state = target := by
  cases items with
  | nil => exact backlog.perform_eq
  | cons item items =>
    have waits := backlog.mem_queue mem_cons_self
    rw [drained] at waits
    cases waits

end Backlog
end Pool
end Pika.Foundation
