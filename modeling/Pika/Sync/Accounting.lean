import Pika.Foundation.Transition
import Pika.Replication.Terms
import Pika.Sync.Window

/-!
# The bytes a window counts

`total_size_` is to be the number of bytes sent and not acknowledged.  A range
is subtracted as a whole, also the items in it that an earlier range has
acknowledged and a hole in front of them keeps in the window.  The count is
right exactly as long as no range holds such items.
-/

namespace Pika.Sync

open Foundation

/-- The operations of a window. -/
inductive WindowOperation where
  /-- `Push` of a new item. -/
  | push (offset : LogOffset) (binlogSize : Nat)
  | update (start stop : LogOffset)
  | reset
  deriving DecidableEq, Repr

def bytesOf (items : List SyncWinItem) : Nat := (items.map SyncWinItem.binlogSize).sum

/-- The bytes of the items that are acknowledged already. -/
def ackedBytes (items : List SyncWinItem) : Nat := bytesOf (items.filter SyncWinItem.acked)

/-- The bytes of the items that are not acknowledged yet. -/
def unackedBytes (items : List SyncWinItem) : Nat :=
  bytesOf (items.filter fun item => !item.acked)

namespace SyncWindow

def step (window : SyncWindow) : WindowOperation → Option SyncWindow
  | .push offset binlogSize => some (window.push (.create offset binlogSize))
  | .update start stop => some (window.update start stop .zero).2.2
  | .reset => some window.reset

/-- The test that makes `ReadBinlogFileToWq` stop reading. -/
def stopsReading (window : SyncWindow) : Bool := 2 * Replication.maxConnRbufHB < window.totalSize

/-- The window counts the bytes that are not acknowledged, so reading stops
only when they are more than 1 GB. -/
structure Accounted (window : SyncWindow) : Prop where
  totalSize_eq : window.totalSize = unackedBytes window.win
  stops : window.stopsReading = true → 2 ^ 30 < unackedBytes window.win

/-- An operation does not make the count wrong: the bytes pushed fit the
counter, and no byte in a range was acknowledged before, up to multiples of
the counter's size. -/
def OperationCounts (window : SyncWindow) : WindowOperation → Prop
  | .push _ binlogSize => unackedBytes window.win + binlogSize < 2 ^ 64
  | .update start stop => ∀ parts ∈ window.cut start stop, ackedBytes parts.2.1 % 2 ^ 64 = 0
  | .reset => True

instance (window : SyncWindow) (operation : WindowOperation) :
    Decidable (window.OperationCounts operation) :=
  match operation with
  | .push _ _ => inferInstanceAs (Decidable (_ < _))
  | .update _ _ => inferInstanceAs (Decidable (∀ parts ∈ _, _))
  | .reset => inferInstanceAs (Decidable True)

end SyncWindow

theorem bytesOf_append (first second : List SyncWinItem) :
    bytesOf (first ++ second) = bytesOf first + bytesOf second := by
  simp [bytesOf]

theorem ackedBytes_add_unackedBytes (items : List SyncWinItem) :
    ackedBytes items + unackedBytes items = bytesOf items := by
  induction items with
  | nil => rfl
  | cons item items ih =>
    cases acked : item.acked <;>
      simp only [ackedBytes, unackedBytes, bytesOf, List.filter_cons, acked,
        Bool.not_true, Bool.not_false, Bool.false_eq_true, if_false,
        if_true, List.map_cons, List.sum_cons] at ih ⊢ <;>
      omega

theorem unackedBytes_append (first second : List SyncWinItem) :
    unackedBytes (first ++ second) = unackedBytes first + unackedBytes second := by
  rw [unackedBytes, List.filter_append, bytesOf_append]
  rfl

theorem unackedBytes_of_acked (acked : ∀ item ∈ items, item.acked = true) :
    unackedBytes items = 0 := by
  have none : items.filter (fun item => !item.acked) = [] := by
    apply List.filter_eq_nil_iff.mpr
    intro item member
    simp [acked item member]
  rw [unackedBytes, none]
  rfl

namespace SyncWindow

theorem subtract_eq (items : List SyncWinItem) (total : Int) :
    subtract (castUInt64 total) items = castUInt64 (total - bytesOf items) := by
  induction items generalizing total with
  | nil => simp [subtract, bytesOf]
  | cons item items ih =>
    have first : subtract (castUInt64 total) (item :: items) =
        subtract (castUInt64 (total - item.binlogSize)) items := by
      simp [subtract]
    rw [first, ih]
    simp only [bytesOf, List.map_cons, List.sum_cons, Nat.cast_add]
    rw [Int.sub_sub]

theorem subtract_of_lt {total : Nat} (items : List SyncWinItem) (fits : total < 2 ^ 64) :
    subtract total items = castUInt64 (total - bytesOf items) := by
  rw [← subtract_eq, castUInt64_natCast_of_lt fits]

theorem accounted_iff {window : SyncWindow} :
    window.Accounted ↔ window.totalSize = unackedBytes window.win := by
  constructor
  · exact Accounted.totalSize_eq
  · intro counted
    refine ⟨counted, fun stops => ?_⟩
    rw [stopsReading, decide_eq_true_eq, counted] at stops
    exact stops

/-- The bytes left after a range has been marked and the front popped. -/
theorem unackedBytes_of_marked (split : marked before range behind = popped ++ rest)
    (allAcked : ∀ item ∈ popped, item.acked = true) :
    unackedBytes rest = unackedBytes before + unackedBytes behind := by
  have markedBytes := congrArg unackedBytes split
  have rangeAcked : ∀ item ∈ range.map SyncWinItem.acknowledge, item.acked = true := by
    intro item member
    obtain ⟨original, -, rfl⟩ := List.mem_map.mp member
    rfl
  rw [marked, unackedBytes_append, unackedBytes_append, unackedBytes_append,
    unackedBytes_of_acked rangeAcked, unackedBytes_of_acked allAcked,
    Nat.zero_add, Nat.zero_add] at markedBytes
  exact markedBytes.symm

/-- What a window that counts right keeps: the count fits the counter. -/
structure Counting (window : SyncWindow) : Prop where
  totalSize_eq : window.totalSize = unackedBytes window.win
  fits : window.totalSize < 2 ^ 64

/-- A window that counts right still does after an operation exactly if the
operation counts. -/
theorem Counting.step_iff {window next : SyncWindow}
    (counting : window.Counting) (stepped : window.step operation = some next) :
    next.totalSize = unackedBytes next.win ↔ window.OperationCounts operation := by
  obtain ⟨counted, fits⟩ := counting
  cases operation with
  | push offset binlogSize =>
    cases stepped
    have added : unackedBytes (window.push (.create offset binlogSize)).win =
        unackedBytes window.win + binlogSize := by
      rw [push, unackedBytes_append]
      simp [unackedBytes, bytesOf, SyncWinItem.create]
    rw [added, OperationCounts, push, counted]
    unfold castUInt64
    simp only [SyncWinItem.create]
    omega
  | update start stop =>
    cases stepped
    cases parts : window.cut start stop with
    | none =>
      rw [update_of_none parts]
      simp [OperationCounts, parts, counted]
    | some found =>
      obtain ⟨before, range, behind⟩ := found
      obtain ⟨popped, rest, split, allAcked, -, updated⟩ := update_of_cut parts .zero
      have wholeEq := (range_of_cut parts).split
      have rangeBytes := ackedBytes_add_unackedBytes range
      rw [wholeEq, unackedBytes_append, unackedBytes_append] at counted
      simp only [updated, subtract_of_lt range fits, unackedBytes_of_marked split allAcked,
        OperationCounts, parts, Option.mem_def, Option.some.injEq, forall_eq']
      unfold castUInt64
      omega
  | reset =>
    cases stepped
    simp [OperationCounts, reset, create, unackedBytes, bytesOf]

theorem totalSize_step_lt {window next : SyncWindow} (fits : window.totalSize < 2 ^ 64)
    (stepped : window.step operation = some next) :
    next.totalSize < 2 ^ 64 := by
  have bounded : ∀ value : Int, castUInt64 value < 2 ^ 64 := by
    intro value
    unfold castUInt64
    omega
  cases operation with
  | push offset binlogSize =>
    cases stepped
    exact bounded (window.totalSize + binlogSize)
  | update start stop =>
    cases stepped
    cases parts : window.cut start stop with
    | none => rwa [update_of_none parts]
    | some found =>
      obtain ⟨before, range, behind⟩ := found
      obtain ⟨popped, rest, -, -, -, updated⟩ := update_of_cut parts .zero
      rw [updated, subtract_of_lt range fits]
      exact bounded _
  | reset =>
    cases stepped
    exact Nat.two_pow_pos 64

/-- Along every sequence of operations, the window counts right exactly if
every operation counts. -/
theorem accounted_iff_operationsCount (operations : List WindowOperation) :
    RunSatisfies step Accounted create operations ↔
      RunAdmissible step OperationCounts create operations := by
  apply runSatisfies_iff_runSafe fun (counting : Counting _) =>
    accounted_iff.mpr counting.totalSize_eq
  · intro window operation next counting counts stepped
    exact ⟨(counting.step_iff stepped).mpr counts, totalSize_step_lt counting.fits stepped⟩
  · intro window operation counting miscounts
    obtain ⟨next, stepped⟩ : ∃ next, window.step operation = some next := by
      cases operation <;> exact ⟨_, rfl⟩
    refine ⟨next, stepped, fun accounted => miscounts ?_⟩
    exact (counting.step_iff stepped).mp accounted.totalSize_eq
  · exact ⟨rfl, Nat.two_pow_pos 64⟩

/-- Two items, and the second one acknowledged twice while the first one is
not: its bytes are subtracted twice and the count wraps around. -/
theorem not_accounted_acked_twice :
    ¬RunSatisfies step Accounted create [.push (.inFile 9 1) 1, .push (.inFile 37 2) 20,
        .update (.inFile 37 2) (.inFile 37 2), .update (.inFile 37 2) (.inFile 37 2)] := by
  intro satisfied
  have wrapped := ((satisfied.2 _ rfl).2 _ rfl).2 _ rfl
  have last : (_ : SyncWindow).totalSize = _ := (wrapped.2 _ rfl).totalSize_eq
  exact absurd last (by decide +kernel)

end SyncWindow
end Pika.Sync
