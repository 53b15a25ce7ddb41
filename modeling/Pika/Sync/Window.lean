import Pika.Binlog.Files
import Pika.Foundation.MachineInt
import Pika.Foundation.Segment

/-!
# The sync window of a slave node

The master remembers the items it has sent to a slave and not seen
acknowledged.  An acknowledgement names a range by the binlog offsets of its
ends; the range is marked, its bytes are no longer counted, and the marked
items at the front leave the window.
-/

namespace Pika.Sync

open Foundation
open Binlog (BinlogOffset)

/-- The position of an item in the order of the consensus. -/
structure LogicOffset where
  term : Nat
  index : Nat
  deriving DecidableEq, Repr

/-- A position of the binlog, with the logic position of the item that ends
there. -/
structure LogOffset where
  bOffset : BinlogOffset
  lOffset : LogicOffset
  deriving DecidableEq, Repr

namespace LogOffset

/-- `LogOffset()`. -/
def zero : LogOffset where
  bOffset := { filenum := 0, offset := 0 }
  lOffset := { term := 0, index := 0 }

/-- An offset of the first file, in the first term. -/
def inFile (offset index : Nat) : LogOffset where
  bOffset := { filenum := 0, offset := offset }
  lOffset := { term := 1, index := index }

/-- `operator==`, which compares binlog offsets only. -/
def same (first second : LogOffset) : Bool := first.bOffset = second.bOffset

/-- Offsets are ordered by their binlog offsets. -/
instance : LT LogOffset where
  lt first second := first.bOffset < second.bOffset

instance (first second : LogOffset) : Decidable (first < second) :=
  inferInstanceAs (Decidable (first.bOffset < second.bOffset))

@[simp] theorem same_iff {first second : LogOffset} :
    first.same second = true ↔ first.bOffset = second.bOffset :=
  decide_eq_true_iff

end LogOffset

structure SyncWinItem where
  offset : LogOffset
  binlogSize : Nat
  acked : Bool
  deriving DecidableEq, Repr

namespace SyncWinItem

/-- The constructor of an item. -/
def create (offset : LogOffset) (binlogSize : Nat) : SyncWinItem where
  offset := offset
  binlogSize := binlogSize
  acked := false

/-- Mark an item as acknowledged. -/
def acknowledge (item : SyncWinItem) : SyncWinItem := { item with acked := true }

@[simp] theorem offset_create (offset : LogOffset) (binlogSize : Nat) :
    (create offset binlogSize).offset = offset := rfl

@[simp] theorem acked_create (offset : LogOffset) (binlogSize : Nat) :
    (create offset binlogSize).acked = false := rfl

@[simp] theorem offset_acknowledge (item : SyncWinItem) :
    item.acknowledge.offset = item.offset := rfl

@[simp] theorem acked_acknowledge (item : SyncWinItem) : item.acknowledge.acked = true := rfl

end SyncWinItem

structure SyncWindow where
  win : List SyncWinItem
  totalSize : Nat
  deriving DecidableEq, Repr

namespace SyncWindow

def create : SyncWindow where
  win := []
  totalSize := 0

def push (item : SyncWinItem) (window : SyncWindow) : SyncWindow where
  win := window.win ++ [item]
  totalSize := castUInt64 (window.totalSize + item.binlogSize)

/-- `Remaining`, with the configured size of a window.  The difference is
unsigned and returned as an `int`. -/
def remaining (syncWindowSize : Int) (window : SyncWindow) : Int :=
  castInt32 (castUInt64 (syncWindowSize - window.win.length))

def reset (_ : SyncWindow) : SyncWindow := create

/-- Take the bytes of some items from a total. -/
def subtract (total : Nat) (items : List SyncWinItem) : Nat :=
  items.foldl (fun total item => castUInt64 (total - item.binlogSize)) total

/-- The loop that pops acknowledged items from the front. -/
def popAcked : List SyncWinItem → LogOffset → List SyncWinItem × LogOffset
  | [], ackedOffset => ([], ackedOffset)
  | item :: items, ackedOffset =>
    if item.acked then popAcked items item.offset
    else (item :: items, ackedOffset)

/-- A window after the items of a range have been marked. -/
def marked (before range behind : List SyncWinItem) : List SyncWinItem :=
  before ++ (range.map SyncWinItem.acknowledge ++ behind)

/-- The items before, in and behind the range between two items, if both are
found in this order. -/
def cut (startItem endItem : LogOffset) (window : SyncWindow) :
    Option (List SyncWinItem × List SyncWinItem × List SyncWinItem) :=
  (locate (fun item => item.offset.same startItem)
      (fun item => item.offset.same endItem) window.win 0 none).map
    fun (startPos, endPos) =>
      (window.win.take startPos, (window.win.drop startPos).take (endPos + 1 - startPos),
        window.win.drop (endPos + 1))

/-- `Update`, with the value of `*acked_offset` before and after. -/
def update (startItem endItem ackedOffset : LogOffset) (window : SyncWindow) :
    Bool × LogOffset × SyncWindow :=
  match window.cut startItem endItem with
  | none => (false, ackedOffset, window)
  | some (before, range, behind) =>
    let popped := popAcked (marked before range behind) ackedOffset
    (true, popped.2, { win := popped.1, totalSize := subtract window.totalSize range })

/-- The ends of a range that an acknowledgement names. -/
abbrev Range (startItem endItem : LogOffset) (window : SyncWindow) :=
  Segment (fun item : SyncWinItem => item.offset.same startItem)
    (fun item => item.offset.same endItem) window.win

/-- The loop pops the acknowledged items up to the first other one and keeps
the offset of the last of them. -/
theorem popAcked_spec (items : List SyncWinItem) (ackedOffset : LogOffset) :
    ∃ popped rest, items = popped ++ rest ∧ (∀ item ∈ popped, item.acked = true) ∧
        (∀ item ∈ rest.head?, item.acked = false) ∧
        popAcked items ackedOffset = (rest,
            (popped.getLast?.map SyncWinItem.offset).getD ackedOffset) := by
  induction items generalizing ackedOffset with
  | nil => exact ⟨[], [], rfl, by simp, by simp, rfl⟩
  | cons item items ih =>
    cases acked : item.acked with
    | false =>
      refine ⟨[], item :: items, rfl, by simp, by simp [acked], ?_⟩
      simp [popAcked, acked]
    | true =>
      obtain ⟨popped, rest, rfl, allAcked, headUnacked, looped⟩ := ih item.offset
      refine ⟨item :: popped, rest, rfl, ?_, headUnacked, ?_⟩
      · exact List.forall_mem_cons.mpr ⟨acked, allAcked⟩
      · rw [popAcked, if_pos acked, looped, List.getLast?_cons]
        cases popped.getLast? <;> rfl

theorem range_of_cut {window : SyncWindow}
    (found : window.cut startItem endItem = some (before, range, behind)) :
    window.Range startItem endItem before range behind := by
  obtain ⟨⟨startPos, endPos⟩, located, parts⟩ := Option.map_eq_some_iff.mp found
  cases parts
  exact segment_of_locate located

/-- Unless its ends are found, an acknowledgement is rejected. -/
theorem update_of_none {window : SyncWindow}
    (missing : window.cut startItem endItem = none) (ackedOffset : LogOffset) :
    window.update startItem endItem ackedOffset = (false, ackedOffset, window) := by
  rw [update, missing]

theorem update_of_cut {window : SyncWindow}
    (found : window.cut startItem endItem = some (before, range, behind))
    (ackedOffset : LogOffset) :
    ∃ popped rest, marked before range behind = popped ++ rest ∧
        (∀ item ∈ popped, item.acked = true) ∧
        (∀ item ∈ rest.head?, item.acked = false) ∧
        window.update startItem endItem ackedOffset = (true,
            (popped.getLast?.map SyncWinItem.offset).getD ackedOffset,
            { win := rest, totalSize := subtract window.totalSize range }) := by
  obtain ⟨popped, rest, split, allAcked, headUnacked, looped⟩ :=
    popAcked_spec (marked before range behind) ackedOffset
  refine ⟨popped, rest, split, allAcked, headUnacked, ?_⟩
  rw [update, found]
  simp only [looped]

end SyncWindow

inductive SlaveState where
  | notSync
  | dbSync
  | binlogSync
  deriving DecidableEq, Repr

/-- The parts of a `SlaveNode` that the binlog sync uses. -/
structure SlaveNode where
  sessionId : Int
  slaveState : SlaveState
  syncWin : SyncWindow
  sentOffset : LogOffset
  ackedOffset : LogOffset
  /-- The number of records in front of `binlog_reader`, if there is one. -/
  binlogReader : Option Nat
  deriving DecidableEq, Repr

namespace SlaveNode

/-- The constructor of a node. -/
def create (sessionId : Int) : SlaveNode where
  sessionId := sessionId
  slaveState := .notSync
  syncWin := SyncWindow.create
  sentOffset := .zero
  ackedOffset := .zero
  binlogReader := none

/-- `Update`: the status, `*updated_offset` and the node. -/
def update (start stop updatedOffset : LogOffset) (node : SlaveNode) :
    Binlog.Status × LogOffset × SlaveNode :=
  if node.slaveState ≠ .binlogSync then (.corruption "state not BinlogSync", updatedOffset, node)
  else
    let result := node.syncWin.update start stop .zero
    let node := { node with syncWin := result.2.2 }
    if result.1 = false then (.corruption "UpdateAckedInfo failed", result.2.1, node)
    else if result.2.1.same .zero then (.ok, node.ackedOffset, node)
    else (.ok, result.2.1, { node with ackedOffset := result.2.1 })

end SlaveNode
end Pika.Sync
