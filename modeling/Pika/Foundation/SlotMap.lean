import Mathlib.Logic.Function.Basic

/-!
# Maps kept in arrays without their keys

An array in which every key of a fixed set has a slot of its own, while the
slot of any other key is computed in the same way and not checked.  Such an
array is a map from the keys to the entries exactly for the keys that have a
slot of their own, and for those whose computed slot is empty.
-/

namespace Pika.Foundation

open Function (update update_of_ne)

/-- How an access ends. -/
inductive Access (Result : Type*) where
  | returned (result : Result)
  | aborted
  /-- It has no defined behaviour. -/
  | undefined
  deriving DecidableEq

/-- What is done with the result of an access. -/
def Access.bind (access : Access First) (next : First → Access Second) : Access Second :=
  match access with
  | returned result => next result
  | aborted => aborted
  | undefined => undefined

/-- A function of the result of an access. -/
def Access.map (change : First → Second) (access : Access First) : Access Second :=
  access.bind fun result => returned (change result)

/-- The way on where an entry is present, and the answer where it is absent. -/
def Access.ifPresent (absent : Result) (next : Entry → Access Result)
    (access : Access (Option Entry)) : Access Result :=
  access.bind fun
    | none => returned absent
    | some entry => next entry

@[simp] theorem Access.bind_returned (result : First) (next : First → Access Second) :
    (returned result).bind next = next result := rfl

@[simp] theorem Access.map_returned (change : First → Second) (result : First) :
    (returned result).map change = returned (change result) := rfl

@[simp] theorem Access.ifPresent_none (absent : Result) (next : Entry → Access Result) :
    (returned none).ifPresent absent next = returned absent := rfl

@[simp] theorem Access.ifPresent_some (absent : Result)
    (next : Entry → Access Result) (entry : Entry) :
    (returned (some entry)).ifPresent absent next = next entry := rfl

/-- An access that does not find its entry absent ends so only on its way on. -/
theorem Access.ifPresent_eq_absent (present : access ≠ returned none)
    (ends : access.ifPresent absent next = returned absent) :
    ∃ entry, access = returned (some entry) ∧ next entry = returned absent := by
  cases access with
  | returned entry =>
    cases entry with
    | none => exact absurd rfl present
    | some entry => exact ⟨entry, rfl, ends⟩
  | aborted => cases ends
  | undefined => cases ends

theorem Access.map_eq_returned_iff :
    access.map change = returned result ↔
      ∃ before, access = returned before ∧ change before = result := by
  cases access <;> simp [map, bind]

/-- Keys with slots of their own, and the slot computed for any key. -/
structure Homes (Key : Type*) (size : Nat) where
  home : Fin size → Key
  index : Key → Access (Fin size)
  /-- A key that has a slot is found there. -/
  index_home : ∀ slot, index (home slot) = .returned slot

namespace Homes

variable {Key Entry : Type*} {size : Nat} [DecidableEq Key]
variable (homes : Homes Key size) (slots : Fin size → Option Entry)

/-- What the array holds for a key. -/
def lookup (key : Key) : Access (Option Entry) := (homes.index key).map slots

/-- The array after the entry of a key is dropped. -/
def erase (key : Key) : Access (Fin size → Option Entry) :=
  (homes.index key).map fun slot => update slots slot none

/-- The map an array stands for. -/
def toMap (key : Key) : Option Entry :=
  match homes.index key with
  | .returned slot => if homes.home slot = key then slots slot else none
  | _ => none

/-- A key that has the slot it is looked up in, or is looked up in an empty
slot. -/
def Regular (key : Key) : Prop :=
  ∃ slot, homes.index key = .returned slot ∧ (homes.home slot = key ∨ slots slot = none)

variable {homes slots}

/-- A key at home is found. -/
@[simp] theorem toMap_home (slot : Fin size) :
    homes.toMap slots (homes.home slot) = slots slot := by
  simp [toMap, homes.index_home]

theorem exists_home_of_toMap_ne_none (present : homes.toMap slots key ≠ none) :
    ∃ slot, homes.home slot = key := by
  unfold toMap at present
  split at present
  · rename_i slot _
    refine ⟨slot, ?_⟩
    by_contra foreign
    exact present (if_neg foreign)
  · exact absurd rfl present

omit [DecidableEq Key] in
theorem regular_home (slot : Fin size) : homes.Regular slots (homes.home slot) :=
  ⟨slot, homes.index_home slot, .inl rfl⟩

/-- The array answers as the map does exactly for regular keys. -/
theorem lookup_eq_toMap_iff (key : Key) :
    homes.lookup slots key = .returned (homes.toMap slots key) ↔ homes.Regular slots key := by
  unfold lookup toMap Regular
  cases indexed : homes.index key with
  | returned slot =>
    by_cases same : homes.home slot = key
    · simp [same]
    · simp [same]
  | aborted => simp [Access.map, Access.bind]
  | undefined => simp [Access.map, Access.bind]

/-- For any other key the map has nothing, and the array does not say so. -/
theorem lookup_of_not_regular (irregular : ¬homes.Regular slots key) :
    homes.toMap slots key = none ∧ homes.lookup slots key ≠ .returned none := by
  simp only [Regular, not_exists, not_and, not_or] at irregular
  unfold toMap lookup
  cases indexed : homes.index key with
  | returned slot =>
    obtain ⟨foreign, present⟩ := irregular slot indexed
    simpa [foreign] using present
  | aborted => simp [Access.map, Access.bind]
  | undefined => simp [Access.map, Access.bind]

/-- The two ways of a request are the same exactly if its key is regular and
they go on alike, provided that a present entry is told from an absent one. -/
theorem ifPresent_lookup_eq_iff {key : Key} {absent : Result} {next spec : Entry → Access Result}
    (tells : ∀ entry, homes.lookup slots key = .returned (some entry) →
      next entry ≠ .returned absent) :
    (homes.lookup slots key).ifPresent absent next =
        (Access.returned (homes.toMap slots key)).ifPresent absent spec ↔
      homes.Regular slots key ∧ ∀ entry, homes.toMap slots key = some entry →
          next entry = spec entry := by
  by_cases regular : homes.Regular slots key
  · rw [(lookup_eq_toMap_iff key).mpr regular]
    cases homes.toMap slots key with
    | none => simp [regular]
    | some entry => simp [regular]
  · refine iff_of_false ?_ fun both => regular both.1
    obtain ⟨nothing, present⟩ := lookup_of_not_regular regular
    rw [nothing, Access.ifPresent_none]
    intro ends
    obtain ⟨entry, looked, same⟩ := Access.ifPresent_eq_absent present ends
    exact tells entry looked same

/-- A function of the answer tells regular keys from others if it tells absent
entries from present ones. -/
theorem map_lookup_eq_iff (tells : ∀ entry, change (some entry) ≠ change none) :
    (homes.lookup slots key).map change = .returned (change (homes.toMap slots key)) ↔
      homes.Regular slots key := by
  by_cases regular : homes.Regular slots key
  · rw [(lookup_eq_toMap_iff key).mpr regular]
    exact iff_of_true rfl regular
  · refine iff_of_false ?_ regular
    obtain ⟨nothing, present⟩ := lookup_of_not_regular regular
    rw [nothing, Access.map_eq_returned_iff]
    rintro ⟨entry, looked, same⟩
    cases entry with
    | none => exact present looked
    | some entry => exact tells entry same

/-- A change at the home of a key is one in the map. -/
theorem toMap_update_home (slot : Fin size) (entry : Option Entry) :
    homes.toMap (update slots slot entry) =
      update (homes.toMap slots) (homes.home slot) entry := by
  funext key
  by_cases same : key = homes.home slot
  · rw [same, toMap_home]
    simp
  · rw [update_of_ne same]
    unfold toMap
    split
    · rename_i other indexed
      by_cases own : homes.home other = key
      · have apart : other ≠ slot := by
          rintro rfl
          exact same own.symm
        simp [own, update_of_ne apart]
      · simp [own]
    · rfl

/-- Erasing from the array erases from the map exactly for regular keys. -/
theorem erase_toMap_iff (key : Key) :
    (homes.erase slots key).map homes.toMap =
        .returned (update (homes.toMap slots) key none) ↔ homes.Regular slots key := by
  unfold erase Regular
  cases indexed : homes.index key with
  | aborted => simp [Access.map, Access.bind]
  | undefined => simp [Access.map, Access.bind]
  | returned slot =>
    simp only [Access.map_returned, Access.returned.injEq, toMap_update_home, exists_eq_left']
    by_cases own : homes.home slot = key
    · simp [own]
    · simp only [own, false_or]
      constructor
      · intro same
        -- The key of the slot shows whether another entry was erased.
        have here := congrFun same (homes.home slot)
        rw [Function.update_self, update_of_ne own, toMap_home] at here
        exact here.symm
      · intro empty
        have absent : homes.toMap slots key = none := by simp [toMap, indexed, own]
        have emptyHome : homes.toMap slots (homes.home slot) = none := by
          rw [toMap_home, empty]
        rw [Function.update_eq_self_iff.mpr emptyHome.symm,
          Function.update_eq_self_iff.mpr absent.symm]

end Homes

end Pika.Foundation
