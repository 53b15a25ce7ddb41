import Mathlib.Logic.Function.Basic

/-!
# Maps kept under computed keys

A map from names to entries, kept in a store that knows only a key computed
from each name.  Two names may have one key.  A change of the entry of a name
reaches only this entry where no other name with the same key has one.
-/

namespace Pika.Foundation

open Function (update update_of_ne update_self)

variable {Name Key Entry : Type*}

/-- A store holds the entries of a map, each under the key of its name. -/
def Holds (key : Name → Key) (stored : Key → Option Entry) (entries : Name → Option Entry) : Prop :=
  ∀ place entry, stored place = some entry ↔ ∃ name, key name = place ∧ entries name = some entry

/-- No other name with the key of a name has an entry. -/
def Alone (key : Name → Key) (entries : Name → Option Entry) (name : Name) : Prop :=
  ∀ other entry, key other = key name → entries other = some entry → other = name

variable {stored : Key → Option Entry}
variable {name : Name}

theorem holds_empty (key : Name → Key) :
    Holds key (fun _ => none : Key → Option Entry) fun _ => none := by
  intro place entry
  simp

/-- A name that shares its key with no other finds its entry. -/
theorem Holds.lookup (holds : Holds key stored entries) (alone : Alone key entries name) :
    stored (key name) = entries name := by
  apply Option.ext
  intro entry
  rw [holds]
  constructor
  · rintro ⟨other, sameKey, found⟩
    exact alone other entry sameKey found ▸ found
  · intro found
    exact ⟨name, rfl, found⟩

variable [DecidableEq Name] [DecidableEq Key]

/-- The entry of a name that is alone can be set and removed. -/
theorem Holds.update (holds : Holds key stored entries)
    (alone : Alone key entries name) (value : Option Entry) :
    Holds key (update stored (key name) value) (update entries name value) := by
  intro place entry
  by_cases here : place = key name
  · subst here
    rw [update_self]
    constructor
    · intro found
      exact ⟨name, rfl, (update_self name value entries).trans found⟩
    · rintro ⟨other, sameKey, found⟩
      by_cases same : other = name
      · subst same
        rwa [update_self] at found
      · rw [update_of_ne same] at found
        exact absurd (alone other entry sameKey found) same
  · rw [update_of_ne here, holds]
    -- A name with another key is another name.
    have apart : ∀ other, key other = place → other ≠ name := by
      rintro other rfl rfl
      exact here rfl
    constructor
    · rintro ⟨other, sameKey, found⟩
      refine ⟨other, sameKey, ?_⟩
      rwa [update_of_ne (apart other sameKey)]
    · rintro ⟨other, sameKey, found⟩
      rw [update_of_ne (apart other sameKey)] at found
      exact ⟨other, sameKey, found⟩

/-- A set entry that the map still holds is the entry of every other name with
its key. -/
theorem eq_of_holds_update (holds : Holds key (update stored (key name) value)
      (update entries name value)) (sameKey : key other = key name)
    (found : entries other = some entry) (apart : other ≠ name) :
    value = some entry := by
  have kept : update entries name value other = some entry := by
    rwa [update_of_ne apart]
  have there := (holds (key name) entry).mpr ⟨other, sameKey, kept⟩
  rwa [update_self] at there

end Pika.Foundation
