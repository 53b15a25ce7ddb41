import Mathlib.Data.List.Nodup
import Mathlib.Logic.Function.Basic

/-!
# Files of named items

A file holds a text for some names.  Writing a name that is not there does
nothing; such names are noted apart with their texts and appended when the file
is rewritten.  Where each name is written once, a rewritten file holds the
written texts of the names that were there and the noted texts of the others.
-/

namespace Pika.Foundation

variable {Name Text : Type*} [DecidableEq Name]

/-- A text under each name of the file. -/
abbrev ItemFile (Name Text : Type*) : Type _ := Name → Option Text

namespace ItemFile

/-- Overwrite the text of a name that is there. -/
def write (file : ItemFile Name Text) (item : Name × Text) : ItemFile Name Text :=
  if (file item.1).isSome then Function.update file item.1 (some item.2)
  else file

/-- Append the noted items that are not there yet. -/
def append (file noted : ItemFile Name Text) : ItemFile Name Text :=
  fun name => (file name).or (noted name)

variable {file : ItemFile Name Text} {items : List (Name × Text)}

theorem write_self (file : ItemFile Name Text) (name : Name) (text : Text) :
    write file (name, text) name = (file name).map fun _ => text := by
  cases there : file name with
  | none => simp only [write, there, Option.isSome_none, Bool.false_eq_true,
      if_false, Option.map_none]
  | some old => simp only [write, there, Option.isSome_some, if_true,
      Function.update_self, Option.map_some]

theorem write_of_ne (other : name ≠ item.1) : write file item name = file name := by
  rw [write]
  split_ifs
  · exact Function.update_of_ne other _ _
  · rfl

/-- The others keep their texts. -/
theorem foldl_write_of_not_mem (unwritten : name ∉ items.map Prod.fst) :
    items.foldl write file name = file name := by
  induction items generalizing file with
  | nil => rfl
  | cons item items ih =>
    rw [List.map_cons, List.mem_cons, not_or] at unwritten
    rw [List.foldl_cons, ih unwritten.2, write_of_ne unwritten.1]

/-- An item that is there and written has its new text. -/
theorem foldl_write_of_mem (once : (items.map Prod.fst).Nodup) (written : (name, text) ∈ items) :
    items.foldl write file name = (file name).map fun _ => text := by
  induction items generalizing file with
  | nil => cases written
  | cons item items ih =>
    rw [List.map_cons, List.nodup_cons] at once
    rw [List.foldl_cons]
    rcases List.mem_cons.mp written with rfl | later
    · rw [foldl_write_of_not_mem once.1, write_self]
    · have other : name ≠ item.1 := by
        rintro rfl
        exact once.1 (List.mem_map.mpr ⟨_, later, rfl⟩)
      rw [ih once.2 later, write_of_ne other]

end ItemFile

end Pika.Foundation
