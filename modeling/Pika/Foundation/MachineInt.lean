import Mathlib.Data.Int.ModEq

/-!
# Fixed-width integer conversions

The value a two's-complement integer of a given width holds after an
arbitrary integer is stored in it, and the range in which storing is exact.
-/

namespace Pika.Foundation

/-- The value of a signed 32-bit integer after `value` is stored in it. -/
def castInt32 (value : Int) : Int := value.bmod (2 ^ 32)

/-- The value of a signed 64-bit integer after `value` is stored in it. -/
def castInt64 (value : Int) : Int := value.bmod (2 ^ 64)

/-- The value of an unsigned 32-bit integer after `value` is stored in it. -/
def castUInt32 (value : Int) : Nat := (value % 2 ^ 32).toNat

/-- The value of an unsigned 64-bit integer after `value` is stored in it. -/
def castUInt64 (value : Int) : Nat := (value % 2 ^ 64).toNat

theorem castInt32_eq_self (lower : -2 ^ 31 ≤ value) (upper : value < 2 ^ 31) :
    castInt32 value = value := by
  unfold castInt32
  apply Int.bmod_eq_of_le <;> omega

theorem castInt64_eq_self (lower : -2 ^ 63 ≤ value) (upper : value < 2 ^ 63) :
    castInt64 value = value := by
  unfold castInt64
  apply Int.bmod_eq_of_le <;> omega

/-- A narrowed number is in the range of its type. -/
theorem castInt32_mem_range (value : Int) :
    -2 ^ 31 ≤ castInt32 value ∧ castInt32 value < 2 ^ 31 := by
  unfold castInt32
  constructor
  · have := Int.le_bmod (x := value) (m := 2 ^ 32) (by decide)
    omega
  · have := Int.bmod_lt (x := value) (m := 2 ^ 32) (by decide)
    omega

theorem castInt64_mem_range (value : Int) :
    -2 ^ 63 ≤ castInt64 value ∧ castInt64 value < 2 ^ 63 := by
  unfold castInt64
  constructor
  · have := Int.le_bmod (x := value) (m := 2 ^ 64) (by decide)
    omega
  · have := Int.bmod_lt (x := value) (m := 2 ^ 64) (by decide)
    omega

/-- A natural number is stored exactly below `2 ^ 31`. -/
theorem castInt32_eq_natCast_iff (number : Nat) :
    castInt32 number = number ↔ number < 2 ^ 31 := by
  constructor
  · intro same
    have range := castInt32_mem_range number
    omega
  · intro small
    exact castInt32_eq_self (by omega) (by omega)

/-- Adding to a stored value and storing again loses nothing more. -/
@[simp] theorem castInt32_castInt32_add (value increment : Int) :
    castInt32 (castInt32 value + increment) = castInt32 (value + increment) :=
  Int.bmod_add_bmod

/-- The low 32 bits survive a detour through 64 unsigned bits. -/
@[simp] theorem castInt32_castUInt64 (value : Int) :
    castInt32 (castUInt64 value) = castInt32 value := by
  have wide : ((castUInt64 value : Nat) : Int) = value % 2 ^ 64 := by
    unfold castUInt64
    omega
  unfold castInt32
  rw [wide, Int.bmod_def, Int.bmod_def, Int.emod_emod_of_dvd value (by decide)]

/-- A signed value survives a detour through unsigned bits of its width. -/
@[simp] theorem castInt64_castUInt64 (value : Int) :
    castInt64 (castUInt64 value) = castInt64 value := by
  have wide : ((castUInt64 value : Nat) : Int) = value % 2 ^ 64 := by
    unfold castUInt64
    omega
  unfold castInt64
  rw [wide]
  exact Int.emod_bmod _ _

@[simp] theorem castInt32_castInt32 (value : Int) :
    castInt32 (castInt32 value) = castInt32 value := by
  have nothing := castInt32_castInt32_add value 0
  rwa [add_zero, add_zero] at nothing

/-- Storing in an `int` identifies exactly the numbers with equal low 32
bits. -/
theorem castInt32_eq_iff (first second : Int) :
    castInt32 first = castInt32 second ↔ first % 2 ^ 32 = second % 2 ^ 32 := by
  unfold castInt32
  rw [Int.bmod_def, Int.bmod_def]
  omega

/-- Below `2 ^ 32`, a stored number reads as another one only if it is that. -/
theorem castInt32_eq_natCast_iff_of_lt {held number : Nat} (small : held < 2 ^ 32) :
    castInt32 held = number ↔ held = number ∧ number < 2 ^ 31 := by
  unfold castInt32
  rw [Int.bmod_def]
  omega

/-- The low 32 bits survive a detour through 32 unsigned bits. -/
@[simp] theorem castInt32_castUInt32_add (value increment : Int) :
    castInt32 (castUInt32 value + increment) = castInt32 (value + increment) := by
  have wide : ((castUInt32 value : Nat) : Int) = value % 2 ^ 32 := by
    unfold castUInt32
    omega
  rw [castInt32_eq_iff, wide]
  omega

/-- The low 32 bits survive a detour through 32 signed bits. -/
@[simp] theorem castUInt32_castInt32 (value : Int) :
    castUInt32 (castInt32 value) = castUInt32 value := by
  unfold castUInt32 castInt32
  congr 1
  exact Int.bmod_emod

theorem castUInt32_natCast_of_lt {value : Nat} (bounded : value < 2 ^ 32) :
    castUInt32 value = value := by
  unfold castUInt32
  omega

theorem castUInt32_succ {value : Nat} (bounded : value + 1 < 2 ^ 32) :
    castUInt32 ((value : Int) + 1) = value + 1 :=
  castUInt32_natCast_of_lt bounded

theorem castUInt32_succ_ne (value : Nat) : castUInt32 ((value : Int) + 1) ≠ value := by
  unfold castUInt32
  omega

@[simp] theorem castUInt64_castUInt64_sub (value decrement : Int) :
    castUInt64 ((castUInt64 value : Nat) - decrement) = castUInt64 (value - decrement) := by
  have stored : ((castUInt64 value : Nat) : Int) = value % 2 ^ 64 := by
    unfold castUInt64
    omega
  rw [stored]
  unfold castUInt64
  rw [Int.emod_sub_emod]

theorem castUInt64_natCast_of_lt {value : Nat} (bounded : value < 2 ^ 64) :
    castUInt64 value = value := by
  unfold castUInt64
  omega

theorem castUInt64_eq_self (lower : 0 ≤ value) (upper : value < 2 ^ 64) :
    (castUInt64 value : Int) = value := by
  unfold castUInt64
  omega

/-- Storing a natural number in an `int` and widening the result to 64
unsigned bits keeps it exactly below the sign bit. -/
theorem castUInt64_castInt32_eq_iff {value : Nat} (bounded : value < 2 ^ 63) :
    castUInt64 (castInt32 value) = value ↔ value < 2 ^ 31 := by
  constructor
  · intro kept
    have range := castInt32_mem_range value
    unfold castUInt64 at kept
    omega
  · intro small
    rw [castInt32_eq_self (by omega) (by omega)]
    exact castUInt64_natCast_of_lt (by omega)

end Pika.Foundation
