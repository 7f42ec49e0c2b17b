import Mathlib

/-!
# Instants

Instants of a clock are the elements of an ordered field with a floor, counted in seconds: the
rationals where something has to be computed, the reals where that is the natural reading.
`truncInt` is the integer part of a number of seconds, rounded towards zero.
-/

/-- A time line: an ordered field with a floor.  One unit is one second. -/
class Instant (T : Type) extends Field T, LinearOrder T, IsStrictOrderedRing T, FloorRing T

instance : Instant ℚ where

noncomputable instance : Instant ℝ where

namespace Instant

variable {T : Type} [Instant T]

/-- The integer part of `x`, rounded towards zero. -/
def truncInt (x : T) : ℤ := if 0 ≤ x then ⌊x⌋ else ⌈x⌉

/-- `int()` of a non-negative number rounds down. -/
theorem truncInt_of_nonneg {x : T} (h : 0 ≤ x) : truncInt x = ⌊x⌋ := if_pos h

@[simp] theorem truncInt_intCast (n : ℤ) : truncInt (n : T) = n := by
  unfold truncInt
  split <;> simp

/-- The integer part is positive exactly from one second on. -/
theorem truncInt_pos {x : T} : 0 < truncInt x ↔ 1 ≤ x := by
  unfold truncInt
  split
  · rw [Int.floor_pos]
  · rename_i h
    have hx : x < 0 := not_le.mp h
    constructor
    · intro hc
      have : ⌈x⌉ ≤ 0 := Int.ceil_le.mpr (by simpa using hx.le)
      omega
    · intro h1
      linarith

/-- A positive integer part is the floor. -/
theorem truncInt_eq_floor {x : T} (h : 0 < truncInt x) : truncInt x = ⌊x⌋ :=
  truncInt_of_nonneg (le_trans zero_le_one (truncInt_pos.mp h))

/-- `int()` of a positive lifetime does not exceed it. -/
theorem truncInt_le {x : T} (h : 0 < truncInt x) : (truncInt x : T) ≤ x := by
  rw [truncInt_eq_floor h]
  exact Int.floor_le x

/-- The integer part of the time left until a whole second loses nothing exactly when it is taken
on a whole second. -/
theorem truncInt_sub_eq_iff {n : ℤ} {t : T} (h : 0 < truncInt ((n : T) - t)) :
    (n : T) ≤ t + truncInt ((n : T) - t) ↔ ∃ m : ℤ, t = m := by
  constructor
  · intro hle
    have heq : t = ((n - truncInt ((n : T) - t) : ℤ) : T) := by
      have := truncInt_le h
      push_cast
      linarith
    exact ⟨_, heq⟩
  · rintro ⟨m, rfl⟩
    rw [← Int.cast_sub, truncInt_intCast]
    push_cast
    linarith

end Instant
