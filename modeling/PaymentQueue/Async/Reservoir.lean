import Mathlib.Algebra.Order.Field.Basic
import Mathlib.Tactic.Linarith
import Mathlib.Tactic.Ring

/-!
# PaymentQueue.Async.Reservoir

A **reservoir**: a level that rises at a rate at every instant, and overflows at a capacity.

It does not matter at which instants its level is worked out, as the law of `fill` says
(`fill_add`).
-/

namespace PaymentQueue.Async

/-- A level under a capacity, and the rate at which it rises. -/
structure Reservoir (F : Type) [LinearOrder F] where
  level : F
  capacity : F
  rate : F
  level_le : level ≤ capacity

namespace Reservoir

variable {F : Type} [Field F] [LinearOrder F] (b : Reservoir F)

/-- After some time. -/
def fill (d : F) : Reservoir F :=
  { b with
    level := min b.capacity (b.level + d * b.rate)
    level_le := min_le_left _ _ }

/-- Something is taken out, or put in if it is negative. -/
def draw (x : F) : Reservoir F :=
  { b with
    level := min b.capacity (b.level - x)
    level_le := min_le_left _ _ }

/-- Another capacity and rate are in force. -/
def refit (capacity rate : F) : Reservoir F where
  level := min capacity b.level
  capacity := capacity
  rate := rate
  level_le := min_le_left _ _

@[simp] theorem fill_capacity (d : F) : (b.fill d).capacity = b.capacity := rfl

@[simp] theorem fill_rate (d : F) : (b.fill d).rate = b.rate := rfl

@[simp] theorem fill_zero : b.fill 0 = b := by
  simp [fill, b.level_le]

variable [IsStrictOrderedRing F]

/-- The level rises to the same height in one go or in two. -/
theorem min_add_min {capacity level rate d e : F} (hlevel : level ≤ capacity) (hd : 0 ≤ d)
    (he : 0 ≤ e) :
    min capacity (min capacity (level + d * rate) + e * rate) =
      min capacity (level + (d + e) * rate) := by
  rcases le_or_gt (level + d * rate) capacity with hle | hgt
  · rw [min_eq_right hle]
    ring_nf
  · -- it overflows by then, so the rate is positive
    have hrate : 0 ≤ rate := by
      by_contra hneg
      have := mul_nonpos_of_nonneg_of_nonpos hd (not_le.mp hneg).le
      linarith
    have hrise := mul_nonneg he hrate
    have hsum : level + (d + e) * rate = level + d * rate + e * rate := by ring
    rw [min_eq_left hgt.le, min_eq_left (by linarith), min_eq_left (by rw [hsum]; linarith)]

theorem fill_add {d e : F} (hd : 0 ≤ d) (he : 0 ≤ e) :
    (b.fill d).fill e = b.fill (d + e) := by
  simp only [fill, mk.injEq, and_true]
  exact min_add_min b.level_le hd he

end Reservoir

end PaymentQueue.Async
