import Mathlib.Algebra.Order.Floor.Div
import Mathlib.Tactic.Ring

/-!
# Integer arithmetic of a shell

`$((...))` computes with signed integers of 64 bits that wrap around; a division
drops the fraction, and one by zero is an error. Inside the range the results are
those of the integers.
-/

namespace XWrt.Foundation.ShellArithmetic

def wrap (x : ℤ) : ℤ := x.bmod (2 ^ 64)

def add (x y : ℤ) : ℤ := wrap (x + y)

def sub (x y : ℤ) : ℤ := wrap (x - y)

def mul (x y : ℤ) : ℤ := wrap (x * y)

def div (x y : ℤ) : Option ℤ := if y = 0 then none else some (wrap (x.tdiv y))

/-- The integers of 64 bits. -/
def InRange (x : ℤ) : Prop := -2 ^ 63 ≤ x ∧ x < 2 ^ 63

theorem inRange_wrap (x : ℤ) : InRange (wrap x) := by
  have low := @Int.le_bmod x (2 ^ 64) (by decide)
  have high := @Int.bmod_lt x (2 ^ 64) (by decide)
  refine ⟨?_, ?_⟩
  · rw [wrap]
    omega
  · rw [wrap]
    omega

theorem wrap_of_inRange {x : ℤ} (inside : InRange x) : wrap x = x := by
  obtain ⟨low, high⟩ := inside
  exact Int.bmod_eq_of_le (by omega) (by omega)

theorem add_of_inRange {x y : ℤ} (inside : InRange (x + y)) : add x y = x + y := wrap_of_inRange inside

theorem sub_of_inRange {x y : ℤ} (inside : InRange (x - y)) : sub x y = x - y := wrap_of_inRange inside

theorem mul_of_inRange {x y : ℤ} (inside : InRange (x * y)) : mul x y = x * y := wrap_of_inRange inside

/-- Two factors are one. -/
theorem mul_mul (x y z : ℤ) : mul (mul x y) z = wrap (x * (y * z)) := by
  rw [mul, mul, wrap, wrap, wrap, Int.bmod_mul_bmod, mul_assoc]

/-- A quotient by a positive number stays in the range. -/
theorem inRange_tdiv {x : ℤ} (inside : InRange x) {y : ℤ} (positive : 0 < y) : InRange (x.tdiv y) := by
  obtain ⟨low, high⟩ := inside
  have small : (x.tdiv y).natAbs ≤ x.natAbs := by
    rw [Int.natAbs_tdiv]
    exact Nat.div_le_self ..
  have sign : 0 ≤ x → 0 ≤ x.tdiv y := fun nonneg => Int.tdiv_nonneg nonneg positive.le
  have negative : 0 ≤ -x → 0 ≤ (-x).tdiv y := fun nonneg => Int.tdiv_nonneg nonneg positive.le
  rw [Int.neg_tdiv] at negative
  refine ⟨?_, ?_⟩
  · omega
  · omega

theorem div_of_pos {x : ℤ} (inside : InRange x) {y : ℤ} (positive : 0 < y) : div x y = some (x.tdiv y) := by
  rw [div, if_neg positive.ne', wrap_of_inRange (inRange_tdiv inside positive)]

theorem div_natCast {n : ℕ} (inside : InRange n) {step : ℕ} (positive : 0 < step) : div n step = some ((n / step : ℕ) : ℤ) := by
  rw [div_of_pos inside (by omega), Int.ofNat_tdiv]

/-! ## Rounding up -/

theorem le_ceilDiv_mul {step : ℕ} (positive : 0 < step) (n : ℕ) : n ≤ n ⌈/⌉ step * step := by
  rw [mul_comm]
  exact le_smul_ceilDiv positive

theorem ceilDiv_mul_lt {step : ℕ} (positive : 0 < step) (n : ℕ) : n ⌈/⌉ step * step < n + step := by
  rw [Nat.ceilDiv_eq_add_pred_div]
  have whole := Nat.div_mul_le_self (n + step - 1) step
  omega

/-- Whole steps in front of a number round up on their own. -/
theorem mul_add_ceilDiv {step : ℕ} (positive : 0 < step) (steps n : ℕ) : (steps * step + n) ⌈/⌉ step = steps + n ⌈/⌉ step := by
  rw [Nat.ceilDiv_eq_add_pred_div, Nat.ceilDiv_eq_add_pred_div, Nat.add_assoc, Nat.add_sub_assoc (by omega), Nat.add_comm,
    Nat.add_mul_div_right _ _ positive, Nat.add_comm]

end XWrt.Foundation.ShellArithmetic
