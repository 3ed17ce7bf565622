import Mathlib.Algebra.Order.Ring.Nat
import Mathlib.Data.List.Basic
import Mathlib.Tactic.Ring

/-!
# Numbers of a fixed width, the high byte first

The bytes of a number and the number of a list of bytes. Reading what was
written gives the number again, less what the width does not hold.
-/

namespace XWrt.Foundation.BigEndian

def digits : ℕ → ℕ → List UInt8
  | 0, _ => []
  | width + 1, n => UInt8.ofNat (n / 256 ^ width) :: digits width n

def value (bytes : List UInt8) : ℕ := bytes.foldl (fun high byte => 256 * high + byte.toNat) 0

@[simp]
theorem length_digits (width n : ℕ) : (digits width n).length = width := by
  induction width with
  | zero => rfl
  | succ width ih => rw [digits, List.length_cons, ih]

theorem foldl_digits (width n high : ℕ) :
    (digits width n).foldl (fun high byte => 256 * high + byte.toNat) high =
      256 ^ width * high + n % 256 ^ width := by
  induction width generalizing high with
  | zero => simp [digits, Nat.mod_one]
  | succ width ih =>
      have byte : (UInt8.ofNat (n / 256 ^ width)).toNat = n / 256 ^ width % 256 := UInt8.toNat_ofNat'
      rw [digits, List.foldl_cons, ih, byte, pow_succ, Nat.mod_mul]
      ring

theorem value_digits (width n : ℕ) : value (digits width n) = n % 256 ^ width := by
  rw [value, foldl_digits, mul_zero, zero_add]

@[simp]
theorem ofNat_value_digits_two (n : UInt16) : UInt16.ofNat (value (digits 2 n.toNat)) = n := by
  rw [value_digits, Nat.mod_eq_of_lt (by simpa using n.toNat_lt), UInt16.ofNat_toNat]

@[simp]
theorem ofNat_value_digits_four (n : UInt32) : UInt32.ofNat (value (digits 4 n.toNat)) = n := by
  rw [value_digits, Nat.mod_eq_of_lt (by simpa using n.toNat_lt), UInt32.ofNat_toNat]

end XWrt.Foundation.BigEndian
