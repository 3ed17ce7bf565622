import Mathlib.Data.Nat.Bitwise
import Mathlib.Algebra.Order.Ring.Int
import Mathlib.Data.List.Basic
import XWrt.Foundation.Double

/-!
# Arithmetic bit operations

Lua 5.1 has no bit operators. `ipops.lua` builds each result from its 32 bits,
highest first, and reads a bit with a floored division and a remainder. On
natural numbers the operations are the usual ones cut to 32 bits. All of this is
exact on doubles; the remainder of the infinity is no number and equals none.
-/

namespace XWrt.Ipops

open XWrt.Foundation

/-- `_lshift`. -/
def lshift (a : Int) (i : Nat) : Int := a * 2 ^ i

/-- `_rshift`: a floored division. -/
def rshift (a : Int) (i : Nat) : Int := a / 2 ^ i

/-- The loop shared by the bit operations: append one bit for each `i` from 0 to
31, where `keep` tells whether the bit at the given position is set. -/
def collectBits (keep : Nat → Bool) : Int :=
  (List.range 32).foldl (fun r i => if keep (31 - i) then r * 2 + 1 else r * 2) 0

/-- `_band`. -/
def band (a b : Int) : Int :=
  collectBits fun i => rshift a i % 2 == 1 && rshift b i % 2 == 1

/-- `_bor`. -/
def bor (a b : Int) : Int :=
  collectBits fun i => rshift a i % 2 == 1 || rshift b i % 2 == 1

/-- `_bnot`. Of the infinity no bit is 0. -/
def bnot (a : Int) : Int :=
  collectBits fun i => !Double.isInfinite a && rshift a i % 2 == 0

/-- `cidr2int`: the netmask of a prefix length. -/
def cidr2int (cidr : Nat) : Int :=
  if cidr = 0 then 0
  else (List.range cidr).foldl (fun x i => x + lshift 1 (31 - i)) 0

/-! ## The bit loop -/

theorem collectLoop_eq_ofBits (width : Nat) (keep : Nat → Bool) :
    (List.range width).foldl (fun (r : Int) i => if keep (width - 1 - i) then r * 2 + 1 else r * 2) 0 =
      (Nat.ofBits fun i : Fin width => keep i : Nat) := by
  induction width generalizing keep with
  | zero => rfl
  | succ width ih =>
      have shifted : (List.range width).foldl
          (fun (r : Int) i => if keep (width + 1 - 1 - i) then r * 2 + 1 else r * 2) 0 =
          (List.range width).foldl
            (fun (r : Int) i => if keep (width - 1 - i + 1) then r * 2 + 1 else r * 2) 0 := by
        apply List.foldl_ext
        intro r i member
        have bound := List.mem_range.mp member
        rw [show width + 1 - 1 - i = width - 1 - i + 1 by omega]
      rw [List.range_succ, List.foldl_append, shifted, ih (fun i => keep (i + 1)), Nat.ofBits_succ]
      simp only [List.foldl_cons, List.foldl_nil, Nat.add_sub_cancel, Nat.sub_self, Function.comp_def,
        Fin.val_succ, Fin.val_zero]
      cases keep 0 <;> simp [Int.mul_comm]

theorem collectBits_eq_ofBits (keep : Nat → Bool) :
    collectBits keep = (Nat.ofBits fun i : Fin 32 => keep i : Nat) :=
  collectLoop_eq_ofBits 32 keep

theorem band_nonneg (a b : Int) : 0 ≤ band a b := by
  rw [band, collectBits_eq_ofBits]
  exact Int.natCast_nonneg _

theorem band_lt (a b : Int) : band a b < 2 ^ 32 := by
  rw [band, collectBits_eq_ofBits]
  exact_mod_cast Nat.ofBits_lt_two_pow _

theorem bor_nonneg (a b : Int) : 0 ≤ bor a b := by
  rw [bor, collectBits_eq_ofBits]
  exact Int.natCast_nonneg _

theorem bor_lt (a b : Int) : bor a b < 2 ^ 32 := by
  rw [bor, collectBits_eq_ofBits]
  exact_mod_cast Nat.ofBits_lt_two_pow _

theorem rshift_natCast (a i : Nat) : rshift a i = (a >>> i : Nat) := by
  rw [rshift, Nat.shiftRight_eq_div_pow]
  push_cast
  rfl

/-- Reading one bit of a natural number is `Nat.testBit`. -/
theorem rshift_mod_two (a i : Nat) : rshift a i % 2 = (a.testBit i).toNat := by
  rw [rshift_natCast, Nat.toNat_testBit, Nat.shiftRight_eq_div_pow]
  push_cast
  rfl

theorem rshift_bit_one (a i : Nat) : (rshift a i % 2 == 1) = a.testBit i := by
  rw [rshift_mod_two]
  cases a.testBit i <;> rfl

theorem rshift_bit_zero (a i : Nat) : (rshift a i % 2 == 0) = !a.testBit i := by
  rw [rshift_mod_two]
  cases a.testBit i <;> rfl

theorem band_natCast (a b : Nat) : band a b = ((a &&& b) % 2 ^ 32 : Nat) := by
  simp only [band, collectBits_eq_ofBits, rshift_bit_one]
  rw [← Nat.ofBits_testBit]
  simp only [Nat.testBit_and]

theorem bor_natCast (a b : Nat) : bor a b = ((a ||| b) % 2 ^ 32 : Nat) := by
  simp only [bor, collectBits_eq_ofBits, rshift_bit_one]
  rw [← Nat.ofBits_testBit]
  simp only [Nat.testBit_or]

theorem bnot_natCast (a : Nat) (bound : a < 2 ^ 32) : bnot a = (2 ^ 32 - 1 - a : Nat) := by
  have finite : Double.isInfinite a = false := Double.isInfinite_of_lt (bound.trans_le (by decide))
  simp only [bnot, collectBits_eq_ofBits, rshift_bit_zero, finite, Bool.not_false, Bool.true_and]
  congr 1
  apply Nat.eq_of_testBit_eq
  intro i
  rw [show 2 ^ 32 - 1 - a = 2 ^ 32 - (a + 1) by omega, Nat.testBit_two_pow_sub_succ bound]
  by_cases inside : i < 32
  · simp [inside]
  · simp [inside, Nat.testBit_ofBits]

/-! ## Netmasks -/

/-- The netmask of length `cidr` is everything but the low `32 - cidr` bits. -/
theorem cidr2int_eq (cidr : Nat) (bound : cidr ≤ 32) :
    cidr2int cidr = (2 ^ 32 - 2 ^ (32 - cidr) : Nat) := by
  have loop : ∀ n ≤ 32, (List.range n).foldl (fun x i => x + lshift 1 (31 - i)) 0 =
      (2 ^ 32 - 2 ^ (32 - n) : Nat) := by
    intro n
    induction n with
    | zero => intro _; rfl
    | succ n ih =>
        intro small
        rw [List.range_succ, List.foldl_append, ih (by omega)]
        simp only [List.foldl_cons, List.foldl_nil, lshift, one_mul]
        have split : 2 ^ (32 - n) = 2 * 2 ^ (31 - n) := by
          rw [show 32 - n = 31 - n + 1 by omega, pow_succ, mul_comm]
        have below : 2 ^ (31 - n) ≤ 2 ^ 31 := Nat.pow_le_pow_right (by decide) (by omega)
        have power : ((2 ^ (31 - n) : Nat) : Int) = 2 ^ (31 - n) := by push_cast; rfl
        rw [show 32 - (n + 1) = 31 - n by omega, split, ← power]
        omega
  unfold cidr2int
  split
  · next zero => rw [zero]; rfl
  · exact loop cidr bound

/-- Clearing the host bits rounds an address down to its block. -/
theorem and_netmask (x k : Nat) (xBound : x < 2 ^ 32) (kBound : k ≤ 32) :
    x &&& (2 ^ 32 - 2 ^ k) = 2 ^ k * (x / 2 ^ k) := by
  have pos : 0 < 2 ^ k := Nat.two_pow_pos k
  apply Nat.eq_of_testBit_eq
  intro i
  have mask : 2 ^ 32 - 2 ^ k = 2 ^ 32 - (2 ^ k - 1 + 1) := by omega
  have below : 2 ^ k ≤ 2 ^ 32 := Nat.pow_le_pow_right (by decide) kBound
  rw [Nat.testBit_and, mask, Nat.testBit_two_pow_sub_succ (by omega), Nat.testBit_two_pow_sub_one,
    Nat.testBit_two_pow_mul, Nat.testBit_div_two_pow]
  by_cases high : k ≤ i
  · rw [show i - k + k = i by omega]
    by_cases wide : i < 32
    · simp [high, wide]
    · have clear : x.testBit i = false :=
        Nat.testBit_lt_two_pow (xBound.trans_le (Nat.pow_le_pow_right (by decide) (by omega)))
      simp [clear]
  · simp [high, show i < k by omega]

/-- `_band` with a netmask gives the first address of the block of `x`. -/
theorem band_cidr2int (x cidr : Nat) (xBound : x < 2 ^ 32) (bound : cidr ≤ 32) :
    band x (cidr2int cidr) = (2 ^ (32 - cidr) * (x / 2 ^ (32 - cidr)) : Nat) := by
  rw [cidr2int_eq cidr bound, band_natCast, and_netmask x _ xBound (by omega), Nat.mod_eq_of_lt]
  exact (Nat.mul_div_le x _).trans_lt xBound

theorem bnot_cidr2int (cidr : Nat) (bound : cidr ≤ 32) :
    bnot (cidr2int cidr) = (2 ^ (32 - cidr) - 1 : Nat) := by
  have pos : 0 < 2 ^ (32 - cidr) := Nat.two_pow_pos _
  have below : 2 ^ (32 - cidr) ≤ 2 ^ 32 := Nat.pow_le_pow_right (by decide) (by omega)
  rw [cidr2int_eq cidr bound, bnot_natCast _ (by omega)]
  congr 1
  omega

/-- Filling the host bits of an aligned address gives the last address of its block. -/
theorem bor_hostmask (q k : Nat) (fits : 2 ^ k * q + 2 ^ k ≤ 2 ^ 32) :
    bor (2 ^ k * q : Nat) (2 ^ k - 1 : Nat) = (2 ^ k * q + (2 ^ k - 1) : Nat) := by
  have pos : 0 < 2 ^ k := Nat.two_pow_pos k
  rw [bor_natCast, ← Nat.two_pow_add_eq_or_of_lt (by omega), Nat.mod_eq_of_lt (by omega)]

end XWrt.Ipops
