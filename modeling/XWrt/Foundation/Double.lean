import Mathlib.Algebra.Group.Int.Defs
import Mathlib.Algebra.Group.Nat.Defs
import Mathlib.Algebra.Order.Monoid.Unbundled.WithTop
import Mathlib.Data.Nat.Log
import Mathlib.Order.WithBot

/-!
# Whole numbers in a double

A whole number that is kept in a double is rounded to 53 significant bits, to
even where two doubles are equally near, and becomes infinite from `2 ^ 1024`
on. Sums of small numbers are exact. Where the infinity is only compared and
added to, a natural number can stand for it.
-/

namespace XWrt.Foundation

/-- A whole double, not negative; `⊤` is the infinity. -/
abbrev Double := WithTop ℕ

namespace Double

/-- The nearest number with 53 significant bits. -/
def nearest (n : ℕ) : ℕ :=
  let unit := 2 ^ (n.log2 - 52)
  let below := n / unit
  let rest := n % unit
  let near := if unit < 2 * rest ∨ (unit = 2 * rest ∧ below % 2 = 1) then below + 1 else below
  near * unit

/-- The double that is nearest to a number. -/
def ofNat (n : ℕ) : Double := if (nearest n).log2 < 1024 then (nearest n : ℕ) else ⊤

def add : Double → Double → Double
  | some a, some b => ofNat (a + b)
  | _, _ => ⊤

example : ofNat (2 ^ 53 + 1) = (2 ^ 53 : ℕ) ∧ ofNat (2 ^ 53 + 3) = (2 ^ 53 + 4 : ℕ) := by decide +kernel

/-- The infinity among the natural numbers: the least number that rounds to it. -/
def infinity : ℕ := 2 ^ 1024

/-- The nearest double, as a natural number. -/
def round (n : ℕ) : ℕ := if (nearest n).log2 < 1024 then nearest n else infinity

/-- `round` of a number with a sign. -/
def roundInt : ℤ → ℤ
  | .ofNat n => round n
  | .negSucc n => -round (n + 1)

/-- No double is as large as this. -/
def isInfinite (x : ℤ) : Bool := 1024 ≤ x.natAbs.log2

/-- The number is a double. -/
def IsDouble (x : ℤ) : Prop := roundInt x = x

/-! ## Rounding -/

theorem nearest_of_dvd {n : ℕ} (aligned : 2 ^ (n.log2 - 52) ∣ n) : nearest n = n := by
  have rest : n % 2 ^ (n.log2 - 52) = 0 := Nat.mod_eq_zero_of_dvd aligned
  have positive := Nat.two_pow_pos (n.log2 - 52)
  have down : ¬(2 ^ (n.log2 - 52) < 2 * 0 ∨ 2 ^ (n.log2 - 52) = 2 * 0 ∧ n / 2 ^ (n.log2 - 52) % 2 = 1) := by omega
  rw [nearest, rest, if_neg down]
  exact Nat.div_mul_cancel aligned

theorem nearest_two_pow (e : ℕ) : nearest (2 ^ e) = 2 ^ e := by
  apply nearest_of_dvd
  rw [Nat.log2_two_pow]
  exact Nat.pow_dvd_pow 2 (Nat.sub_le _ _)

theorem nearest_exact {n : ℕ} (small : n ≤ 2 ^ 53) : nearest n = n := by
  rcases small.eq_or_lt with rfl | below
  · exact nearest_two_pow 53
  · apply nearest_of_dvd
    have bits : n.log2 - 52 = 0 := by
      rcases Nat.eq_zero_or_pos n with rfl | positive
      · decide
      · have := (Nat.log2_lt positive.ne').mpr below
        omega
    rw [bits]
    exact Nat.one_dvd n

/-- The digits that are kept, rounded up or down. -/
theorem nearest_eq (n : ℕ) : ∃ near, nearest n = near * 2 ^ (n.log2 - 52) ∧ n / 2 ^ (n.log2 - 52) ≤ near ∧
    near ≤ n / 2 ^ (n.log2 - 52) + 1 := by
  refine ⟨_, rfl, ?_⟩
  split <;> omega

theorem pow_log2_le_nearest {n : ℕ} (positive : n ≠ 0) : 2 ^ n.log2 ≤ nearest n := by
  by_cases narrow : n.log2 < 52
  · rw [nearest_exact (((Nat.log2_lt positive).mp narrow).le.trans (Nat.pow_le_pow_right (by decide) (by decide)))]
    exact Nat.log2_self_le positive
  · obtain ⟨near, same, least, -⟩ := nearest_eq n
    have split : 2 ^ n.log2 = 2 ^ 52 * 2 ^ (n.log2 - 52) := by rw [← Nat.pow_add, Nat.add_sub_cancel' (not_lt.mp narrow)]
    have kept : 2 ^ 52 ≤ n / 2 ^ (n.log2 - 52) := by
      rw [Nat.le_div_iff_mul_le (Nat.two_pow_pos _), ← split]
      exact Nat.log2_self_le positive
    rw [same, split]
    exact Nat.mul_le_mul_right _ (kept.trans least)

theorem nearest_le_pow (n : ℕ) : nearest n ≤ 2 ^ (n.log2 + 1) := by
  have upper : n < 2 ^ (n.log2 + 1) := Nat.lt_log2_self
  by_cases narrow : n.log2 < 52
  · rw [nearest_exact (upper.le.trans (Nat.pow_le_pow_right (by decide) (by omega)))]
    exact upper.le
  · obtain ⟨near, same, -, most⟩ := nearest_eq n
    have split : 2 ^ (n.log2 + 1) = 2 ^ 53 * 2 ^ (n.log2 - 52) := by
      rw [← Nat.pow_add]
      congr 1
      omega
    have kept : n / 2 ^ (n.log2 - 52) < 2 ^ 53 := by
      rw [Nat.div_lt_iff_lt_mul (Nat.two_pow_pos _), ← split]
      exact upper
    rw [same, split]
    exact Nat.mul_le_mul_right _ (most.trans kept)

theorem log2_mono {m n : ℕ} (order : m ≤ n) : m.log2 ≤ n.log2 := by
  rw [Nat.log2_eq_log_two, Nat.log2_eq_log_two]
  exact Nat.log_mono_right order

theorem nearest_mono {m n : ℕ} (order : m ≤ n) : nearest m ≤ nearest n := by
  rcases Nat.eq_zero_or_pos m with rfl | positive
  · rw [nearest_exact (Nat.zero_le _)]
    exact Nat.zero_le _
  rcases (log2_mono order).eq_or_lt with same | less
  · -- The same unit: compare the digits that are kept, then what is rounded.
    unfold nearest
    rw [← same]
    dsimp only
    apply Nat.mul_le_mul_right
    have kept : m / 2 ^ (m.log2 - 52) ≤ n / 2 ^ (m.log2 - 52) := Nat.div_le_div_right order
    have first := Nat.div_add_mod m (2 ^ (m.log2 - 52))
    have second := Nat.div_add_mod n (2 ^ (m.log2 - 52))
    rcases kept.eq_or_lt with equal | further
    · rw [equal] at first ⊢
      split_ifs <;> omega
    · split_ifs <;> omega
  · calc nearest m ≤ 2 ^ (m.log2 + 1) := nearest_le_pow m
      _ ≤ 2 ^ n.log2 := Nat.pow_le_pow_right (by decide) less
      _ ≤ nearest n := pow_log2_le_nearest (by omega)

theorem nearest_nearest (n : ℕ) : nearest (nearest n) = nearest n := by
  rcases Nat.eq_zero_or_pos n with rfl | positive
  · decide
  apply nearest_of_dvd
  have least := pow_log2_le_nearest positive.ne'
  have nonzero : nearest n ≠ 0 := (Nat.two_pow_pos _).trans_le least |>.ne'
  rcases (nearest_le_pow n).eq_or_lt with power | below
  · rw [power, Nat.log2_two_pow]
    exact Nat.pow_dvd_pow 2 (Nat.sub_le _ _)
  · have bits : (nearest n).log2 = n.log2 := by
      have := (Nat.log2_lt nonzero).mpr below
      have := (Nat.le_log2 nonzero).mpr least
      omega
    obtain ⟨near, same, -⟩ := nearest_eq n
    rw [bits, same]
    exact Nat.dvd_mul_left _ near

theorem finite_of_exact {n : ℕ} (small : n ≤ 2 ^ 53) : (nearest n).log2 < 1024 := by
  rw [nearest_exact small]
  have := log2_mono small
  rw [Nat.log2_two_pow] at this
  omega

theorem ofNat_exact {n : ℕ} (small : n < 2 ^ 53) : ofNat n = n := by
  rw [ofNat, if_pos (finite_of_exact small.le), nearest_exact small.le]

theorem add_exact {a b : ℕ} (small : a + b < 2 ^ 53) : add a b = (a + b : ℕ) := ofNat_exact small

theorem round_exact {n : ℕ} (small : n ≤ 2 ^ 53) : round n = n := by
  rw [round, if_pos (finite_of_exact small), nearest_exact small]

theorem round_infinity : round infinity = infinity := by
  have power : nearest infinity = infinity := nearest_two_pow _
  simp only [round, power, ite_self]

theorem le_two_pow_of_log2_lt {n e : ℕ} (small : n.log2 < e) : n ≤ 2 ^ e :=
  Nat.lt_log2_self.le.trans (Nat.pow_le_pow_right Nat.two_pos small)

theorem round_mono {m n : ℕ} (order : m ≤ n) : round m ≤ round n := by
  have near := nearest_mono order
  have bits := log2_mono near
  unfold round
  split_ifs with first second second
  · exact near
  · exact le_two_pow_of_log2_lt first
  · exact absurd (bits.trans_lt second) first
  · exact le_rfl

theorem round_round (n : ℕ) : round (round n) = round n := by
  by_cases finite : (nearest n).log2 < 1024
  · have here : round n = nearest n := if_pos finite
    rw [here, round, nearest_nearest, if_pos finite]
  · have here : round n = infinity := if_neg finite
    rw [here, round_infinity]

theorem isInfinite_of_lt {n : ℕ} (small : n < 2 ^ 53) : isInfinite n = false := by
  have bits := finite_of_exact small.le
  rw [nearest_exact small.le] at bits
  simpa [isInfinite] using bits

theorem roundInt_natCast (n : ℕ) : roundInt n = round n := rfl

theorem roundInt_neg_natCast (n : ℕ) : roundInt (-n) = -round n := by
  cases n with
  | zero => decide
  | succ n => rfl

theorem roundInt_exact {x : ℤ} (least : -2 ^ 53 ≤ x) (most : x ≤ 2 ^ 53) : roundInt x = x := by
  obtain ⟨n, rfl | rfl⟩ := Int.eq_nat_or_neg x
  · rw [roundInt_natCast, round_exact (by omega)]
  · rw [roundInt_neg_natCast, round_exact (by omega)]

theorem roundInt_mono {x y : ℤ} (order : x ≤ y) : roundInt x ≤ roundInt y := by
  obtain ⟨m, rfl | rfl⟩ := Int.eq_nat_or_neg x <;> obtain ⟨n, rfl | rfl⟩ := Int.eq_nat_or_neg y <;>
    simp only [roundInt_natCast, roundInt_neg_natCast]
  · exact_mod_cast round_mono (by omega)
  · -- A number that is not negative is at most one that is not positive: both are zero.
    obtain ⟨rfl, rfl⟩ : m = 0 ∧ n = 0 := by omega
    decide
  · omega
  · have := round_mono (m := n) (n := m) (by omega)
    omega

theorem isDouble_roundInt (x : ℤ) : IsDouble (roundInt x) := by
  unfold IsDouble
  obtain ⟨n, rfl | rfl⟩ := Int.eq_nat_or_neg x
  · rw [roundInt_natCast, roundInt_natCast, round_round]
  · rw [roundInt_neg_natCast, roundInt_neg_natCast, round_round]

theorem isDouble_of_small {x : ℤ} (least : -2 ^ 53 ≤ x) (most : x ≤ 2 ^ 53) : IsDouble x := roundInt_exact least most

theorem IsDouble.le_round {x y : ℤ} (double : IsDouble x) (order : x ≤ y) : x ≤ roundInt y := by
  have rounded := roundInt_mono order
  rwa [double] at rounded

theorem IsDouble.round_le {x y : ℤ} (double : IsDouble y) (order : x ≤ y) : roundInt x ≤ y := by
  have rounded := roundInt_mono order
  rwa [double] at rounded

/-! ## Quotients -/

/-- Twice the whole part of a quotient, and one more where it leaves a rest. Where the quotient has
more digits than a double keeps, this is rounded the way the exact quotient is. -/
def stickyQuotient (a b : ℕ) : ℕ := 2 * (a / b) + if a % b = 0 then 0 else 1

/-- The whole part of the double that is nearest to a quotient. -/
def divFloor (a b : ℕ) : ℕ :=
  let scale := b.log2 + 64
  nearest (stickyQuotient (a * 2 ^ scale) b) / 2 ^ (scale + 1)

example : divFloor 7 2 = 3 ∧ divFloor (2 ^ 60 - 1) (2 ^ 60) = 1 := by decide +kernel

theorem le_stickyQuotient {a b x : ℕ} (positive : 0 < b) (least : x * b ≤ a) : 2 * x ≤ stickyQuotient a b := by
  have whole : x ≤ a / b := (Nat.le_div_iff_mul_le positive).mpr least
  unfold stickyQuotient
  omega

theorem stickyQuotient_le {a b x : ℕ} (most : a ≤ x * b) : stickyQuotient a b ≤ 2 * x := by
  have whole : a / b ≤ x := Nat.div_le_of_le_mul (by rwa [Nat.mul_comm])
  unfold stickyQuotient
  split
  · omega
  · -- With a rest the whole part is smaller.
    rename_i rest
    have : a / b ≠ x := by
      rintro rfl
      have := Nat.div_add_mod' a b
      omega
    omega

theorem nearest_mul_two_pow {m : ℕ} (small : m ≤ 2 ^ 53) (e : ℕ) : nearest (m * 2 ^ e) = m * 2 ^ e := by
  rcases Nat.eq_zero_or_pos m with rfl | positive
  · rw [Nat.zero_mul, nearest_exact (Nat.zero_le _)]
  rcases small.eq_or_lt with rfl | below
  · rw [← Nat.pow_add, nearest_two_pow]
  · apply nearest_of_dvd
    have bits : (m * 2 ^ e).log2 - 52 ≤ e := by
      have fits : m * 2 ^ e < 2 ^ (53 + e) := by
        rw [Nat.pow_add]
        exact Nat.mul_lt_mul_of_pos_right below (Nat.two_pow_pos e)
      have := (Nat.log2_lt (Nat.mul_pos positive (Nat.two_pow_pos e)).ne').mpr fits
      omega
    exact Nat.dvd_mul_left_of_dvd (Nat.pow_dvd_pow 2 bits) m

/-- Between the quotient and the next whole number there is a double. -/
theorem divFloor_exact {a b k : ℕ} (positive : 0 < b) (small : b ≤ 2 ^ k) (fits : (a / b + 1) * 2 ^ k ≤ 2 ^ 53) :
    divFloor a b = a / b := by
  have width : k ≤ 53 :=
    (Nat.pow_le_pow_iff_right Nat.one_lt_two).mp ((Nat.le_mul_of_pos_left _ (Nat.succ_pos _)).trans fits)
  obtain ⟨e, scale⟩ : ∃ e, b.log2 + 64 = k + e := ⟨b.log2 + 64 - k, by omega⟩
  have split : 2 ^ (k + e + 1) = 2 ^ k * 2 ^ (e + 1) := by rw [Nat.add_assoc, Nat.pow_add]
  have least : a / b * 2 ^ (k + e + 1) ≤ stickyQuotient (a * 2 ^ (k + e)) b := by
    rw [Nat.pow_succ, ← Nat.mul_assoc, Nat.mul_comm _ 2]
    apply le_stickyQuotient positive
    rw [Nat.mul_right_comm]
    exact Nat.mul_le_mul_right _ (Nat.div_mul_le_self a b)
  have most : stickyQuotient (a * 2 ^ (k + e)) b ≤ ((a / b + 1) * 2 ^ k - 1) * 2 ^ (e + 1) := by
    rw [Nat.pow_succ, ← Nat.mul_assoc, Nat.mul_comm _ 2]
    apply stickyQuotient_le
    have next : a + 1 ≤ (a / b + 1) * b := Nat.lt_mul_of_div_lt (Nat.lt_succ_self _) positive
    calc a * 2 ^ (k + e) ≤ ((a / b + 1) * b - 1) * 2 ^ (k + e) := Nat.mul_le_mul_right _ (by omega)
      _ = ((a / b + 1) * b * 2 ^ k - 2 ^ k) * 2 ^ e := by
        rw [Nat.pow_add, ← Nat.mul_assoc, Nat.sub_mul _ _ (2 ^ k), Nat.one_mul]
      _ ≤ ((a / b + 1) * b * 2 ^ k - b) * 2 ^ e := Nat.mul_le_mul_right _ (by omega)
      _ = ((a / b + 1) * 2 ^ k - 1) * 2 ^ e * b := by
        rw [Nat.mul_right_comm _ _ b, Nat.sub_mul _ _ b, Nat.one_mul, Nat.mul_right_comm]
  unfold divFloor
  dsimp only
  rw [scale]
  have here : a / b * 2 ^ (k + e + 1) = a / b * 2 ^ k * 2 ^ (e + 1) := by rw [split, Nat.mul_assoc]
  apply Nat.div_eq_of_lt_le
  · have rounded := nearest_mono least
    rwa [here, nearest_mul_two_pow ((Nat.mul_le_mul_right _ (Nat.le_succ _)).trans fits), ← here] at rounded
  · have rounded := nearest_mono most
    rw [nearest_mul_two_pow ((Nat.sub_le _ _).trans fits)] at rounded
    refine rounded.trans_lt ?_
    rw [split, ← Nat.mul_assoc]
    have some : 0 < (a / b + 1) * 2 ^ k := Nat.mul_pos (Nat.succ_pos _) (Nat.two_pow_pos k)
    exact Nat.mul_lt_mul_of_pos_right (Nat.sub_lt some Nat.one_pos) (Nat.two_pow_pos _)

end Double

end XWrt.Foundation
