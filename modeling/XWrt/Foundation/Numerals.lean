import Mathlib.Data.Nat.Digits.Lemmas
import Mathlib.Tactic.Ring

/-!
# Numerals

Digits of a number in a large base, built up by multiplying and adding, and
texts of digits: with leading zeros, put together from blocks, and read back.
-/

namespace XWrt.Foundation.Numerals

/-! ## Multiply and add -/

/-- The digits of `n * factor + carry` from those of `n`, lowest first. -/
def mulAdd (base factor : Nat) : List Nat → Nat → List Nat
  | [], carry => Nat.digits base carry
  | digit :: rest, carry =>
      (digit * factor + carry) % base :: mulAdd base factor rest ((digit * factor + carry) / base)

theorem mulAdd_digits {base factor : Nat} (large : 1 < base) (positive : 0 < factor) (n carry : Nat) :
    mulAdd base factor (Nat.digits base n) carry = Nat.digits base (n * factor + carry) := by
  induction n using Nat.strong_induction_on generalizing carry with
  | _ n ih =>
      rcases Nat.eq_zero_or_pos n with rfl | some
      · simp [mulAdd]
      · have smaller : n / base < n := Nat.div_lt_self some large
        have total : n * factor + carry = (n % base * factor + carry) + base * (n / base * factor) := by
          conv_lhs => rw [← Nat.mod_add_div n base]
          ring
        have result : 0 < n * factor + carry := Nat.add_pos_left (Nat.mul_pos some positive) _
        rw [Nat.digits_def' large some, mulAdd, ih _ smaller, Nat.digits_def' large result]
        congr 1
        · rw [total, Nat.add_mul_mod_self_left]
        · rw [total, Nat.add_mul_div_left _ _ (Nat.zero_lt_of_lt large), Nat.add_comm]

/-! ## Highest digit first -/

/-- The number with these digits, the highest first. -/
def fromHigh (base : Nat) (digits : List Nat) : Nat := Nat.ofDigits base digits.reverse

theorem fromHigh_concat (base : Nat) (digits : List Nat) (last : Nat) :
    fromHigh base (digits ++ [last]) = last + base * fromHigh base digits := by
  rw [fromHigh, List.reverse_concat, Nat.ofDigits_cons]
  rfl

/-- Division by a power of the base leaves the digits in front. -/
theorem fromHigh_div {base : Nat} (positive : 0 < base) {digits : List Nat} (small : ∀ digit ∈ digits, digit < base)
    (low : Nat) : fromHigh base digits / base ^ low = fromHigh base (digits.take (digits.length - low)) := by
  have reversed : ∀ digit ∈ digits.reverse, digit < base := fun digit member => small digit (List.mem_reverse.mp member)
  rw [fromHigh, Nat.ofDigits_div_pow_eq_ofDigits_drop low positive _ reversed, List.drop_reverse]
  rfl

theorem fromHigh_inj {base : Nat} (large : 1 < base) {first second : List Nat} (same : first.length = second.length)
    (smallFirst : ∀ digit ∈ first, digit < base) (smallSecond : ∀ digit ∈ second, digit < base) :
    fromHigh base first = fromHigh base second ↔ first = second := by
  constructor
  · intro equal
    apply List.reverse_injective
    apply Nat.ofDigits_inj_of_len_eq large _ _ _ equal
    · rw [List.length_reverse, List.length_reverse, same]
    · exact fun digit member => smallFirst digit (List.mem_reverse.mp member)
    · exact fun digit member => smallSecond digit (List.mem_reverse.mp member)
  · rintro rfl
    rfl

/-- Each digit of a number from its division by a power of the base, lowest first. -/
theorem map_ofDigits_div_mod {base : Nat} (positive : 0 < base) {digits : List Nat} (small : ∀ digit ∈ digits, digit < base) :
    (List.range digits.length).map (fun i => Nat.ofDigits base digits / base ^ i % base) = digits := by
  apply List.ext_getElem
  · simp
  · intro i _ inside
    have digit : digits[i] < base := small _ (List.getElem_mem inside)
    rw [List.getElem_map, List.getElem_range, Nat.ofDigits_div_pow_eq_ofDigits_drop i positive digits small,
      List.drop_eq_getElem_cons inside, Nat.ofDigits_cons, Nat.add_mul_mod_self_left, Nat.mod_eq_of_lt digit]

/-! ## Texts of digits -/

/-- The last `width` digits of a number. -/
def fixedDigits (base : Nat) : Nat → Nat → List Char
  | 0, _ => []
  | width + 1, n => fixedDigits base width (n / base) ++ [(n % base).digitChar]

theorem fixedDigits_zero (base width : Nat) : fixedDigits base width 0 = List.replicate width '0' := by
  induction width with
  | zero => rfl
  | succ width ih =>
      rw [fixedDigits, Nat.zero_div, ih, Nat.zero_mod, List.replicate_succ']
      rfl

theorem leftpad_concat {α : Type*} (width : Nat) (zero last : α) (text : List α) :
    (text ++ [last]).leftpad (width + 1) zero = text.leftpad width zero ++ [last] := by
  simp [List.leftpad]

/-- A number with leading zeros. -/
theorem leftpad_toDigits {base : Nat} (large : 1 < base) (width : Nat) {n : Nat} (short : n < base ^ (width + 1)) :
    (Nat.toDigits base n).leftpad (width + 1) '0' = fixedDigits base (width + 1) n := by
  induction width generalizing n with
  | zero =>
      rw [Nat.zero_add, Nat.pow_one] at short
      rw [Nat.toDigits_of_lt_base short, fixedDigits, fixedDigits, Nat.mod_eq_of_lt short]
      rfl
  | succ width ih =>
      rw [fixedDigits]
      rcases Nat.lt_or_ge n base with single | long
      · rw [Nat.toDigits_of_lt_base single, Nat.div_eq_of_lt single, Nat.mod_eq_of_lt single, fixedDigits_zero,
          ← List.nil_append [n.digitChar], leftpad_concat]
        simp [List.leftpad]
      · rw [Nat.toDigits_of_base_le large long, leftpad_concat, ih (Nat.div_lt_of_lt_mul (by rwa [← Nat.pow_succ']))]

/-- A number is its upper part, followed by its last digits with leading zeros. -/
theorem toDigits_append_fixedDigits {base : Nat} (large : 1 < base) {upper : Nat} (positive : 0 < upper) (width : Nat)
    {lower : Nat} (short : lower < base ^ width) :
    Nat.toDigits base (upper * base ^ width + lower) = Nat.toDigits base upper ++ fixedDigits base width lower := by
  induction width generalizing lower with
  | zero =>
      obtain rfl : lower = 0 := by simpa using short
      simp [fixedDigits]
  | succ width ih =>
      have narrow : lower / base < base ^ width := Nat.div_lt_of_lt_mul (by rwa [← Nat.pow_succ'])
      have last : lower % base < base := Nat.mod_lt _ (Nat.zero_lt_of_lt large)
      have some : 0 < upper * base ^ width + lower / base :=
        Nat.add_pos_left (Nat.mul_pos positive (Nat.pow_pos (Nat.zero_lt_of_lt large))) _
      have split : upper * base ^ (width + 1) + lower = base * (upper * base ^ width + lower / base) + lower % base := by
        conv_lhs => rw [← Nat.div_add_mod lower base]
        ring
      rw [split, ← Nat.toDigits_append_toDigits large some last, ih narrow, Nat.toDigits_of_lt_base last, fixedDigits,
        List.append_assoc]

theorem exists_of_mem_toDigits {base : Nat} (large : 1 < base) {n : Nat} {char : Char} (inside : char ∈ Nat.toDigits base n) :
    ∃ digit, digit < base ∧ char = digit.digitChar := by
  induction n using Nat.strong_induction_on with
  | _ n ih =>
      rcases Nat.lt_or_ge n base with single | long
      · rw [Nat.toDigits_of_lt_base single, List.mem_singleton] at inside
        exact ⟨n, single, inside⟩
      · rw [Nat.toDigits_of_base_le large long, List.mem_append, List.mem_singleton] at inside
        rcases inside with upper | last
        · exact ih _ (Nat.div_lt_self (Nat.zero_lt_of_lt (Nat.lt_of_lt_of_le large long)) large) upper
        · exact ⟨n % base, Nat.mod_lt _ (Nat.zero_lt_of_lt large), last⟩

theorem digitChar_injective : ∀ first second : Fin 16, first.val.digitChar = second.val.digitChar → first = second := by
  decide

/-- Different numbers have different texts. -/
theorem toDigits_injective {base : Nat} (large : 1 < base) (known : base ≤ 16) : Function.Injective (Nat.toDigits base) := by
  have digit : ∀ first second, first < base → second < base → first.digitChar = second.digitChar → first = second :=
    fun first second below below' same => congrArg Fin.val
      (digitChar_injective ⟨first, below.trans_le known⟩ ⟨second, below'.trans_le known⟩ same)
  have last : ∀ n, n % base < base := fun n => Nat.mod_lt n (Nat.zero_lt_of_lt large)
  intro first
  induction first using Nat.strong_induction_on with
  | _ first ih =>
      intro second same
      rcases Nat.lt_or_ge first base with single | long
      · rcases Nat.lt_or_ge second base with single' | long'
        · rw [Nat.toDigits_of_lt_base single, Nat.toDigits_of_lt_base single'] at same
          exact digit _ _ single single' (List.singleton_inj.mp same)
        · rw [Nat.toDigits_of_lt_base single, Nat.toDigits_of_base_le large long'] at same
          exact absurd (congrArg List.length same) (by simp [Nat.toDigits_ne_nil])
      · rcases Nat.lt_or_ge second base with single' | long'
        · rw [Nat.toDigits_of_lt_base single', Nat.toDigits_of_base_le large long] at same
          exact absurd (congrArg List.length same) (by simp [Nat.toDigits_ne_nil])
        · rw [Nat.toDigits_of_base_le large long, Nat.toDigits_of_base_le large long'] at same
          obtain ⟨upper, lower⟩ := List.append_inj' same rfl
          have quotient := ih _ (Nat.div_lt_self (Nat.zero_lt_of_lt (Nat.lt_of_lt_of_le large long)) large) upper
          have remainder := digit _ _ (last first) (last second) (List.singleton_inj.mp lower)
          rw [← Nat.div_add_mod first base, ← Nat.div_add_mod second base, quotient, remainder]

theorem exists_digitChar {char : Char} (digit : char.isDigit = true) : ∃ n < 10, char = n.digitChar := by
  obtain ⟨low, high⟩ := Char.isDigit_iff_toNat.mp digit
  have zero : '0'.toNat = 48 := rfl
  have nine : '9'.toNat = 57 := rfl
  have table : ∀ n : Fin 10, n.val.digitChar.toNat = 48 + n.val := by decide
  refine ⟨char.toNat - 48, by omega, Char.toNat_inj.mp ?_⟩
  exact (Nat.add_sub_of_le low).symm.trans (table ⟨char.toNat - 48, by omega⟩).symm

/-- Digits are those of the number they make, with the leading zeros. -/
theorem fixedDigits_ofDigitChars {text : List Char} (digits : ∀ char ∈ text, char.isDigit = true) :
    Nat.ofDigitChars 10 text 0 < 10 ^ text.length ∧ fixedDigits 10 text.length (Nat.ofDigitChars 10 text 0) = text := by
  induction text using List.reverseRecOn with
  | nil => exact ⟨Nat.one_pos, rfl⟩
  | append_singleton front last ih =>
      rw [List.forall_mem_append, List.forall_mem_singleton] at digits
      obtain ⟨n, small, rfl⟩ := exists_digitChar digits.2
      obtain ⟨below, same⟩ := ih digits.1
      have value : Nat.ofDigitChars 10 (front ++ [n.digitChar]) 0 = 10 * Nat.ofDigitChars 10 front 0 + n := by
        rw [Nat.ofDigitChars_append, Nat.ofDigitChars_cons_digitChar_of_lt_ten small, Nat.ofDigitChars_nil]
      rw [value, List.length_append, List.length_singleton, Nat.pow_succ]
      refine ⟨by omega, ?_⟩
      rw [fixedDigits, Nat.mul_add_div (by decide), Nat.div_eq_of_lt small, Nat.add_zero, same, Nat.mul_add_mod, Nat.mod_eq_of_lt small]

/-! ## Sections of a record -/

/-- A record put together from parts has each part at the sum of the lengths before it. -/
theorem take_drop_flatten {α : Type*} {parts : List (List α)} {i : Nat} {part : List α} (here : parts[i]? = some part) :
    (parts.flatten.drop ((parts.map List.length).take i).sum).take part.length = part := by
  obtain ⟨inside, rfl⟩ := List.getElem?_eq_some_iff.mp here
  have split : parts = parts.take i ++ parts[i] :: parts.drop (i + 1) := by
    rw [List.getElem_cons_drop, List.take_append_drop]
  have whole : parts.flatten = (parts.take i).flatten ++ (parts[i] ++ (parts.drop (i + 1)).flatten) := by
    conv_lhs => rw [split]
    rw [List.flatten_append, List.flatten_cons]
  rw [whole, ← List.map_take, ← List.length_flatten, List.drop_left, List.take_left]

/-- The same when all parts have one width. -/
theorem take_drop_flatMap {α β : Type*} {part : α → List β} {width : Nat} (same : ∀ item, (part item).length = width)
    {items : List α} {i : Nat} {item : α} (here : items[i]? = some item) :
    ((items.flatMap part).drop (i * width)).take width = part item := by
  have inside : i < items.length := (List.getElem?_eq_some_iff.mp here).1
  have found : (items.map part)[i]? = some (part item) := by rw [List.getElem?_map, here, Option.map_some]
  have lengths : (items.map part).map List.length = List.replicate items.length width := by
    rw [List.map_map, ← List.map_const']
    exact List.map_congr_left fun item _ => same item
  have start : (List.replicate i width).sum = i * width := by simp
  have part := take_drop_flatten found
  rwa [lengths, List.take_replicate, Nat.min_eq_left inside.le, start, same] at part

end XWrt.Foundation.Numerals
