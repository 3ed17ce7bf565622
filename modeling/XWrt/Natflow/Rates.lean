import Mathlib
import XWrt.Natflow.SimpleQos

/-!
# The two rate parsers

`get_rate_data` of the QoS init script computes a rate in 64-bit shell
arithmetic from the digits before and after the dot; `rate_to_bytes` of the
worker multiplies a number, taken exactly here. Both answer 0 to a text they
reject. The shell's parser knows no white space; on all other texts they agree
as long as the shell's numbers do not overflow.
-/

namespace XWrt.Natflow

open Foundation.Text
open Ipops

/-! ## The worker -/

/-- The multiplier and the divisor of a unit in lower case. -/
def unitScale (unit : List Char) : Option (Nat × Nat) :=
  if unit = "gbps".toList then some (128 * 1024 * 1024, 1)
  else if unit = "mbps".toList then some (128 * 1024, 1)
  else if unit = "kbps".toList then some (128, 1)
  else if unit = "bps".toList then some (1, 8)
  else if unit = [] then some (1, 1)
  else none

/-- The longest start that matches `[0-9]*%.?[0-9]+`, and the rest. -/
def numberStart (value : List Char) : Option (List Char × List Char) :=
  match value.dropWhile Char.isDigit with
  | '.' :: rest =>
      if rest.takeWhile Char.isDigit = [] then none
      else some (value.takeWhile Char.isDigit ++ '.' :: rest.takeWhile Char.isDigit, rest.dropWhile Char.isDigit)
  | rest => if value.takeWhile Char.isDigit = [] then none else some (value.takeWhile Char.isDigit, rest)

/-- `value:match("^([0-9]*%.?[0-9]+)%s*([A-Za-z]*)$")` -/
def numberUnit (value : List Char) : Option (List Char × List Char) :=
  match numberStart value with
  | some (number, rest) =>
      let unit := rest.dropWhile isSpace
      if unit.all Char.isAlpha then some (number, unit) else none
  | none => none

/-- `tonumber(number)`, exactly. -/
def decimalValue (number : List Char) : ℚ :=
  let frac := (number.dropWhile Char.isDigit).tail
  tonumber (number.takeWhile Char.isDigit) + tonumber frac / 10 ^ frac.length

/-- `rate_to_bytes` -/
def rateToBytes (rate : String) : Int :=
  match numberUnit (trim rate.toList) with
  | none => 0
  | some (number, unit) =>
      match unitScale (unit.map Char.toLower) with
      | none => 0
      | some (mul, div) => ⌊decimalValue number * mul / div⌋

/-! ## The shell -/

/-- A signed 64-bit number. -/
def wrap (x : Int) : Int := x.bmod (2 ^ 64)

/-- The value of a string of digits in shell arithmetic; a larger one is read as the largest unsigned number. -/
def numeral (digits : List Char) : Int := wrap (min (tonumber digits) (2 ^ 64 - 1))

/-- The text before the unit, with `mul` and `div`. -/
def rateUnit (rate : List Char) : List Char × Int × Int :=
  let lower := rate.map Char.toLower
  if "gbps".toList <:+ lower then (rate.take (rate.length - 4), 128 * 1024 * 1024, 1)
  else if "mbps".toList <:+ lower then (rate.take (rate.length - 4), 128 * 1024, 1)
  else if "kbps".toList <:+ lower then (rate.take (rate.length - 4), 128, 1)
  else if "bps".toList <:+ lower then (rate.take (rate.length - 3), 1, 8)
  else (rate, 1, 1)

/-- The loop that strips leading zeros. -/
def stripZeros : List Char → List Char
  | '0' :: rest => if rest = [] then ['0'] else stripZeros rest
  | num => num

/-- The loop over the digits after the dot: `frac_value` and `scale`. -/
def fracLoop (frac : List Char) : Int × Int :=
  frac.foldl (fun (fracValue, scale) digit => (wrap (wrap (fracValue * 10) + numeral [digit]), wrap (scale * 10))) (0, 1)

/-- What `get_rate_data` prints for the text before the unit, unless a division by zero ends the script. -/
def rateValue (num : List Char) (mul div : Int) : Option Int :=
  if num = [] || num.any fun char => !(char.isDigit || char == '.') then some 0
  else if num.contains '.' then
    let int := num.takeWhile (· != '.')
    let frac := (num.dropWhile (· != '.')).tail
    if frac = [] || frac.contains '.' then some 0
    else
      let (fracValue, scale) := fracLoop frac
      if scale = 0 then none
      else
        let int := stripZeros (if int = [] then ['0'] else int)
        some (((wrap (wrap (wrap (numeral int * scale) + fracValue) * mul)).tdiv scale).tdiv div)
  else some ((wrap (numeral (stripZeros num) * mul)).tdiv div)

/-- `get_rate_data` -/
def getRateData (rate : String) : Option Int :=
  let (num, mul, div) := rateUnit rate.toList
  rateValue num mul div

example : getRateData "1.5Mbps" = some 196608 := by decide +kernel

/-! ## Numbers in a text -/

/-- The numbers both parsers take: digits, or digits after a dot. -/
inductive IsNumber : List Char → Prop
  | whole {int : List Char} (digits : ∀ char ∈ int, char.isDigit = true) (some : int ≠ []) : IsNumber int
  | decimal {int frac : List Char} (digits : ∀ char ∈ int, char.isDigit = true)
      (fracDigits : ∀ char ∈ frac, char.isDigit = true) (some : frac ≠ []) : IsNumber (int ++ '.' :: frac)

theorem takeWhile_of_all {α : Type*} {p : α → Bool} {first : List α} (rest : List α)
    (all : ∀ item ∈ first, p item = true) (stops : ∀ item ∈ rest.head?, p item = false) :
    (first ++ rest).takeWhile p = first ∧ (first ++ rest).dropWhile p = rest := by
  rw [List.takeWhile_append_of_pos all, List.dropWhile_append_of_pos all]
  cases rest with
  | nil => simp
  | cons item others =>
      have stop := stops item rfl
      simp [stop]

theorem dot_stops (rest : List Char) : ∀ char ∈ ('.' :: rest).head?, char.isDigit = false := by
  simp only [List.head?_cons, Option.mem_def, Option.some.injEq, forall_eq']
  decide

/-- A number ends with a digit. -/
theorem IsNumber.last {number : List Char} (valid : IsNumber number) :
    ∃ start digit, number = start ++ [digit] ∧ digit.isDigit = true := by
  cases valid with
  | whole digits some =>
      refine ⟨number.dropLast, number.getLast some, (List.dropLast_append_getLast some).symm, digits _ (List.getLast_mem some)⟩
  | @decimal int frac digits fracDigits some =>
      refine ⟨int ++ '.' :: frac.dropLast, frac.getLast some, ?_, fracDigits _ (List.getLast_mem some)⟩
      rw [List.append_assoc, List.cons_append, List.dropLast_append_getLast some]

theorem IsNumber.chars {number : List Char} (valid : IsNumber number) {char : Char} (inside : char ∈ number) :
    char.isDigit = true ∨ char = '.' := by
  cases valid with
  | whole digits some => exact Or.inl (digits char inside)
  | decimal digits fracDigits some =>
      rcases List.mem_append.mp inside with first | later
      · exact Or.inl (digits char first)
      · rcases List.mem_cons.mp later with rfl | last
        · exact Or.inr rfl
        · exact Or.inl (fracDigits char last)

theorem numberStart_append {number rest : List Char} (valid : IsNumber number)
    (stops : ∀ char ∈ rest.head?, char.isDigit = false ∧ char ≠ '.') : numberStart (number ++ rest) = some (number, rest) := by
  have ends : ∀ char ∈ rest.head?, char.isDigit = false := fun char first => (stops char first).1
  unfold numberStart
  cases valid with
  | whole digits some =>
      obtain ⟨taken, dropped⟩ := takeWhile_of_all _ digits ends
      rw [taken, dropped]
      split
      next others =>
          exact absurd rfl (stops '.' rfl).2
      next => rw [if_neg some]
  | @decimal int frac digits fracDigits some =>
      obtain ⟨taken, dropped⟩ := takeWhile_of_all _ digits (dot_stops (frac ++ rest))
      obtain ⟨taken', dropped'⟩ := takeWhile_of_all _ fracDigits ends
      rw [List.append_assoc, List.cons_append, taken, dropped]
      simp only [taken', dropped', if_neg some]

theorem numberStart_spec {value number rest : List Char} (found : numberStart value = some (number, rest)) :
    IsNumber number ∧ value = number ++ rest := by
  have digits : ∀ char ∈ value.takeWhile Char.isDigit, char.isDigit = true := fun char inside => List.mem_takeWhile_imp inside
  have whole := List.takeWhile_append_dropWhile (p := Char.isDigit) (l := value)
  unfold numberStart at found
  split at found
  next others dropped =>
      split at found
      · cases found
      next some =>
          cases found
          refine ⟨.decimal digits (fun char inside => List.mem_takeWhile_imp inside) some, ?_⟩
          rw [List.append_assoc, List.cons_append, List.takeWhile_append_dropWhile, ← dropped, whole]
  next =>
      split at found
      · cases found
      next some =>
          cases found
          exact ⟨.whole digits some, whole.symm⟩

/-! ## Units -/

theorem isDigit_bounds {char : Char} (digit : char.isDigit = true) : 48 ≤ char.toNat ∧ char.toNat ≤ 57 := by
  simp only [Char.isDigit, Bool.and_eq_true, decide_eq_true_eq] at digit
  exact ⟨UInt32.le_iff_toNat_le.mp digit.1, UInt32.le_iff_toNat_le.mp digit.2⟩

theorem toLower_digit {char : Char} (digit : char.isDigit = true) : char.toLower = char := by
  have bounds := isDigit_bounds digit
  unfold Char.toLower
  rw [dif_neg]
  rintro ⟨lower, -⟩
  have := UInt32.le_iff_toNat_le.mp lower
  change 65 ≤ char.toNat at this
  omega

theorem suffix_iff_drop {unit lower : List Char} : unit <:+ lower ↔ lower.drop (lower.length - unit.length) = unit := by
  rw [List.suffix_iff_eq_drop, eq_comm]

/-- The unit the shell takes off is one that both know. -/
theorem rateUnit_spec (rate : List Char) :
    ∃ num unit mul div, rate = num ++ unit ∧ unitScale (unit.map Char.toLower) = some (mul, div) ∧
      rateUnit rate = (num, (mul : Int), (div : Int)) ∧ 0 < mul ∧ 0 < div := by
  have cut : ∀ (unit : List Char) (n : Nat), unit.length = n → unit <:+ rate.map Char.toLower →
      (rate.drop (rate.length - n)).map Char.toLower = unit := by
    rintro unit n rfl suffix
    rw [List.map_drop]
    simpa using suffix_iff_drop.mp suffix
  have split : ∀ n, rate = rate.take (rate.length - n) ++ rate.drop (rate.length - n) := fun n =>
    (List.take_append_drop _ rate).symm
  unfold rateUnit
  simp only
  split_ifs with gbps mbps kbps bps
  · exact ⟨_, _, 128 * 1024 * 1024, 1, split 4, congrArg unitScale (cut _ 4 rfl gbps), rfl, by decide, by decide⟩
  · exact ⟨_, _, 128 * 1024, 1, split 4, congrArg unitScale (cut _ 4 rfl mbps), rfl, by decide, by decide⟩
  · exact ⟨_, _, 128, 1, split 4, congrArg unitScale (cut _ 4 rfl kbps), rfl, by decide, by decide⟩
  · exact ⟨_, _, 1, 8, split 3, congrArg unitScale (cut _ 3 rfl bps), rfl, by decide, by decide⟩
  · exact ⟨rate, [], 1, 1, (List.append_nil rate).symm, rfl, rfl, by decide, by decide⟩

theorem unitScale_cases {unit : List Char} {mul div : Nat} (known : unitScale unit = some (mul, div)) :
    unit = "gbps".toList ∨ unit = "mbps".toList ∨ unit = "kbps".toList ∨ unit = "bps".toList ∨ unit = [] := by
  unfold unitScale at known
  split_ifs at known with gbps mbps kbps bps none
  · exact Or.inl gbps
  · exact Or.inr (Or.inl mbps)
  · exact Or.inr (Or.inr (Or.inl kbps))
  · exact Or.inr (Or.inr (Or.inr (Or.inl bps)))
  · exact Or.inr (Or.inr (Or.inr (Or.inr none)))

theorem take_unit {number unit : List Char} {n : Nat} (length : unit.length = n) :
    (number ++ unit).take ((number ++ unit).length - n) = number := by
  rw [List.length_append, length, Nat.add_sub_cancel, List.take_left' rfl]

/-- A unit without digits ends a text exactly when it ends what follows the last digit. -/
theorem suffix_after_digit {unit start lower : List Char} {digit : Char} (outside : digit ∉ unit) :
    unit <:+ start ++ digit :: lower ↔ unit <:+ lower := by
  constructor
  · intro suffix
    rcases List.suffix_or_suffix_of_suffix suffix (List.suffix_append start (digit :: lower)) with short | long
    · rcases List.suffix_cons_iff.mp short with rfl | inside
      · exact absurd List.mem_cons_self outside
      · exact inside
    · exact absurd (long.mem List.mem_cons_self) outside
  · intro suffix
    exact (suffix.trans (List.suffix_cons digit lower)).trans (List.suffix_append start _)

/-- After a number the shell takes off exactly the unit. -/
theorem rateUnit_append {number unit : List Char} {mul div : Nat} (valid : IsNumber number)
    (known : unitScale (unit.map Char.toLower) = some (mul, div)) :
    rateUnit (number ++ unit) = (number, (mul : Int), (div : Int)) := by
  obtain ⟨start, digit, ends, isDigit⟩ := valid.last
  have lower : (number ++ unit).map Char.toLower = start.map Char.toLower ++ digit :: unit.map Char.toLower := by
    simp [ends, toLower_digit isDigit]
  have outside : ∀ unit : List Char, unit.all (fun char => !char.isDigit) = true → digit ∉ unit := by
    intro unit plain inside
    simpa [isDigit] using List.all_eq_true.mp plain digit inside
  unfold rateUnit
  simp only [lower, suffix_after_digit (outside "gbps".toList (by decide)), suffix_after_digit (outside "mbps".toList (by decide)),
    suffix_after_digit (outside "kbps".toList (by decide)), suffix_after_digit (outside "bps".toList (by decide))]
  have length : ∀ {letters : List Char} (n : Nat), unit.map Char.toLower = letters → letters.length = n → unit.length = n := by
    rintro letters n rfl rfl
    exact (List.length_map Char.toLower).symm
  rcases unitScale_cases known with letters | letters | letters | letters | letters
  · rw [letters] at known ⊢
    cases known
    rw [if_pos (by decide), take_unit (length 4 letters rfl)]
    rfl
  · rw [letters] at known ⊢
    cases known
    rw [if_neg (by decide), if_pos (by decide), take_unit (length 4 letters rfl)]
    rfl
  · rw [letters] at known ⊢
    cases known
    rw [if_neg (by decide), if_neg (by decide), if_pos (by decide), take_unit (length 4 letters rfl)]
    rfl
  · rw [letters] at known ⊢
    cases known
    rw [if_neg (by decide), if_neg (by decide), if_neg (by decide), if_pos (by decide), take_unit (length 3 letters rfl)]
    rfl
  · rw [letters] at known ⊢
    cases known
    rw [if_neg (by decide), if_neg (by decide), if_neg (by decide), if_neg (by decide), List.map_eq_nil_iff.mp letters,
      List.append_nil]
    rfl

/-! ## Shell arithmetic without overflow -/

theorem wrap_natCast {n : Nat} (small : n < 2 ^ 63) : wrap n = n :=
  Int.bmod_eq_of_le (by omega) (by omega)

theorem numeral_eq {digits : List Char} (small : tonumber digits < 2 ^ 63) : numeral digits = tonumber digits := by
  have least : min (tonumber digits : Int) (2 ^ 64 - 1) = tonumber digits := by omega
  rw [numeral, least, wrap_natCast small]

theorem tonumber_nil : tonumber [] = 0 := rfl

theorem tonumber_from (n : Nat) (digits : List Char) :
    digits.foldl (fun n digit => n * 10 + (digit.toNat - '0'.toNat)) n = n * 10 ^ digits.length + tonumber digits := by
  induction digits generalizing n with
  | nil => simp [tonumber]
  | cons digit rest ih =>
      rw [tonumber, List.foldl_cons, List.foldl_cons, ih, ih (0 * 10 + _), List.length_cons]
      ring

theorem tonumber_cons (digit : Char) (rest : List Char) :
    tonumber (digit :: rest) = (digit.toNat - '0'.toNat) * 10 ^ rest.length + tonumber rest := by
  rw [tonumber, List.foldl_cons, Nat.zero_mul, Nat.zero_add]
  exact tonumber_from _ rest

theorem tonumber_stripZeros (num : List Char) : tonumber (stripZeros num) = tonumber num := by
  induction num with
  | nil => rfl
  | cons first rest ih =>
      unfold stripZeros
      split
      next others heq =>
          obtain ⟨rfl, rfl⟩ := List.cons.inj heq
          split
          next none => rw [none]
          next => rw [ih, tonumber_cons '0' rest, Nat.sub_self, Nat.zero_mul, Nat.zero_add]
      next => rfl

theorem fracLoop_from {frac : List Char} (digits : ∀ char ∈ frac, char.isDigit = true) (n scale : Nat)
    (small : n * 10 ^ frac.length + tonumber frac < 2 ^ 63) (narrow : scale * 10 ^ frac.length < 2 ^ 63) :
    frac.foldl (fun (fracValue, scale) digit => (wrap (wrap (fracValue * 10) + numeral [digit]), wrap (scale * 10)))
        ((n : Int), (scale : Int)) =
      (((n * 10 ^ frac.length + tonumber frac : Nat) : Int), ((scale * 10 ^ frac.length : Nat) : Int)) := by
  induction frac generalizing n scale with
  | nil => simp [tonumber]
  | cons digit rest ih =>
      rw [List.forall_mem_cons] at digits
      have power : 0 < 10 ^ rest.length := Nat.pow_pos (by decide)
      have value : n * 10 ^ (rest.length + 1) + tonumber (digit :: rest) =
          (n * 10 + (digit.toNat - '0'.toNat)) * 10 ^ rest.length + tonumber rest := by
        rw [tonumber_cons]
        ring
      have scaled : scale * 10 ^ (rest.length + 1) = scale * 10 * 10 ^ rest.length := by ring
      rw [List.length_cons] at small narrow ⊢
      rw [value] at small ⊢
      rw [scaled] at narrow ⊢
      have head : n * 10 + (digit.toNat - '0'.toNat) < 2 ^ 63 :=
        (Nat.le_mul_of_pos_right _ power).trans_lt ((Nat.le_add_right _ _).trans_lt small)
      have scaleHead : scale * 10 < 2 ^ 63 := (Nat.le_mul_of_pos_right _ power).trans_lt narrow
      have one : tonumber [digit] = digit.toNat - '0'.toNat := by simp [tonumber]
      have next : wrap (wrap ((n : Int) * 10) + numeral [digit]) = (n * 10 + (digit.toNat - '0'.toNat) : Nat) := by
        have short : n * 10 < 2 ^ 63 := (Nat.le_add_right _ _).trans_lt head
        have shifted : wrap ((n : Int) * 10) = (n * 10 : Nat) := wrap_natCast short
        rw [shifted, numeral_eq (by omega), one, ← Int.natCast_add, wrap_natCast head]
      have nextScale : wrap ((scale : Int) * 10) = (scale * 10 : Nat) := wrap_natCast scaleHead
      rw [List.foldl_cons]
      simp only [next, nextScale]
      exact ih digits.2 _ _ small narrow

theorem fracLoop_eq {frac : List Char} (digits : ∀ char ∈ frac, char.isDigit = true) (small : tonumber frac < 2 ^ 63)
    (narrow : 10 ^ frac.length < 2 ^ 63) : fracLoop frac = ((tonumber frac : Int), ((10 ^ frac.length : Nat) : Int)) := by
  have loop := fracLoop_from digits 0 1 (by simpa using small) (by simpa using narrow)
  simpa [fracLoop] using loop

/-! ## The two parsers on one text -/

/-- The digits before the first dot, and those after it. -/
def intPart (num : List Char) : List Char := num.takeWhile (· != '.')

def fracPart (num : List Char) : List Char := (num.dropWhile (· != '.')).tail

/-- The number without its dot, times the multiplier, and the power of ten fit into 63 bits. -/
def FitsNumber (num : List Char) (mul : Nat) : Prop :=
  10 ^ (fracPart num).length < 2 ^ 63 ∧
    (tonumber (intPart num) * 10 ^ (fracPart num).length + tonumber (fracPart num)) * mul < 2 ^ 63

theorem not_dot_of_digit {char : Char} (digit : char.isDigit = true) : (char != '.') = true := by
  rw [bne_iff_ne]
  rintro rfl
  exact absurd digit (by decide)

theorem parts_whole {int : List Char} (digits : ∀ char ∈ int, char.isDigit = true) :
    intPart int = int ∧ fracPart int = [] := by
  have split := takeWhile_of_all [] (fun char inside => not_dot_of_digit (digits char inside)) (by simp)
  rw [List.append_nil] at split
  exact ⟨split.1, by rw [fracPart, split.2, List.tail_nil]⟩

theorem parts_decimal {int : List Char} (frac : List Char) (digits : ∀ char ∈ int, char.isDigit = true) :
    intPart (int ++ '.' :: frac) = int ∧ fracPart (int ++ '.' :: frac) = frac := by
  have split := takeWhile_of_all ('.' :: frac) (fun char inside => not_dot_of_digit (digits char inside)) (by simp)
  exact ⟨split.1, by rw [fracPart, split.2, List.tail_cons]⟩

/-- Every number is its digits over a power of ten. -/
theorem decimalValue_eq {num : List Char} (valid : IsNumber num) :
    decimalValue num =
      (tonumber (intPart num) * 10 ^ (fracPart num).length + tonumber (fracPart num) : Nat) / (10 ^ (fracPart num).length : Nat) := by
  unfold decimalValue
  cases valid with
  | whole digits some =>
      have split := takeWhile_of_all [] digits (by simp)
      rw [List.append_nil] at split
      obtain ⟨int, frac⟩ := parts_whole digits
      simp [split, int, frac, tonumber]
  | @decimal int frac digits fracDigits some =>
      have split := takeWhile_of_all _ digits (dot_stops frac)
      obtain ⟨intEq, fracEq⟩ := parts_decimal frac digits
      rw [split.1, split.2, intEq, fracEq, List.tail_cons]
      have power : (10 : ℚ) ^ frac.length ≠ 0 := pow_ne_zero _ (by norm_num)
      push_cast
      field_simp

/-- What the checks of the shell let through is a number. -/
theorem isNumber_of_checked {num : List Char} (some : num ≠ [])
    (chars : ∀ char ∈ num, char.isDigit = true ∨ char = '.')
    (single : '.' ∈ num → fracPart num ≠ [] ∧ '.' ∉ fracPart num) : IsNumber num := by
  by_cases dotted : '.' ∈ num
  · obtain ⟨nonempty, plain⟩ := single dotted
    have split := List.takeWhile_append_dropWhile (p := (· != '.')) (l := num)
    have rest : num.dropWhile (· != '.') = '.' :: fracPart num := by
      cases dropped : num.dropWhile (· != '.') with
      | nil => simp [fracPart, dropped] at nonempty
      | cons first others =>
          have stop := List.head_dropWhile_not (p := (· != '.')) (l := num) (by simp [dropped])
          simp only [dropped, List.head_cons, bne_eq_false_iff_eq] at stop
          rw [fracPart, dropped, stop, List.tail_cons]
    rw [rest] at split
    rw [← split]
    refine .decimal (fun char inside => ?_) (fun char inside => ?_) nonempty
    · have other := List.mem_takeWhile_imp inside
      have member : char ∈ num := (List.takeWhile_prefix _).subset inside
      exact (chars char member).resolve_right (bne_iff_ne.mp other)
    · have member : char ∈ num := by
        rw [← split]
        exact List.mem_append_right _ (List.mem_cons_of_mem _ inside)
      refine (chars char member).resolve_right ?_
      rintro rfl
      exact plain inside
  · refine .whole (fun char inside => (chars char inside).resolve_right ?_) some
    rintro rfl
    exact dotted inside

/-- A text that is no number is rejected by the shell. -/
theorem rateValue_of_invalid {num : List Char} (invalid : ¬IsNumber num) (mul div : Int) : rateValue num mul div = some 0 := by
  unfold rateValue
  split
  next => rfl
  next checked =>
      simp only [Bool.or_eq_true, decide_eq_true_eq, List.any_eq_true, not_or, not_exists, not_and, Bool.not_eq_true',
        Bool.not_eq_false] at checked
      have chars : ∀ char ∈ num, char.isDigit = true ∨ char = '.' := fun char inside => by
        simpa using checked.2 char inside
      split
      next dotted =>
          simp only
          split
          next => rfl
          next proper =>
              simp only [Bool.or_eq_true, decide_eq_true_eq, not_or, List.contains_eq_mem] at proper
              exact absurd (isNumber_of_checked checked.1 chars fun _ => proper) invalid
      next plain =>
          rw [List.contains_eq_mem, decide_eq_true_eq] at plain
          exact absurd (isNumber_of_checked checked.1 chars fun dotted => absurd dotted plain) invalid

theorem floor_decimalValue {num : List Char} (valid : IsNumber num) (mul div : Nat) :
    ⌊decimalValue num * mul / div⌋ =
      ((tonumber (intPart num) * 10 ^ (fracPart num).length + tonumber (fracPart num)) * mul /
        10 ^ (fracPart num).length / div : Nat) := by
  rw [decimalValue_eq valid, div_mul_eq_mul_div, div_div, ← Nat.cast_mul, ← Nat.cast_mul, Rat.floor_natCast_div_natCast,
    Nat.div_div_eq_div_mul, Int.natCast_div]

theorem IsNumber.checked {num : List Char} (valid : IsNumber num) :
    ¬(decide (num = []) || num.any fun char => !(char.isDigit || char == '.')) = true := by
  have some : num ≠ [] := by
    obtain ⟨start, digit, rfl, _⟩ := valid.last
    simp
  simp only [Bool.or_eq_true, decide_eq_true_eq, List.any_eq_true, not_or, not_exists, not_and, Bool.not_eq_true',
    Bool.not_eq_false, beq_iff_eq]
  exact ⟨some, fun char inside => valid.chars inside⟩

/-- Without overflow the shell computes the exact value, rounded down. -/
theorem rateValue_of_number {num : List Char} (valid : IsNumber num) {mul div : Nat} (positive : 0 < mul)
    (fits : FitsNumber num mul) : rateValue num mul div = some ⌊decimalValue num * mul / div⌋ := by
  obtain ⟨narrow, small⟩ := fits
  rw [floor_decimalValue valid, rateValue, if_neg valid.checked]
  have total := (Nat.le_mul_of_pos_right _ positive).trans_lt small
  cases valid with
  | whole digits some =>
      obtain ⟨intEq, fracEq⟩ := parts_whole digits
      have plain : ¬num.contains '.' = true := by
        rw [List.contains_eq_mem, decide_eq_true_eq]
        exact fun inside => absurd (digits '.' inside) (by decide)
      simp only [intEq, fracEq, List.length_nil, Nat.pow_zero, Nat.mul_one, Nat.div_one, tonumber_nil, Nat.add_zero] at small total ⊢
      rw [if_neg plain, numeral_eq (by rw [tonumber_stripZeros]; exact total), tonumber_stripZeros, ← Nat.cast_mul,
        wrap_natCast small]
      rfl
  | @decimal int frac digits fracDigits nonempty =>
      obtain ⟨intEq, fracEq⟩ := parts_decimal frac digits
      have dotted : (int ++ '.' :: frac).contains '.' = true := by simp
      have proper : ¬(decide (frac = []) || frac.contains '.') = true := by
        simp only [Bool.or_eq_true, decide_eq_true_eq, List.contains_eq_mem, not_or]
        exact ⟨nonempty, fun inside => absurd (fracDigits '.' inside) (by decide)⟩
      have power : 0 < 10 ^ frac.length := Nat.pow_pos (by decide)
      have read : tonumber (stripZeros (if int = [] then ['0'] else int)) = tonumber int := by
        rw [tonumber_stripZeros]
        split
        next none => rw [none]; rfl
        next => rfl
      rw [intEq, fracEq] at small total ⊢
      rw [fracEq] at narrow
      have whole : tonumber int * 10 ^ frac.length < 2 ^ 63 := (Nat.le_add_right _ _).trans_lt total
      have least : tonumber int < 2 ^ 63 := (Nat.le_mul_of_pos_right _ power).trans_lt whole
      have rest : tonumber frac < 2 ^ 63 := (Nat.le_add_left _ _).trans_lt total
      have loop := fracLoop_eq fracDigits rest narrow
      have value : wrap (wrap (wrap ((tonumber int : Int) * (10 ^ frac.length : Nat)) + tonumber frac) * mul) =
          ((tonumber int * 10 ^ frac.length + tonumber frac) * mul : Nat) := by
        rw [← Nat.cast_mul, wrap_natCast whole, ← Nat.cast_add, wrap_natCast total, ← Nat.cast_mul, wrap_natCast small]
      rw [if_pos dotted]
      unfold intPart at intEq
      unfold fracPart at fracEq
      simp only [intEq, fracEq, if_neg proper, loop]
      rw [if_neg (by exact_mod_cast power.ne'), numeral_eq (by rw [read]; exact least), read, value]
      rfl

/-! ## Whole texts -/

/-- No number of the shell's computation reaches `2 ^ 63`. -/
def Fits (rate : String) : Prop :=
  ∀ (num : List Char) (mul div : Nat), rateUnit rate.toList = (num, (mul : Int), (div : Int)) → IsNumber num →
    FitsNumber num mul

theorem isAlpha_bounds {char : Char} (letter : char.isAlpha = true) :
    65 ≤ char.toNat ∧ char.toNat ≤ 90 ∨ 97 ≤ char.toNat ∧ char.toNat ≤ 122 := by
  simp only [Char.isAlpha, Char.isUpper, Char.isLower, Bool.or_eq_true, Bool.and_eq_true, decide_eq_true_eq,
    UInt32.le_iff_toNat_le, ge_iff_le] at letter
  exact letter

theorem isSpace_bounds {char : Char} (space : isSpace char = true) :
    char.toNat = 32 ∨ 9 ≤ char.toNat ∧ char.toNat ≤ 13 := by
  simp only [isSpace, Bool.or_eq_true, beq_iff_eq, Bool.and_eq_true, decide_eq_true_eq] at space
  exact space.imp_left fun blank => by rw [blank]; rfl

theorem not_isSpace_of_isAlpha {char : Char} (letter : char.isAlpha = true) : isSpace char = false := by
  by_contra space
  have := isAlpha_bounds letter
  have := isSpace_bounds (Bool.not_eq_false _ |>.mp space)
  omega

theorem isAlpha_of_toLower {char : Char} (letter : char.toLower.isAlpha = true) : char.isAlpha = true := by
  by_cases upper : char.isUpper = true
  · rw [Char.isAlpha, upper, Bool.true_or]
  · have same : char.toLower = char := by
      unfold Char.toLower
      rw [dif_neg]
      rintro ⟨low, high⟩
      exact upper (by simpa [Char.isUpper] using And.intro low high)
    rwa [same] at letter

/-- The unit is made of letters. -/
theorem unit_letters {unit : List Char} {mul div : Nat} (known : unitScale (unit.map Char.toLower) = some (mul, div)) :
    ∀ char ∈ unit, char.isAlpha = true := by
  have lower : ∀ char ∈ unit.map Char.toLower, char.isAlpha = true := by
    rcases unitScale_cases known with letters | letters | letters | letters | letters
    all_goals
      rw [letters]
      exact List.all_eq_true.mp (by decide)
  exact fun char inside => isAlpha_of_toLower (lower _ (List.mem_map_of_mem inside))

/-- White space is not part of a number for the shell. -/
theorem getRateData_of_space {rate : String} (spaced : ∃ char ∈ rate.toList, isSpace char = true) :
    getRateData rate = some 0 := by
  obtain ⟨char, inside, space⟩ := spaced
  obtain ⟨num, unit, mul, div, split, known, taken, _, _⟩ := rateUnit_spec rate.toList
  have invalid : ¬IsNumber num := by
    intro valid
    rw [split] at inside
    rcases List.mem_append.mp inside with first | last
    · rcases valid.chars first with digit | rfl
      · have := isDigit_bounds digit
        have := isSpace_bounds space
        omega
      · exact absurd space (by decide)
    · rw [not_isSpace_of_isAlpha (unit_letters known char last)] at space
      cases space
  rw [getRateData, taken]
  exact rateValue_of_invalid invalid mul div

/-- Without white space the worker cuts a text where the shell does. -/
theorem numberUnit_append {number unit : List Char} (valid : IsNumber number) (letters : ∀ char ∈ unit, char.isAlpha = true) :
    numberUnit (number ++ unit) = some (number, unit) := by
  have stops : ∀ char ∈ unit.head?, char.isDigit = false ∧ char ≠ '.' := by
    intro char first
    have letter := letters char (List.mem_of_mem_head? first)
    constructor
    · by_contra digit
      have := isDigit_bounds (Bool.not_eq_false _ |>.mp digit)
      have := isAlpha_bounds letter
      omega
    · rintro rfl
      exact absurd letter (by decide)
  have solid : unit.dropWhile isSpace = unit :=
    dropWhile_of_solid fun char inside => not_isSpace_of_isAlpha (letters char inside)
  rw [numberUnit, numberStart_append valid stops]
  simp only [solid]
  rw [if_pos (List.all_eq_true.mpr letters)]

theorem numberUnit_spec {value number unit : List Char} (solid : ∀ char ∈ value, isSpace char = false)
    (found : numberUnit value = some (number, unit)) : IsNumber number ∧ value = number ++ unit := by
  unfold numberUnit at found
  split at found
  next start rest begins =>
      obtain ⟨valid, split⟩ := numberStart_spec begins
      have kept : rest.dropWhile isSpace = rest :=
        dropWhile_of_solid fun char inside => solid char (by rw [split]; exact List.mem_append_right _ inside)
      simp only [kept] at found
      split at found
      · cases found
        exact ⟨valid, split⟩
      · cases found
  next => cases found

/-- Without white space and overflow, the parsers agree. -/
theorem getRateData_eq_rateToBytes {rate : String} (solid : ∀ char ∈ rate.toList, isSpace char = false)
    (fits : Fits rate) : getRateData rate = some (rateToBytes rate) := by
  obtain ⟨num, unit, mul, div, split, known, taken, positive, _⟩ := rateUnit_spec rate.toList
  rw [getRateData, taken, rateToBytes, trim_of_solid solid]
  by_cases valid : IsNumber num
  · rw [split, numberUnit_append valid (unit_letters known)]
    simp only [known]
    exact rateValue_of_number valid positive (fits num mul div taken valid)
  · simp only [rateValue_of_invalid valid]
    cases found : numberUnit rate.toList with
    | none => rfl
    | some result =>
        obtain ⟨number, letters⟩ := result
        obtain ⟨other, split'⟩ := numberUnit_spec solid found
        cases scale : unitScale (letters.map Char.toLower) with
        | none => simp only [scale]
        | some factors =>
            -- A known unit after a number is the one the shell takes off.
            have same := rateUnit_append other scale
            rw [← split', taken] at same
            rw [(Prod.mk.inj same).1] at valid
            exact absurd other valid

/-- White space makes the shell answer 0; on every other text without overflow the parsers agree. -/
theorem getRateData_agrees (rate : String) :
    ((∃ char ∈ rate.toList, isSpace char = true) → getRateData rate = some 0) ∧
      ((∀ char ∈ rate.toList, isSpace char = false) → Fits rate → getRateData rate = some (rateToBytes rate)) :=
  ⟨getRateData_of_space, getRateData_eq_rateToBytes⟩

theorem getRateData_agrees_decimal : Fits "1.5Mbps" ∧ getRateData "1.5Mbps" = some (rateToBytes "1.5Mbps") := by
  have fits : Fits "1.5Mbps" := by
    intro num mul div taken _
    have unit : rateUnit "1.5Mbps".toList = ("1.5".toList, ((128 * 1024 : Nat) : Int), ((1 : Nat) : Int)) := by
      decide +kernel
    rw [unit] at taken
    obtain ⟨rfl, factors⟩ := Prod.mk.inj taken
    obtain rfl := Int.ofNat.inj (Prod.mk.inj factors).1
    constructor
    · decide +kernel
    · decide +kernel
  have plain : "1.5Mbps".toList.all (fun char => !isSpace char) = true := by decide +kernel
  simp only [List.all_eq_true, Bool.not_eq_true'] at plain
  exact ⟨fits, (getRateData_agrees "1.5Mbps").2 plain fits⟩

/-- With a blank before the unit the shell rejects what the worker takes, and from `2 ^ 63` on it overflows. -/
theorem parsers_differ :
    (getRateData "10 Mbps" = some 0 ∧ rateToBytes "10 Mbps" = 1310720) ∧
      getRateData "68719476736Gbps" = some (-9223372036854775808) ∧ rateToBytes "68719476736Gbps" = 9223372036854775808 := by
  refine ⟨⟨?_, ?_⟩, ?_, ?_⟩
  all_goals decide +kernel

end XWrt.Natflow
