import Mathlib
import XWrt.CloudflareTunnel.Core
import XWrt.Foundation.Text

/-!
# Hostnames

`M.hostname`, through which every hostname passes that a deployment is asked
for. A Lua string is a sequence of bytes, here one `Char` for each byte.
-/

namespace XWrt.CloudflareTunnel

open Foundation.Text

/-- `value:gsub("%.$", "")` -/
def dropFinalDot (value : List Char) : List Char :=
  if value.getLast? = some '.' then value.dropLast else value

/-- The labels of a name: `value:gmatch("[^.]+")`. -/
def labels (value : List Char) : List (List Char) := words (· != '.') value

/-- `[a-z0-9]` -/
def isLabelStart (char : Char) : Bool := char.isLower || char.isDigit

/-- `[a-z0-9%-]` -/
def isLabelChar (char : Char) : Bool := isLabelStart char || char == '-'

/-- The checks on one label. -/
def isLabel (label : List Char) : Bool :=
  label.length ≤ 63 && label.head?.any isLabelStart && label.tail.all isLabelChar && label.getLast? != some '-'

/-- `value:find("%.%.")` -/
def hasDoubleDot (value : List Char) : Bool := decide (['.', '.'] <:+: value)

/-- `M.hostname` -/
def hostname (input : String) : Except Failure String :=
  let value := dropFinalDot ((trim input.toList).map Char.toLower)
  if value.length < 3 || 253 < value.length || !value.contains '.' || hasDoubleDot value then
    .error ⟨.hostname, "Enter a complete hostname, such as abc.example.com."⟩
  else if !(labels value).all isLabel then
    .error ⟨.hostname, "Use DNS labels containing letters, digits and hyphens; use Punycode for international names."⟩
  else if 20 < (labels value).length || value.head? = some '.' then
    .error ⟨.hostname, "Invalid hostname."⟩
  else .ok (String.ofList value)

theorem isLabelChar_of_isLabel {label : List Char} (valid : isLabel label = true) {char : Char} (inside : char ∈ label) :
    isLabelChar char = true := by
  cases label with
  | nil => exact absurd inside List.not_mem_nil
  | cons first rest =>
      simp only [isLabel, List.head?_cons, Option.any_some, List.tail_cons, Bool.and_eq_true, List.all_eq_true] at valid
      rcases List.mem_cons.mp inside with rfl | later
      · simp [isLabelChar, valid.1.1.2]
      · exact valid.1.2 char later

/-- What a hostname is made of. -/
theorem hostname_chars {input name : String} (accepted : hostname input = .ok name) {char : Char} (inside : char ∈ name.toList) :
    char = '.' ∨ isLabelChar char = true := by
  unfold hostname at accepted
  simp only at accepted
  split_ifs at accepted with incomplete invalid rest
  cases accepted
  rw [String.toList_ofList] at inside
  rw [Bool.not_eq_true', Bool.not_eq_false, List.all_eq_true] at invalid
  by_cases dot : char = '.'
  · exact Or.inl dot
  · obtain ⟨label, member, found⟩ : ∃ label ∈ labels _, char ∈ label := mem_words inside (by simpa using dot)
    exact Or.inr (isLabelChar_of_isLabel (invalid label member) found)

/-- A hostname is never a wildcard. -/
theorem hostname_not_wildcard {input name : String} (accepted : hostname input = .ok name) : '*' ∉ name.toList := by
  intro inside
  rcases hostname_chars accepted inside with dot | char
  · exact absurd dot (by decide)
  · exact absurd char (by decide)

example : hostname " Abc.Example.COM.\n" = .ok "abc.example.com" := by decide +kernel

/-! ## Well-formed names -/

/-- One to 63 of the letters, digits and hyphens, with no hyphen at either end. -/
structure WellFormedLabel (label : List Char) : Prop where
  nonempty : label ≠ []
  short : label.length ≤ 63
  chars : ∀ char ∈ label, isLabelChar char = true
  starts : label.head? ≠ some '-'
  ends : label.getLast? ≠ some '-'

/-- Two to 20 labels with single dots between them, at most 253 characters and no dot at the end. -/
structure WellFormedName (name : String) : Prop where
  joined : ∃ parts : List (List Char), name.toList = ['.'].intercalate parts ∧
    2 ≤ parts.length ∧ parts.length ≤ 20 ∧ ∀ part ∈ parts, WellFormedLabel part
  short : name.length ≤ 253
  noFinalDot : name.toList.getLast? ≠ some '.'

theorem isLabelStart_ne_hyphen {char : Char} (start : isLabelStart char = true) : char ≠ '-' := by
  rintro rfl
  exact absurd start (by decide)

theorem wellFormedLabel_of_isLabel {label : List Char} (valid : isLabel label = true) : WellFormedLabel label := by
  have chars := fun char (inside : char ∈ label) => isLabelChar_of_isLabel valid inside
  cases label with
  | nil => exact absurd valid (by decide)
  | cons first rest =>
      simp only [isLabel, List.head?_cons, Option.any_some, Bool.and_eq_true, decide_eq_true_eq, bne_iff_ne] at valid
      refine ⟨List.cons_ne_nil _ _, valid.1.1.1, chars, ?_, valid.2⟩
      intro hyphen
      exact isLabelStart_ne_hyphen valid.1.1.2 (Option.some.inj hyphen)

/-- What the checks of `M.hostname` leave of an accepted text. -/
structure Accepted (value : List Char) : Prop where
  short : value.length ≤ 253
  dotted : '.' ∈ value
  single : ¬['.', '.'] <:+: value
  valid : ∀ label ∈ labels value, isLabel label = true
  few : (labels value).length ≤ 20
  starts : value.head? ≠ some '.'

theorem hostname_accepted {input name : String} (accepted : hostname input = .ok name) :
    name.toList = dropFinalDot ((trim input.toList).map Char.toLower) ∧ Accepted name.toList := by
  unfold hostname at accepted
  simp only at accepted
  split_ifs at accepted with incomplete invalid rest
  cases accepted
  simp only [hasDoubleDot, Bool.or_eq_true, decide_eq_true_eq, Bool.not_eq_true', not_or, not_lt, List.contains_eq_mem,
    decide_eq_false_iff_not, not_not] at incomplete
  simp only [Bool.not_eq_true', Bool.not_eq_false, List.all_eq_true] at invalid
  simp only [Bool.or_eq_true, decide_eq_true_eq, not_or, not_lt] at rest
  rw [String.toList_ofList]
  exact ⟨rfl, incomplete.1.1.2, incomplete.1.2, incomplete.2, invalid, rest.1, rest.2⟩

/-- An accepted text without a dot at its end is a well-formed name. -/
theorem Accepted.wellFormed {name : String} (accepted : Accepted name.toList)
    (noFinalDot : name.toList.getLast? ≠ some '.') : WellFormedName name := by
  obtain ⟨short, dotted, single, valid, few, starts⟩ := accepted
  have joined : ['.'].intercalate (labels name.toList) = name.toList := intercalate_words single starts noFinalDot
  refine ⟨⟨labels name.toList, joined.symm, ?_, few, fun part member => wellFormedLabel_of_isLabel (valid part member)⟩,
    String.length_toList ▸ short, noFinalDot⟩
  by_contra one
  -- A single label holds no dot.
  match whole : labels name.toList with
  | [] =>
      rw [whole, List.intercalate_nil] at joined
      rw [← joined] at dotted
      cases dotted
  | [label] =>
      rw [whole, List.intercalate_singleton] at joined
      have inside : label ∈ labels name.toList := whole ▸ List.mem_singleton_self label
      exact absurd (inWord_of_mem_words inside (joined ▸ dotted)) (by decide)
  | _ :: _ :: _ =>
      rw [whole] at one
      simp at one

/-! ## The dot at the end -/

theorem not_isUpper_of_isLabelChar {char : Char} (inside : char = '.' ∨ isLabelChar char = true) :
    isSpace char = false ∧ char.toLower = char := by
  have range : (97 ≤ char.toNat ∧ char.toNat ≤ 122) ∨ (45 ≤ char.toNat ∧ char.toNat ≤ 57) := by
    rcases inside with rfl | label
    · decide
    · simp only [isLabelChar, isLabelStart, Char.isLower, Char.isDigit, Bool.or_eq_true, Bool.and_eq_true,
        decide_eq_true_eq, beq_iff_eq, UInt32.le_iff_toNat_le] at label
      rcases label with (lower | digit) | rfl
      · exact Or.inl lower
      · have low : 48 ≤ char.toNat := digit.1
        exact Or.inr ⟨by omega, digit.2⟩
      · decide
  constructor
  · rw [isSpace, Bool.or_eq_false_iff]
    constructor
    · simp only [beq_eq_false_iff_ne]
      rintro rfl
      rcases range with range | range <;> exact absurd range (by decide)
    · simp only [Bool.and_eq_false_iff, decide_eq_false_iff_not]
      omega
  · unfold Char.toLower
    apply dif_neg
    rintro ⟨lower, upper⟩
    have lower : 65 ≤ char.toNat := UInt32.le_iff_toNat_le.mp lower
    have upper : char.toNat ≤ 90 := UInt32.le_iff_toNat_le.mp upper
    omega

theorem toLower_eq_dot_iff {char : Char} : char.toLower = '.' ↔ char = '.' := by
  constructor
  · intro lowered
    unfold Char.toLower at lowered
    split at lowered
    next upper =>
        have low : 65 ≤ char.val.toNat := UInt32.le_iff_toNat_le.mp upper.1
        have high : char.val.toNat ≤ 90 := UInt32.le_iff_toNat_le.mp upper.2
        have shift : ('a'.val - 'A'.val).toNat = 32 := by decide
        have moved : (char.val + ('a'.val - 'A'.val)).toNat = 46 := congrArg (fun other => other.val.toNat) lowered
        rw [UInt32.toNat_add, shift] at moved
        omega
    next => exact lowered
  · rintro rfl
    rfl

/-- One dot is dropped, so a second one stays. -/
theorem dropFinalDot_getLast (value : List Char) :
    (dropFinalDot value).getLast? = some '.' ↔ ['.', '.'] <:+ value := by
  induction value using List.reverseRecOn with
  | nil => simp [dropFinalDot]
  | append_singleton front last =>
      by_cases dot : last = '.'
      · subst dot
        rw [dropFinalDot, if_pos (by simp), List.dropLast_concat, List.getLast?_eq_some_iff]
        constructor
        · rintro ⟨rest, rfl⟩
          exact ⟨rest, by simp⟩
        · rintro ⟨rest, ends⟩
          have front : front = rest ++ ['.'] := List.append_cancel_right (by simpa using ends.symm)
          exact ⟨rest, front⟩
      · rw [dropFinalDot, if_neg (by simpa using dot)]
        constructor
        · intro ends
          exact absurd (by simpa using ends) dot
        · rintro ⟨rest, ends⟩
          have same : '.' = last := by simpa using congrArg List.getLast? ends
          exact absurd same.symm dot

theorem hostname_finalDot {input name : String} (accepted : hostname input = .ok name) :
    name.toList.getLast? = some '.' ↔ ['.', '.'] <:+ trim input.toList := by
  rw [(hostname_accepted accepted).1, dropFinalDot_getLast]
  constructor
  · rintro ⟨rest, ends⟩
    obtain ⟨before, dots, split, -, same⟩ := List.map_eq_append_iff.mp ends.symm
    obtain ⟨first, others, rfl, firstDot, same⟩ := List.map_eq_cons_iff.mp same
    obtain ⟨second, none, rfl, secondDot, same⟩ := List.map_eq_cons_iff.mp same
    rw [toLower_eq_dot_iff] at firstDot secondDot
    rw [List.map_eq_nil_iff] at same
    exact ⟨before, by rw [split, firstDot, secondDot, same]⟩
  · rintro ⟨rest, ends⟩
    exact ⟨rest.map Char.toLower, by rw [← ends, List.map_append]; rfl⟩

/-- An accepted name without a final dot is accepted as it is. -/
theorem hostname_again {input name : String} (accepted : hostname input = .ok name)
    (noFinalDot : name.toList.getLast? ≠ some '.') : hostname name = .ok name := by
  have plain := fun char (inside : char ∈ name.toList) =>
    not_isUpper_of_isLabelChar (hostname_chars accepted inside)
  have value : dropFinalDot ((trim name.toList).map Char.toLower) = name.toList := by
    rw [trim_of_solid fun char inside => (plain char inside).1, List.map_congr_left fun char inside => (plain char inside).2,
      List.map_id', dropFinalDot, if_neg noFinalDot]
  have same := (hostname_accepted accepted).1
  unfold hostname at accepted ⊢
  simp only at accepted ⊢
  rw [← same] at accepted
  rw [value]
  exact accepted

/-- An accepted hostname is well formed and a fixed point unless the input ended with two dots. -/
theorem hostname_wellFormed_iff (input name : String) (accepted : hostname input = .ok name) :
    (WellFormedName name ∧ hostname name = .ok name) ↔ ¬['.', '.'] <:+ trim input.toList := by
  rw [← hostname_finalDot accepted]
  constructor
  · exact fun good => good.1.noFinalDot
  · exact fun noFinalDot => ⟨(hostname_accepted accepted).2.wellFormed noFinalDot, hostname_again accepted noFinalDot⟩

theorem hostname_wellFormed_iff_example :
    WellFormedName "abc.example.com" ∧ hostname "abc.example.com" = .ok "abc.example.com" :=
  (hostname_wellFormed_iff " Abc.Example.COM.\n" "abc.example.com" (by decide +kernel)).mpr (by decide +kernel)

/-- Two dots after a single label pass every check. -/
theorem hostname_returns_finalDot :
    ¬∀ input name, hostname input = .ok name → WellFormedName name ∧ hostname name = .ok name := by
  intro all
  have returned : hostname "ab.." = .ok "ab." := by decide +kernel
  exact (all _ _ returned).1.noFinalDot (by decide)

end XWrt.CloudflareTunnel
