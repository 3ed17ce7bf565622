import Mathlib.Order.Bounds.Basic
import Mathlib.Order.Interval.Set.Defs
import XWrt.Ipops.Membership

/-!
# The forms of network strings

An address, an address with a prefix length or a netmask, and two addresses.
`netString2range` looks at the numbers of the text and at whether it holds a
slash; where no octet is above 255 it gives the ends of the network the text
reads as. It does not look at the octets, so a text can reach beyond 32 bits,
and the conversion to CIDR strings ends exactly when no text of the list does.
-/

namespace XWrt.Ipops

open XWrt.Foundation
open XWrt.Foundation.IntervalList
open XWrt.Foundation.Text

/-! ## Networks under a mask -/

/-- The 32-bit addresses that agree with `i` on the bits of the mask. -/
def maskedNetwork (i m : ℕ) : Set ℕ := {x | x < 2 ^ 32 ∧ x &&& m = i &&& m}

/-- The range runs from the first to the last address of the set. -/
def Ends (network : Set ℕ) (range : Range) : Prop :=
  ∃ first last : ℕ, range = ⟨first, last⟩ ∧ IsLeast network first ∧ IsGreatest network last

theorem Ends.ordered {network : Set ℕ} {range : Range} (ends : Ends network range) :
    range.lo ≤ range.hi := by
  obtain ⟨first, last, rfl, least, greatest⟩ := ends
  exact Int.ofNat_le.mpr (least.2 greatest.1)

/-- The bits outside of the mask. -/
def hostBits (m : ℕ) : ℕ := 2 ^ 32 - 1 - m

theorem testBit_hostBits {m : ℕ} (bound : m < 2 ^ 32) (j : ℕ) :
    (hostBits m).testBit j = (decide (j < 32) && !m.testBit j) := by
  rw [hostBits, show 2 ^ 32 - 1 - m = 2 ^ 32 - (m + 1) by omega, Nat.testBit_two_pow_sub_succ bound]

theorem testBit_eq_false {x : ℕ} (bound : x < 2 ^ 32) {j : ℕ} (high : ¬j < 32) :
    x.testBit j = false :=
  Nat.testBit_lt_two_pow (bound.trans_le (Nat.pow_le_pow_right (by decide) (not_lt.mp high)))

theorem hostBits_lt (m : ℕ) : hostBits m < 2 ^ 32 := by
  unfold hostBits
  omega

section Masked

variable {i m : ℕ} (iBound : i < 2 ^ 32) (mBound : m < 2 ^ 32)
include iBound

theorem and_lt_pow : i &&& m < 2 ^ 32 := Nat.and_le_left.trans_lt iBound

theorem band_eq_and : band i m = (i &&& m : ℕ) := by
  rw [band_natCast, Nat.mod_eq_of_lt (and_lt_pow iBound)]

theorem isLeast_maskedNetwork : IsLeast (maskedNetwork i m) (i &&& m) := by
  refine ⟨⟨and_lt_pow iBound, ?_⟩, fun x member => ?_⟩
  · rw [Nat.and_assoc, Nat.and_self]
  · rw [← member.2]
    exact Nat.and_le_left

include mBound

theorem bor_bnot_eq : bor i (bnot m) = (i ||| hostBits m : ℕ) := by
  rw [bnot_natCast m mBound, bor_natCast, ← hostBits, Nat.mod_eq_of_lt]
  exact Nat.or_lt_two_pow iBound (hostBits_lt m)

/-- The bits under the mask that are cleared first do not matter for the last address. -/
theorem and_or_hostBits : (i &&& m) ||| hostBits m = i ||| hostBits m := by
  apply Nat.eq_of_testBit_eq
  intro j
  rw [Nat.testBit_or, Nat.testBit_or, Nat.testBit_and, testBit_hostBits mBound]
  by_cases low : j < 32
  · cases m.testBit j <;> simp [low]
  · simp [testBit_eq_false iBound low, low]

theorem isGreatest_maskedNetwork : IsGreatest (maskedNetwork i m) (i ||| hostBits m) := by
  refine ⟨⟨Nat.or_lt_two_pow iBound (hostBits_lt m), ?_⟩, fun x member => ?_⟩
  · apply Nat.eq_of_testBit_eq
    intro j
    rw [Nat.testBit_and, Nat.testBit_or, testBit_hostBits mBound, Nat.testBit_and]
    cases m.testBit j <;> simp
  · have absorbed : x ||| (i ||| hostBits m) = i ||| hostBits m := by
      apply Nat.eq_of_testBit_eq
      intro j
      have agree := congrArg (Nat.testBit · j) member.2
      simp only [Nat.testBit_and] at agree
      rw [Nat.testBit_or, Nat.testBit_or, testBit_hostBits mBound]
      by_cases low : j < 32
      · cases masked : m.testBit j <;> simp_all
      · simp [testBit_eq_false member.1 low, low]
    rw [← absorbed]
    exact Nat.left_le_or

/-- What the parser computes from an address and a mask. -/
theorem ends_maskedNetwork : Ends (maskedNetwork i m) ⟨band i m, bor i (bnot m)⟩ :=
  ⟨i &&& m, i ||| hostBits m, by rw [band_eq_and iBound, bor_bnot_eq iBound mBound],
    isLeast_maskedNetwork iBound, isGreatest_maskedNetwork iBound mBound⟩

theorem bor_band_bnot : bor (band i m) (bnot m) = bor i (bnot m) := by
  rw [band_eq_and iBound, bor_bnot_eq (and_lt_pow iBound) mBound, bor_bnot_eq iBound mBound,
    and_or_hostBits iBound mBound]

end Masked

/-! ## The documented forms -/

/-- Four octets. -/
structure Quad where
  a : Fin 256
  b : Fin 256
  c : Fin 256
  d : Fin 256

namespace Quad

def value (quad : Quad) : ℕ := partsToInt quad.a quad.b quad.c quad.d

def numbers (quad : Quad) : List ℕ := [quad.a, quad.b, quad.c, quad.d]

theorem value_eq (quad : Quad) : quad.value = ((quad.a.val * 256 + quad.b) * 256 + quad.c) * 256 + quad.d :=
  partsToInt_exact (by omega)

theorem value_lt (quad : Quad) : quad.value < 2 ^ 32 := by
  rw [value_eq]
  omega

end Quad

/-- The forms that the comment above `netString2range` names. -/
inductive NetForm where
  | address (ip : Quad)
  | cidr (ip : Quad) (length : Fin 33)
  | netmask (ip mask : Quad)
  | span (first last : Quad)

namespace NetForm

def numbers : NetForm → List ℕ
  | address ip => ip.numbers
  | cidr ip length => ip.numbers ++ [length.val]
  | netmask ip mask => ip.numbers ++ mask.numbers
  | span first last => first.numbers ++ last.numbers

def separators : NetForm → List Char
  | address _ => ['.', '.', '.']
  | cidr _ _ => ['.', '.', '.', '/']
  | netmask _ _ => ['.', '.', '.', '/', '.', '.', '.']
  | span _ _ => ['.', '.', '.', '-', '.', '.', '.']

/-- The addresses that a form stands for. -/
def network : NetForm → Set ℕ
  | address ip => {ip.value}
  | cidr ip length =>
      {x | x < 2 ^ 32 ∧ x / 2 ^ (32 - length.val) = ip.value / 2 ^ (32 - length.val)}
  | netmask ip mask => maskedNetwork ip.value mask.value
  | span first last => Set.Icc first.value last.value

/-- The text has the numbers of the form, and a slash where that tells forms apart. -/
def Reads (text : String) (form : NetForm) : Prop :=
  getPartsAsNumber text = form.numbers ∧
    match form with
    | netmask _ _ => '/' ∈ text.toList
    | span _ _ => '/' ∉ text.toList
    | _ => True

end NetForm

/-- Numbers written in decimal, possibly with leading zeros. -/
def Spells (part : List Char) (n : ℕ) : Prop :=
  part ≠ [] ∧ (∀ char ∈ part, char.isDigit = true) ∧ tonumber part = n

/-- Parts with separators between them. -/
def joinParts : List Char → List (List Char) → List Char
  | _, [] => []
  | [], part :: _ => part
  | separator :: others, part :: rest => part ++ separator :: joinParts others rest

/-- The text is written as the comment says for this form. -/
def Documented (text : String) (form : NetForm) : Prop :=
  ∃ parts, List.Forall₂ Spells parts form.numbers ∧ text.toList = joinParts form.separators parts

theorem words_joinParts {separators : List Char} {parts : List (List Char)}
    (outside : ∀ separator ∈ separators, separator.isDigit = false)
    (inside : ∀ part ∈ parts, part ≠ [] ∧ ∀ char ∈ part, char.isDigit = true)
    (length : parts.length = separators.length + 1) :
    words Char.isDigit (joinParts separators parts) = parts := by
  induction separators generalizing parts with
  | nil =>
      obtain ⟨part, rfl⟩ := List.length_eq_one_iff.mp length
      obtain ⟨nonempty, digits⟩ := inside part List.mem_cons_self
      exact words_word digits nonempty
  | cons separator others ih =>
      rw [List.forall_mem_cons] at outside
      cases parts with
      | nil => simp at length
      | cons part rest =>
          obtain ⟨nonempty, digits⟩ := inside part List.mem_cons_self
          rw [joinParts, words_append_separator digits nonempty outside.1,
            ih outside.2 (fun other member => inside other (List.mem_cons_of_mem _ member))
              (by simpa using length)]

/-- Every character of a joined text is a digit of a part or a separator. -/
theorem mem_joinParts {separators : List Char} {parts : List (List Char)}
    (inside : ∀ part ∈ parts, ∀ char ∈ part, char.isDigit = true) {char : Char}
    (member : char ∈ joinParts separators parts) : char.isDigit = true ∨ char ∈ separators := by
  induction separators generalizing parts with
  | nil =>
      cases parts with
      | nil => cases member
      | cons part rest => exact Or.inl (inside part List.mem_cons_self char member)
  | cons separator others ih =>
      cases parts with
      | nil => cases member
      | cons part rest =>
          rw [List.forall_mem_cons] at inside
          rcases List.mem_append.mp member with digit | member
          · exact Or.inl (inside.1 char digit)
          · rcases List.mem_cons.mp member with rfl | later
            · exact Or.inr List.mem_cons_self
            · exact (ih inside.2 later).imp_right (List.mem_cons_of_mem _)

theorem mem_joinParts_of_separator {separators : List Char} {parts : List (List Char)}
    (length : parts.length = separators.length + 1) {separator : Char}
    (member : separator ∈ separators) : separator ∈ joinParts separators parts := by
  induction separators generalizing parts with
  | nil => cases member
  | cons first others ih =>
      cases parts with
      | nil => simp at length
      | cons part rest =>
          rw [joinParts, List.mem_append]
          rcases List.mem_cons.mp member with rfl | later
          · exact Or.inr List.mem_cons_self
          · exact Or.inr (List.mem_cons_of_mem _ (ih (by simpa using length) later))

theorem spells_map {parts : List (List Char)} {numbers : List ℕ}
    (spelled : List.Forall₂ Spells parts numbers) : parts.map tonumber = numbers := by
  induction spelled with
  | nil => rfl
  | cons first _ ih => rw [List.map_cons, ih, first.2.2]

theorem spells_parts {parts : List (List Char)} {numbers : List ℕ}
    (spelled : List.Forall₂ Spells parts numbers) :
    ∀ part ∈ parts, part ≠ [] ∧ ∀ char ∈ part, char.isDigit = true := by
  induction spelled with
  | nil => exact fun part member => absurd member List.not_mem_nil
  | cons first _ ih => exact List.forall_mem_cons.mpr ⟨⟨first.1, first.2.1⟩, ih⟩

theorem NetForm.separators_length (form : NetForm) :
    form.numbers.length = form.separators.length + 1 := by
  cases form <;> rfl

theorem NetForm.separators_outside (form : NetForm) :
    ∀ separator ∈ form.separators, separator.isDigit = false := by
  cases form <;> simp [separators, Char.isDigit]

theorem NetForm.numbers_small (form : NetForm) : ∀ n ∈ form.numbers, n ≤ 2 ^ 53 := by
  intro n member
  have below : n < 256 := by
    cases form <;> simp only [numbers, Quad.numbers, List.mem_cons, List.mem_append, List.not_mem_nil, or_false] at member <;> omega
  exact below.le.trans (by decide)

/-- A text written as the comment says reads as its form. -/
theorem Documented.reads {text : String} {form : NetForm} (documented : Documented text form) :
    form.Reads text := by
  obtain ⟨parts, spelled, written⟩ := documented
  have inside := spells_parts spelled
  have length : parts.length = form.separators.length + 1 :=
    spelled.length_eq.trans form.separators_length
  refine ⟨?_, ?_⟩
  · rw [getPartsAsNumber_eq, written, words_joinParts form.separators_outside inside length,
      spells_map spelled, map_round_exact form.numbers_small]
  · cases form with
    | address _ => trivial
    | cidr _ _ => trivial
    | netmask ip mask =>
        show '/' ∈ text.toList
        rw [written]
        exact mem_joinParts_of_separator length (by simp [NetForm.separators])
    | span first last =>
        show '/' ∉ text.toList
        rw [written]
        intro slash
        rcases mem_joinParts (fun part member => (inside part member).2) slash with digit | separator
        · exact absurd digit (by decide)
        · exact absurd separator (by simp [NetForm.separators])

/-! ## What the parser makes of a form -/

theorem maskedNetwork_leading {i : ℕ} (length : ℕ) (iBound : i < 2 ^ 32) :
    maskedNetwork i (2 ^ 32 - 2 ^ (32 - length)) =
      {x | x < 2 ^ 32 ∧ x / 2 ^ (32 - length) = i / 2 ^ (32 - length)} := by
  ext x
  refine and_congr_right fun xBound => ?_
  rw [and_netmask x _ xBound (Nat.sub_le _ _), and_netmask i _ iBound (Nat.sub_le _ _)]
  exact Nat.mul_right_inj (Nat.two_pow_pos _).ne'

/-- The range of a form whose network is not empty. -/
theorem netString2range_of_reads {text : String} {form : NetForm} (reads : form.Reads text)
    (nonempty : form.network.Nonempty) :
    ∃ range, netString2range text = some range ∧ Ends form.network range := by
  obtain ⟨numbers, slash⟩ := reads
  unfold netString2range
  cases form with
  | address ip =>
      refine ⟨⟨ip.value, ip.value⟩, by rw [numbers]; rfl, ip.value, ip.value, rfl, ?_, ?_⟩
      · exact isLeast_singleton
      · exact isGreatest_singleton
  | cidr ip length =>
      have bound : length.val ≤ 32 := Nat.lt_succ_iff.mp length.isLt
      have ends := ends_maskedNetwork (m := 2 ^ 32 - 2 ^ (32 - length.val)) ip.value_lt
        (Nat.sub_lt (by decide) (Nat.two_pow_pos _))
      rw [maskedNetwork_leading _ ip.value_lt, ← cidr2int_eq _ bound] at ends
      refine ⟨_, ?_, ends⟩
      rw [numbers]
      exact if_pos bound
  | netmask ip mask =>
      have ends := ends_maskedNetwork ip.value_lt mask.value_lt
      rw [← bor_band_bnot ip.value_lt mask.value_lt] at ends
      refine ⟨_, ?_, ends⟩
      rw [numbers]
      show (if '/' ∈ text.toList then _ else _) = _
      rw [if_pos slash]
      exact if_pos ends.ordered
  | span first last =>
      have ordered : first.value ≤ last.value := Set.nonempty_Icc.mp nonempty
      refine ⟨⟨first.value, last.value⟩, ?_, first.value, last.value, rfl, isLeast_Icc ordered,
        isGreatest_Icc ordered⟩
      rw [numbers]
      show (if '/' ∈ text.toList then _ else _) = _
      rw [if_neg slash]
      exact if_pos ordered

/-- Two addresses in the wrong order are rejected. -/
theorem netString2range_of_empty {text : String} {form : NetForm} (reads : form.Reads text)
    (empty : form.network = ∅) : netString2range text = none := by
  obtain ⟨numbers, slash⟩ := reads
  cases form with
  | address ip => exact absurd empty (Set.singleton_ne_empty _)
  | cidr ip length => exact absurd empty (Set.Nonempty.ne_empty ⟨ip.value, ip.value_lt, rfl⟩)
  | netmask ip mask => exact absurd empty (Set.Nonempty.ne_empty ⟨ip.value, ip.value_lt, rfl⟩)
  | span first last =>
      have reversed : ¬first.value ≤ last.value := fun ordered =>
        Set.nonempty_iff_ne_empty.mp (Set.nonempty_Icc.mpr ordered) empty
      unfold netString2range
      rw [numbers]
      show (if '/' ∈ text.toList then _ else _) = _
      rw [if_neg slash]
      exact if_neg reversed

theorem NetForm.network_lt (form : NetForm) : ∀ x ∈ form.network, x < 2 ^ 32 := by
  intro x member
  cases form with
  | address ip => exact Set.mem_singleton_iff.mp member ▸ ip.value_lt
  | cidr ip length => exact member.1
  | netmask ip mask => exact member.1
  | span first last => exact member.2.trans_lt last.value_lt

/-- The numbers of a text that stand where the forms have octets. -/
def octetsOf : List ℕ → List ℕ
  | [a, b, c, d] => [a, b, c, d]
  | [a, b, c, d, _] => [a, b, c, d]
  | [a, b, c, d, a', b', c', d'] => [a, b, c, d, a', b', c', d']
  | _ => []

/-- A text without octets above 255 that is accepted reads as one of the forms. -/
theorem exists_reads {text : String} (octets : ∀ n ∈ octetsOf (getPartsAsNumber text), n < 256)
    {range : Range} (parsed : netString2range text = some range) : ∃ form : NetForm, form.Reads text := by
  unfold netString2range at parsed
  split at parsed
  · next a b c d numbers =>
      rw [numbers] at octets
      simp only [octetsOf, List.forall_mem_cons] at octets
      obtain ⟨a, b, c, d, -⟩ := octets
      exact ⟨.address ⟨⟨_, a⟩, ⟨_, b⟩, ⟨_, c⟩, ⟨_, d⟩⟩, numbers, trivial⟩
  · next a b c d cidr numbers =>
      rw [numbers] at octets
      simp only [octetsOf, List.forall_mem_cons] at octets
      obtain ⟨a, b, c, d, -⟩ := octets
      split at parsed
      · next bound =>
          exact ⟨.cidr ⟨⟨_, a⟩, ⟨_, b⟩, ⟨_, c⟩, ⟨_, d⟩⟩ ⟨cidr, Nat.lt_succ_of_le bound⟩, numbers, trivial⟩
      · cases parsed
  · next a b c d a' b' c' d' numbers =>
      rw [numbers] at octets
      simp only [octetsOf, List.forall_mem_cons] at octets
      obtain ⟨a, b, c, d, a', b', c', d', -⟩ := octets
      let ip : Quad := ⟨⟨_, a⟩, ⟨_, b⟩, ⟨_, c⟩, ⟨_, d⟩⟩
      let other : Quad := ⟨⟨_, a'⟩, ⟨_, b'⟩, ⟨_, c'⟩, ⟨_, d'⟩⟩
      by_cases slash : '/' ∈ text.toList
      · exact ⟨.netmask ip other, numbers, slash⟩
      · exact ⟨.span ip other, numbers, slash⟩
  · cases parsed

/-- A text as the comment of the source has it reads as its form; a text without octets
above 255 is accepted exactly when it reads as a form with addresses, and the result runs
from the first to the last of them. -/
theorem netString2range_reads_forms :
    (∀ text form, Documented text form → form.Reads text) ∧
    ∀ text : String, (∀ n ∈ octetsOf (getPartsAsNumber text), n < 256) →
      match netString2range text with
      | some range =>
          (∃ form : NetForm, form.Reads text ∧ Ends form.network range) ∧
            0 ≤ range.lo ∧ range.lo ≤ range.hi ∧ range.hi ≤ 2 ^ 32 - 1
      | none => ∀ form : NetForm, form.Reads text → form.network = ∅ := by
  refine ⟨fun _ _ documented => documented.reads, fun text octets => ?_⟩
  cases parsed : netString2range text with
  | some range =>
      obtain ⟨form, reads⟩ := exists_reads octets parsed
      have nonempty : form.network.Nonempty := by
        by_contra none
        rw [netString2range_of_empty reads (Set.not_nonempty_iff_eq_empty.mp none)] at parsed
        cases parsed
      obtain ⟨range', parsed', ends⟩ := netString2range_of_reads reads nonempty
      obtain rfl := Option.some.inj (parsed.symm.trans parsed')
      refine ⟨⟨form, reads, ends⟩, netString2range_nonneg parsed, ends.ordered, ?_⟩
      obtain ⟨first, last, rfl, -, greatest⟩ := ends
      have below := form.network_lt last greatest.1
      show (last : ℤ) ≤ 2 ^ 32 - 1
      omega
  | none =>
      intro form reads
      by_contra some
      obtain ⟨range, parsed', -⟩ :=
        netString2range_of_reads reads (Set.nonempty_iff_ne_empty.mpr some)
      rw [parsed] at parsed'
      cases parsed'

theorem netString2range_reads_forms_prefix :
    ∃ form : NetForm, form.Reads "10.0.0.7/8" ∧ Ends form.network ⟨167772160, 184549375⟩ := by
  have octets : ∀ n ∈ octetsOf (getPartsAsNumber "10.0.0.7/8"), n < 256 := by decide +kernel
  have result := netString2range_reads_forms.2 "10.0.0.7/8" octets
  rw [show netString2range "10.0.0.7/8" = some ⟨167772160, 184549375⟩ by decide +kernel] at result
  exact result.1

/-- The text between the numbers is not looked at. -/
theorem netString2range_takes_other_text :
    netString2range "1x2x3x4" = some ⟨16909060, 16909060⟩ ∧
      ∀ form, ¬Documented "1x2x3x4" form := by
  refine ⟨by decide +kernel, ?_⟩
  rintro form ⟨parts, spelled, written⟩
  have other : 'x' ∈ joinParts form.separators parts := written ▸ by decide
  rcases mem_joinParts (fun part member => (spells_parts spelled part member).2) other with
    digit | separator
  · exact absurd digit (by decide)
  · cases form <;> simp [NetForm.separators] at separator

/-! ## Texts that reach beyond 32 bits -/

/-- The numbers of the text make an address of `2 ^ 32` or more, and the text is accepted
without cutting it to 32 bits. -/
def ReachesBeyond (netString : String) : Prop :=
  match getPartsAsNumber netString with
  | [a, b, c, d] => 2 ^ 32 ≤ partsToInt a b c d
  | [a, b, c, d, a', b', c', d'] =>
      '/' ∉ netString.toList ∧ partsToInt a b c d ≤ partsToInt a' b' c' d' ∧
        2 ^ 32 ≤ partsToInt a' b' c' d'
  | _ => False

theorem ReachesBeyond.parsed {netString : String} (beyond : ReachesBeyond netString) :
    ∃ range, netString2range netString = some range ∧ 2 ^ 32 ≤ range.hi := by
  unfold ReachesBeyond at beyond
  unfold netString2range
  split at beyond
  · next numbers =>
      rw [numbers]
      exact ⟨_, rfl, Int.ofNat_le.mpr beyond⟩
  · next numbers =>
      obtain ⟨slash, ordered, wide⟩ := beyond
      rw [numbers]
      dsimp only
      rw [if_neg slash, if_pos ordered]
      exact ⟨_, rfl, Int.ofNat_le.mpr wide⟩
  · exact beyond.elim

theorem reachesBeyond_of_parsed {netString : String} {range : Range}
    (parsed : netString2range netString = some range) (wide : 2 ^ 32 ≤ range.hi) :
    ReachesBeyond netString := by
  unfold netString2range at parsed
  unfold ReachesBeyond
  split at parsed
  · next numbers =>
      cases parsed
      rw [numbers]
      exact Int.ofNat_le.mp wide
  · split at parsed
    · cases parsed
      exact absurd (bor_lt _ _) (not_lt.mpr wide)
    · cases parsed
  · next numbers =>
      dsimp only at parsed
      rw [numbers]
      split at parsed
      · split at parsed
        · cases parsed
          exact absurd (bor_lt _ _) (not_lt.mpr wide)
        · cases parsed
      · next slash =>
          split at parsed
          · next ordered =>
              cases parsed
              exact ⟨slash, ordered, Int.ofNat_le.mp wide⟩
          · cases parsed
  · cases parsed

/-- The set that is built stays inside 32 bits exactly when every text does. -/
theorem narrow_iff (netStrings : List String) :
    Narrow (netStringSet2rangeSet netStrings) ↔ ∀ netString ∈ netStrings, ¬ReachesBeyond netString := by
  obtain ⟨-, points⟩ := netStringSet2rangeSet_spec netStrings
  constructor
  · intro narrow netString member beyond
    obtain ⟨range, parsed, wide⟩ := beyond.parsed
    have inside : range.hi ∈ denote (netStringSet2rangeSet netStrings) := by
      rw [points]
      exact mem_denoteStrings_of_parsed member parsed (netString2range_proper parsed) le_rfl
    obtain ⟨other, isRange, -, upper⟩ := mem_denote.mp inside
    exact absurd (narrow other isRange) (not_lt.mpr (wide.trans upper))
  · intro small range isRange
    obtain ⟨other, isOther, stop⟩ := (netStringSet2rangeSet_standFor netStrings).2.stops range isRange
    obtain ⟨netString, member, read⟩ := mem_parsedRanges.mp (List.mem_reverse.mp isOther)
    by_contra wide
    exact small netString member (reachesBeyond_of_parsed read (stop ▸ not_lt.mp wide))

/-- The conversion ends with some fuel exactly on sets inside 32 bits. -/
theorem rangeSet2ipcidrSet_ends_iff (netStrings : List String) :
    (∃ fuel, (rangeSet2ipcidrSet fuel (netStringSet2rangeSet netStrings)).isSome) ↔
      Narrow (netStringSet2rangeSet netStrings) := by
  obtain ⟨canon, -⟩ := netStringSet2rangeSet_spec netStrings
  constructor
  · rintro ⟨fuel, ends⟩
    by_contra wide
    simp only [Narrow, not_forall, not_lt] at wide
    obtain ⟨range, member, beyond⟩ := wide
    rw [rangeSet2ipcidrSet_diverges fuel canon.proper ⟨range, member, beyond⟩] at ends
    cases ends
  · intro narrow
    obtain ⟨blocks, updated, -, run⟩ := rangeSet2ipcidrSet_spec (2 ^ 32 + 1) (Nat.lt_succ_self _)
      canon.proper fun range member => ⟨parsed_lo_nonneg member, narrow range member⟩
    exact ⟨2 ^ 32 + 1, by rw [run]; rfl⟩

/-- The conversion of a list of texts, and the command on a text with commas, end exactly
when no text makes an address of 33 bits. -/
theorem conversion_ends_iff (netStrings : List String) (text : String) :
    ((∃ fuel, (rangeSet2ipcidrSet fuel (netStringSet2rangeSet netStrings)).isSome) ↔
      ∀ netString ∈ netStrings, ¬ReachesBeyond netString) ∧
    ((∃ fuel, (netStrings2ipcidrStrings fuel text).isSome) ↔
      ∀ netString ∈ splitNetStrings text, ¬ReachesBeyond netString) := by
  have list := fun netStrings => (rangeSet2ipcidrSet_ends_iff netStrings).trans (narrow_iff netStrings)
  refine ⟨list netStrings, ?_⟩
  rw [← list]
  simp only [netStrings2ipcidrStrings, Option.isSome_map]

/-- An octet above 255 lifts the range past the last address. -/
theorem conversion_diverges :
    ¬∃ fuel, (rangeSet2ipcidrSet fuel (netStringSet2rangeSet ["300.0.0.0"])).isSome := by
  rintro ⟨fuel, ends⟩
  have set : netStringSet2rangeSet ["300.0.0.0"] = [⟨5033164800, 5033164800⟩] := by decide +kernel
  rw [set, rangeSet2ipcidrSet_diverges fuel (by simp) ⟨_, List.mem_singleton_self _, by decide⟩] at ends
  cases ends

end XWrt.Ipops
