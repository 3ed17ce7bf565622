import XWrt.Foundation.Padding
import XWrt.Natflow.UserMatches

/-!
# Network lists in the web form

`nets_validate` of `natflow-qos.js`: a list with commas of addresses, networks
and IPv4 ranges, with white space around them. What LuCI accepts as an address
is given. A text in the browser is a sequence of characters; the router stores
it as UTF-8, and there a character stands for one byte.
-/

namespace XWrt.Natflow

open Foundation.Text
open Foundation.Numerals
open Ipops

/-! ## The form -/

/-- What `trim` takes away. -/
def jsSpaces : List Char :=
  ['\t', '\n', '\x0b', '\x0c', '\r', ' ', '\u00a0', '\u1680', '\u2000', '\u2001', '\u2002', '\u2003', '\u2004', '\u2005',
    '\u2006', '\u2007', '\u2008', '\u2009', '\u200a', '\u2028', '\u2029', '\u202f', '\u205f', '\u3000', '\ufeff']

def isJsSpace (char : Char) : Bool := char ∈ jsSpaces

/-- `token.trim()` -/
def jsTrim (token : List Char) : List Char := (token.dropWhile isJsSpace).rdropWhile isJsSpace

/-- LuCI's `validation` module; what it accepts is an address. -/
structure Validation where
  parseIPv4 : List Char → Bool
  parseIPv6 : List Char → Bool
  ipv4 : ∀ addr, parseIPv4 addr = true → ∃ quad, Documented (String.ofList addr) (.address quad)
  ipv6 : ∀ addr, parseIPv6 addr = true → ∃ groups, Ipv6Literal addr groups

/-- `25[0-5]|2[0-4][0-9]|1[0-9][0-9]|[1-9]?[0-9]` -/
def octetRe : List Char → Bool
  | [a] => a.isDigit
  | [a, b] => a.isDigit && a != '0' && b.isDigit
  | ['1', b, c] => b.isDigit && c.isDigit
  | ['2', b, c] => b.isDigit && c.isDigit && (b < '5' || (b == '5' && c ≤ '5'))
  | _ => false

/-- Four octets with dots between them. -/
def quadRe (addr : List Char) : Bool := (addr.splitOn '.').length = 4 && (addr.splitOn '.').all octetRe

/-- `re_ip_range` -/
def reIpRange (range : List Char) : Bool :=
  match range.splitOn '-' with
  | [first, last] => quadRe first && quadRe last
  | _ => false

/-- `ip_range_validate`, on the texts that `re_ip_range` lets through. -/
def ipRangeValidate (range : List Char) : Bool :=
  match ((range.map fun char => if char = '-' then '.' else char).splitOn '.').map tonumber with
  | [a, b, c, d, a', b', c', d'] => partsToInt a b c d ≤ partsToInt a' b' c' d'
  | _ => false

/-- `ip_token_validate` -/
def ipTokenValidate (v : Validation) (token : List Char) : Bool :=
  let token := jsTrim token
  if token = [] then false
  else
    match token.splitOn '/' with
    | [addr] => addr != [] && (v.parseIPv4 addr || v.parseIPv6 addr || (reIpRange addr && ipRangeValidate addr))
    | [addr, length] =>
        if addr = [] ∨ length = [] ∨ ¬length.all Char.isDigit then false
        else if v.parseIPv4 addr then tonumber length ≤ 32
        else if v.parseIPv6 addr then tonumber length ≤ 128
        else false
    | _ => false

/-- `nets_validate` -/
def netsValidate (v : Validation) (nets : List Char) : Bool := (nets.splitOn ',').all (ipTokenValidate v)

/-- The bytes of a character in UTF-8. -/
def utf8 (char : Char) : List Char := (String.utf8EncodeChar char).map fun byte => Char.ofNat byte.toNat

/-- The list as the router stores it. -/
def storedText (nets : List Char) : String := String.ofList (nets.flatMap utf8)

/-! ## What the items stand for -/

/-- The text is an IPv6 network: an address, or one with a prefix length. -/
inductive Ipv6Network : List Char → List Nat → Nat → Prop where
  | address {text : List Char} {groups : List Nat} (literal : Ipv6Literal text groups) : Ipv6Network text groups 128
  | cidr {text length : List Char} {groups : List Nat} (literal : Ipv6Literal text groups)
      (digits : ∀ char ∈ length, char.isDigit = true) (some : length ≠ []) (bound : tonumber length ≤ 128) :
      Ipv6Network (text ++ '/' :: length) groups (tonumber length)

inductive Address where
  | ipv4 (quad : Quad)
  | ipv6 (addr : Ipv6Bytes)

/-- The address lies in the network or range that the text denotes. -/
def InNet (text : List Char) : Address → Prop
  | .ipv4 quad => ∃ form, Documented (String.ofList text) form ∧ quad.value ∈ form.network
  | .ipv6 addr => ∃ groups length, Ipv6Network text groups length ∧
      addr.value / 2 ^ (128 - length) = fromHigh 256 (groupBytes groups) / 2 ^ (128 - length)

/-- The address lies in what one of the items of the list denotes. -/
def InNets (nets : List Char) (address : Address) : Prop := ∃ token ∈ nets.splitOn ',', InNet (jsTrim token) address

/-- An item that is let through. -/
inductive Item (core : List Char) : Prop where
  | ipv4 {form : NetForm} (written : Documented (String.ofList core) form) (contiguous : form.Contiguous)
      (some : form.network.Nonempty)
  | ipv6 {groups : List Nat} {length : Nat} (written : Ipv6Network core groups length)

/-! ## What the form lets through -/

theorem isDigit_toNat {char : Char} (digit : char.isDigit = true) : 48 ≤ char.toNat ∧ char.toNat ≤ 57 := by
  simp only [Char.isDigit, Bool.and_eq_true, decide_eq_true_eq] at digit
  exact ⟨UInt32.le_iff_toNat_le.mp digit.1, UInt32.le_iff_toNat_le.mp digit.2⟩

/-- An octet is a number up to 255. -/
theorem octetRe_spells {part : List Char} (octet : octetRe part = true) : ∃ n : Fin 256, Spells part n := by
  have zero : '0'.toNat = 48 := rfl
  have five : '5'.toNat = 53 := rfl
  have digits : (∀ char ∈ part, char.isDigit = true) ∧ part ≠ [] ∧ tonumber part < 256 := by
    unfold octetRe at octet
    split at octet
    next a =>
      have := isDigit_toNat octet
      refine ⟨by simpa using octet, by simp, ?_⟩
      simp only [tonumber, List.foldl_cons, List.foldl_nil]
      omega
    next a b =>
      simp only [Bool.and_eq_true] at octet
      have := isDigit_toNat octet.1.1
      have := isDigit_toNat octet.2
      refine ⟨by simpa using ⟨octet.1.1, octet.2⟩, by simp, ?_⟩
      simp only [tonumber, List.foldl_cons, List.foldl_nil]
      omega
    next b c =>
      simp only [Bool.and_eq_true] at octet
      have := isDigit_toNat octet.1
      have := isDigit_toNat octet.2
      refine ⟨by simpa using octet, by simp, ?_⟩
      simp only [tonumber, List.foldl_cons, List.foldl_nil, show '1'.toNat = 49 from rfl]
      omega
    next b c =>
      simp only [Bool.and_eq_true, Bool.or_eq_true, decide_eq_true_eq, beq_iff_eq] at octet
      obtain ⟨⟨b, c⟩, bound⟩ := octet
      have := isDigit_toNat b
      have := isDigit_toNat c
      refine ⟨by simpa using ⟨b, c⟩, by simp, ?_⟩
      simp only [tonumber, List.foldl_cons, List.foldl_nil, show '2'.toNat = 50 from rfl]
      rcases bound with low | ⟨rfl, last⟩
      · have := mt char_le_iff.mpr (Char.not_le.mpr low)
        omega
      · have := char_le_iff.mp last
        omega
    next => cases octet
  exact ⟨⟨tonumber part, digits.2.2⟩, digits.2.1, digits.1, rfl⟩

theorem quadRe_spells {addr : List Char} (matched : quadRe addr = true) :
    ∃ (quad : Quad) (parts : List (List Char)), List.Forall₂ Spells parts quad.numbers ∧ addr = joinParts ['.', '.', '.'] parts := by
  simp only [quadRe, Bool.and_eq_true, decide_eq_true_eq, List.all_eq_true] at matched
  have whole : ['.'].intercalate (addr.splitOn '.') = addr := List.intercalate_splitOn '.'
  obtain ⟨a, b, c, d, parts⟩ := List.length_eq_four.mp matched.1
  rw [parts] at whole matched
  simp only [List.forall_mem_cons] at matched
  obtain ⟨a', a⟩ := octetRe_spells matched.2.1
  obtain ⟨b', b⟩ := octetRe_spells matched.2.2.1
  obtain ⟨c', c⟩ := octetRe_spells matched.2.2.2.1
  obtain ⟨d', d⟩ := octetRe_spells matched.2.2.2.2.1
  refine ⟨⟨a', b', c', d'⟩, _, .cons a (.cons b (.cons c (.cons d .nil))), ?_⟩
  rw [← whole]
  simp [joinParts]

theorem joinParts_append {separators others : List Char} {separator : Char} {parts rest : List (List Char)}
    (length : parts.length = separators.length + 1) :
    joinParts (separators ++ separator :: others) (parts ++ rest) = joinParts separators parts ++ separator :: joinParts others rest := by
  induction separators generalizing parts with
  | nil =>
      obtain ⟨part, rfl⟩ := List.length_eq_one_iff.mp length
      rfl
  | cons first separators ih =>
      cases parts with
      | nil => simp at length
      | cons part parts =>
          rw [List.cons_append, List.cons_append, joinParts, joinParts, ih (by simpa using length), List.append_assoc]
          rfl

theorem joinParts_replicate {n : Nat} {separator : Char} {parts : List (List Char)} (length : parts.length = n + 1) :
    joinParts (List.replicate n separator) parts = [separator].intercalate parts := by
  induction n generalizing parts with
  | zero =>
      obtain ⟨part, rfl⟩ := List.length_eq_one_iff.mp length
      rw [List.intercalate_singleton]
      rfl
  | succ n ih =>
      obtain ⟨first, second, rest, rfl⟩ : ∃ first second rest, parts = first :: second :: rest := by
        match parts, length with
        | first :: second :: rest, _ => exact ⟨first, second, rest, rfl⟩
      rw [List.replicate_succ, joinParts, ih (by simpa using length), List.intercalate_cons_cons, List.append_assoc]
      rfl

theorem documented_cidr {addr length : List Char} {quad : Quad} (address : Documented (String.ofList addr) (.address quad))
    (digits : ∀ char ∈ length, char.isDigit = true) (some : length ≠ []) (bound : tonumber length ≤ 32) :
    Documented (String.ofList (addr ++ '/' :: length)) (.cidr quad ⟨tonumber length, Nat.lt_succ_of_le bound⟩) := by
  obtain ⟨parts, spelled, written⟩ := address
  rw [String.toList_ofList] at written
  refine ⟨parts ++ [length], List.rel_append spelled (.cons ⟨some, digits, rfl⟩ .nil), ?_⟩
  have four : parts.length = ['.', '.', '.'].length + 1 := spelled.length_eq
  have joined : joinParts ['.', '.', '.', '/'] (parts ++ [length]) = joinParts ['.', '.', '.'] parts ++ '/' :: length :=
    joinParts_append four
  rw [String.toList_ofList, written]
  exact joined.symm

/-- A range that passes both tests. -/
theorem documented_span {range : List Char} (matched : reIpRange range = true) (ordered : ipRangeValidate range = true) :
    ∃ first last : Quad, first.value ≤ last.value ∧ Documented (String.ofList range) (.span first last) := by
  unfold reIpRange at matched
  split at matched
  next first last split =>
    have whole : ['-'].intercalate (range.splitOn '-') = range := List.intercalate_splitOn '-'
    rw [split, List.intercalate_cons_cons, List.intercalate_singleton, List.append_assoc, List.singleton_append] at whole
    obtain ⟨front, back⟩ := Bool.and_eq_true _ _ |>.mp matched
    obtain ⟨quad, parts, spelled, rfl⟩ := quadRe_spells front
    obtain ⟨quad', parts', spelled', rfl⟩ := quadRe_spells back
    have digits := spells_parts (List.rel_append spelled spelled')
    -- With a dot for the dash, the range is eight numbers with dots between them.
    have plain : ∀ (quad : Quad) (parts : List (List Char)), List.Forall₂ Spells parts quad.numbers →
        ((joinParts ['.', '.', '.'] parts).map fun char => if char = '-' then '.' else char) = joinParts ['.', '.', '.'] parts := by
      intro quad parts spelled
      refine (List.map_congr_left fun char member => ?_).trans (List.map_id _)
      refine if_neg ?_
      rintro rfl
      rcases mem_joinParts (fun part inside => (spells_parts spelled part inside).2) member with digit | separator
      · exact absurd digit (by decide)
      · exact absurd separator (by decide)
    have four : parts.length = ['.', '.', '.'].length + 1 := spelled.length_eq
    have dotted : (range.map fun char => if char = '-' then '.' else char).splitOn '.' = parts ++ parts' := by
      have eight : (parts ++ parts').length = 7 + 1 := by
        rw [List.length_append, spelled.length_eq, spelled'.length_eq]
        rfl
      have free : ∀ part ∈ parts ++ parts', '.' ∉ part := fun part member dot => absurd ((digits part member).2 _ dot) (by decide)
      have replaced : (range.map fun char => if char = '-' then '.' else char) = ['.'].intercalate (parts ++ parts') := by
        rw [← joinParts_replicate eight, ← whole, List.map_append, List.map_cons, plain quad parts spelled,
          plain quad' parts' spelled', if_pos rfl]
        exact (joinParts_append four).symm
      rw [replaced, List.splitOn_intercalate '.' free (List.ne_nil_of_length_eq_add_one eight)]
    have numbers : (parts ++ parts').map tonumber = quad.numbers ++ quad'.numbers := spells_map (List.rel_append spelled spelled')
    rw [ipRangeValidate, dotted, numbers] at ordered
    refine ⟨quad, quad', of_decide_eq_true ordered, parts ++ parts', List.rel_append spelled spelled', ?_⟩
    rw [String.toList_ofList, ← whole]
    exact (joinParts_append four).symm
  next => cases matched

theorem ipTokenValidate_item {v : Validation} {token : List Char} (accepted : ipTokenValidate v token = true) :
    Item (jsTrim token) := by
  have address : ∀ {addr : List Char}, v.parseIPv4 addr = true → Item addr := fun parsed => by
    obtain ⟨quad, written⟩ := v.ipv4 _ parsed
    exact .ipv4 written trivial (Set.singleton_nonempty _)
  have whole : ['/'].intercalate ((jsTrim token).splitOn '/') = jsTrim token := List.intercalate_splitOn '/'
  rw [ipTokenValidate] at accepted
  split at accepted
  next => cases accepted
  next =>
    split at accepted
    next addr split =>
      rw [split, List.intercalate_singleton] at whole
      rw [← whole]
      simp only [Bool.and_eq_true, Bool.or_eq_true] at accepted
      rcases accepted.2 with (parsed | parsed) | ⟨matched, ordered⟩
      · exact address parsed
      · obtain ⟨groups, literal⟩ := v.ipv6 _ parsed
        exact .ipv6 (.address literal)
      · obtain ⟨first, last, order, written⟩ := documented_span matched ordered
        exact .ipv4 written trivial (Set.nonempty_Icc.mpr order)
    next addr length split =>
      rw [split, List.intercalate_cons_cons, List.intercalate_singleton, List.append_assoc, List.singleton_append] at whole
      rw [← whole]
      split at accepted
      next => cases accepted
      next proper =>
        simp only [not_or, not_not, List.all_eq_true] at proper
        split at accepted
        next parsed =>
          obtain ⟨quad, written⟩ := v.ipv4 _ parsed
          have network := documented_cidr written proper.2.2 proper.2.1 (of_decide_eq_true accepted)
          exact .ipv4 network trivial ⟨quad.value, quad.value_lt, rfl⟩
        next =>
          split at accepted
          next parsed =>
            obtain ⟨groups, literal⟩ := v.ipv6 _ parsed
            exact .ipv6 (.cidr literal proper.2.2 proper.2.1 (of_decide_eq_true accepted))
          next => cases accepted
    next => cases accepted

/-! ## Characters -/

/-- The characters of the items. -/
def isItemChar (char : Char) : Bool := isHexDigit char || [':', '.', '/', '-'].contains char

theorem isItemChar_lt {char : Char} (inside : isItemChar char = true) : char.toNat < 128 := by
  have bounds : 'a'.toNat = 97 ∧ 'f'.toNat = 102 ∧ 'A'.toNat = 65 ∧ 'F'.toNat = 70 := by decide
  simp only [isItemChar, isHexDigit, Bool.or_eq_true, Bool.and_eq_true, decide_eq_true_eq, char_le_iff] at inside
  rcases inside with ((digit | lower) | upper) | other
  · have := isDigit_toNat digit
    omega
  · omega
  · omega
  · simp only [List.contains_eq_mem, List.mem_cons, List.not_mem_nil, or_false, decide_eq_true_eq] at other
    rcases other with rfl | rfl | rfl | rfl
    · decide
    · decide
    · decide
    · decide

theorem isItemChar_of_isDigit {char : Char} (digit : char.isDigit = true) : isItemChar char = true := by
  simp [isItemChar, isHexDigit, digit]

theorem documented_chars {text : List Char} {form : NetForm} (written : Documented (String.ofList text) form) :
    ∀ char ∈ text, isItemChar char = true ∧ char ≠ ':' := by
  intro char member
  obtain ⟨parts, spelled, joined⟩ := written
  rw [String.toList_ofList] at joined
  rw [joined] at member
  rcases mem_joinParts (fun part inside => (spells_parts spelled part inside).2) member with digit | separator
  · refine ⟨isItemChar_of_isDigit digit, ?_⟩
    rintro rfl
    exact absurd digit (by decide)
  · have signs : (form.separators.all fun separator => isItemChar separator && separator != ':') = true := by cases form <;> rfl
    simpa using List.all_eq_true.mp signs char separator

theorem exists_of_forall₂ {α β : Type*} {relation : α → β → Prop} {left : List α} {right : List β}
    (all : List.Forall₂ relation left right) {item : α} (member : item ∈ left) : ∃ other, relation item other := by
  induction all with
  | nil => exact absurd member List.not_mem_nil
  | cons first _ ih =>
      rcases List.mem_cons.mp member with rfl | later
      · exact ⟨_, first⟩
      · exact ih later

theorem LoosePart.chars {piece : List Char} {values : List Nat} (part : LoosePart piece values) :
    ∀ char ∈ piece, isHexDigit char = true ∨ char = '.' := by
  intro char member
  cases part with
  | group digits => exact .inl (digits.2.2.1 char member)
  | dotted octets =>
      by_cases dot : char = '.'
      · exact .inr dot
      · obtain ⟨run, inside, here⟩ := @mem_words _ (· != '.') _ _ member (bne_iff_ne.mpr dot)
        obtain ⟨value, octet, -⟩ := exists_of_forall₂ octets inside
        exact .inl (by rw [isHexDigit, octet.2.1 char here, Bool.true_or, Bool.true_or])

/-- Parts of a text between colons. -/
theorem parts_chars {text : List Char} {values : List (List Nat)} (parts : List.Forall₂ LoosePart (words (· != ':') text) values) :
    ∀ char ∈ text, isHexDigit char = true ∨ char = ':' ∨ char = '.' := by
  intro char member
  by_cases colon : char = ':'
  · exact .inr (.inl colon)
  · obtain ⟨piece, inside, here⟩ := @mem_words _ (· != ':') _ _ member (bne_iff_ne.mpr colon)
    obtain ⟨value, part⟩ := exists_of_forall₂ parts inside
    exact (part.chars char here).imp_right .inr

theorem LooseLiteral.chars {text : List Char} {groups : List Nat} (loose : LooseLiteral text groups) :
    ∀ char ∈ text, isHexDigit char = true ∨ char = ':' ∨ char = '.' := by
  cases loose with
  | full _ parts _ => exact parts_chars parts
  | compressed _ _ front back _ =>
      intro char member
      rcases List.mem_append.mp member with left | right
      · exact parts_chars front char left
      · rcases List.mem_cons.mp right with rfl | right
        · exact .inr (.inl rfl)
        · rcases List.mem_cons.mp right with rfl | right
          · exact .inr (.inl rfl)
          · exact parts_chars back char right

/-- Every IPv6 network has a colon, and no character that is in no item. -/
theorem Ipv6Network.chars {text : List Char} {groups : List Nat} {length : Nat} (network : Ipv6Network text groups length) :
    ':' ∈ text ∧ ∀ char ∈ text, isItemChar char = true := by
  have literal : ∀ {addr : List Char} {groups : List Nat}, Ipv6Literal addr groups →
      ':' ∈ addr ∧ ∀ char ∈ addr, isItemChar char = true := by
    intro addr groups literal
    constructor
    · have colon : isIpv6 (String.ofList addr) = true := isIpv6_of_literal (by rwa [String.toList_ofList])
      rwa [isIpv6_eq_true, String.toList_ofList] at colon
    · intro char member
      rcases literal.loose.chars char member with hex | rfl | rfl
      · rw [isItemChar, hex, Bool.true_or]
      · decide
      · decide
  cases network with
  | address addr => exact literal addr
  | @cidr addr length groups written digits =>
      refine ⟨List.mem_append_left _ (literal written).1, fun char member => ?_⟩
      rcases List.mem_append.mp member with inAddr | member
      · exact (literal written).2 char inAddr
      · rcases List.mem_cons.mp member with rfl | digit
        · decide
        · exact isItemChar_of_isDigit (digits char digit)

end XWrt.Natflow
