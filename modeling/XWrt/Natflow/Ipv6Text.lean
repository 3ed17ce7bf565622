import XWrt.Ipops.NetForms
import XWrt.Natflow.Ipv6Prefix

/-!
# IPv6 addresses as text

The written form of an IPv6 address, and the wider form that
`parse_ipv6_bytes` takes. The loops look only at the pieces between colons and
between dots, so a lone colon at either end, a dotted part before other groups
and further dots inside of one go unnoticed. On every other text the parser
returns the bytes of the address that is written there, or nothing.
-/

namespace XWrt.Natflow

open Foundation.Text
open Ipops

/-! ## The written form -/

/-- One to four hexadecimal digits and their value. -/
def IsGroup (piece : List Char) (value : Nat) : Prop :=
  piece ≠ [] ∧ piece.length ≤ 4 ∧ (∀ char ∈ piece, isHexDigit char = true) ∧ tonumberHex piece = value

/-- An IPv4 address in decimal with dots. -/
def dottedText (quad : Quad) : List Char := printedParts ['.', '.', '.'] quad.numbers

/-- The two groups that a dotted part stands for. -/
def dottedGroups : List Nat → List Nat
  | [a, b, c, d] => [a * 256 + b, c * 256 + d]
  | _ => []

/-- Groups of which the last two may be written as an IPv4 address. -/
inductive Side : List (List Char) → List Nat → Prop where
  | nil : Side [] []
  | dotted (quad : Quad) : Side [dottedText quad] (dottedGroups quad.numbers)
  | group {piece : List Char} {value : Nat} {pieces : List (List Char)} {groups : List Nat}
      (first : IsGroup piece value) (rest : Side pieces groups) : Side (piece :: pieces) (value :: groups)

/-- An IPv6 address: eight groups with colons between them, or fewer, and one double colon in
place of the groups that are zero. -/
inductive Ipv6Literal : List Char → List Nat → Prop where
  | full {pieces : List (List Char)} {groups : List Nat} (side : Side pieces groups) (whole : groups.length = 8) :
      Ipv6Literal ([':'].intercalate pieces) groups
  | compressed {left right : List (List Char)} {leftGroups rightGroups : List Nat}
      (front : List.Forall₂ IsGroup left leftGroups) (back : Side right rightGroups)
      (room : leftGroups.length + rightGroups.length < 8) :
      Ipv6Literal ([':'].intercalate left ++ ':' :: ':' :: [':'].intercalate right)
        (leftGroups ++ List.replicate (8 - (leftGroups.length + rightGroups.length)) 0 ++ rightGroups)

/-! ## The form that is taken -/

/-- A number up to 255, possibly with leading zeros. -/
def Octet (run : List Char) (n : Nat) : Prop := Spells run n ∧ n < 256

/-- A group, or four numbers among dots. -/
inductive LoosePart : List Char → List Nat → Prop where
  | group {piece : List Char} {value : Nat} (digits : IsGroup piece value) : LoosePart piece [value]
  | dotted {piece : List Char} {values : List Nat} (octets : List.Forall₂ Octet (words (· != '.') piece) values)
      (four : values.length = 4) : LoosePart piece (dottedGroups values)

/-- Parts among colons that come to eight groups, or to fewer around the only double colon. -/
inductive LooseLiteral : List Char → List Nat → Prop where
  | full {text : List Char} {groups : List (List Nat)} (single : ¬[':', ':'] <:+: text)
      (parts : List.Forall₂ LoosePart (words (· != ':') text) groups) (whole : groups.flatten.length = 8) :
      LooseLiteral text groups.flatten
  | compressed {left right : List Char} {leftGroups rightGroups : List (List Nat)}
      (first : ¬[':', ':'] <:+: left ++ [':']) (only : ¬[':', ':'] <:+: ':' :: right)
      (front : List.Forall₂ LoosePart (words (· != ':') left) leftGroups)
      (back : List.Forall₂ LoosePart (words (· != ':') right) rightGroups)
      (room : leftGroups.flatten.length + rightGroups.flatten.length < 8) :
      LooseLiteral (left ++ ':' :: ':' :: right)
        (leftGroups.flatten ++ List.replicate (8 - (leftGroups.flatten.length + rightGroups.flatten.length)) 0 ++
          rightGroups.flatten)

/-- What stands after the last colon. -/
def lastPart (text : List Char) : List Char := text.rtakeWhile (· != ':')

/-- No colon comes after a dot, and what has dots is an IPv4 address. -/
structure RegularDots (text : List Char) : Prop where
  last : ':' ∉ text.dropWhile (· != '.')
  plain : '.' ∈ text → ∃ quad, lastPart text = dottedText quad

/-- Colons at the ends come in pairs, and dots only make up an IPv4 address at the end. -/
structure Regular (text : List Char) : Prop where
  start : [':'] <+: text → [':', ':'] <+: text
  stop : [':'] <:+ text → [':', ':'] <:+ text
  dots : RegularDots text

/-! ## What the loops take -/

theorem char_le_iff {first second : Char} : first ≤ second ↔ first.toNat ≤ second.toNat :=
  Char.le_def.trans UInt32.le_iff_toNat_le

theorem hexValue_lt {char : Char} (digit : isHexDigit char = true) : hexValue char < 16 := by
  have codes : '0'.toNat = 48 ∧ '9'.toNat = 57 ∧ 'a'.toNat = 97 ∧ 'f'.toNat = 102 ∧ 'A'.toNat = 65 ∧ 'F'.toNat = 70 := by decide
  have decimal : char.isDigit = true ↔ 48 ≤ char.toNat ∧ char.toNat ≤ 57 := by
    simp only [Char.isDigit, Bool.and_eq_true, decide_eq_true_eq]
    exact and_congr UInt32.le_iff_toNat_le UInt32.le_iff_toNat_le
  simp only [isHexDigit, Bool.or_eq_true, Bool.and_eq_true, decide_eq_true_eq, char_le_iff, decimal] at digit
  unfold hexValue
  simp only [decimal, char_le_iff]
  split_ifs <;> omega

theorem tonumberHex_lt {piece : List Char} (digits : ∀ char ∈ piece, isHexDigit char = true) :
    tonumberHex piece < 16 ^ piece.length := by
  unfold tonumberHex
  induction piece using List.reverseRecOn with
  | nil => simp
  | append_singleton front last ih =>
      rw [List.forall_mem_append, List.forall_mem_singleton] at digits
      have earlier := ih digits.1
      have final := hexValue_lt digits.2
      rw [List.foldl_append, List.length_append, Nat.pow_add]
      simp only [List.foldl_cons, List.foldl_nil, List.length_singleton, Nat.pow_one]
      omega

theorem IsGroup.le {piece : List Char} {value : Nat} (group : IsGroup piece value) : value ≤ 0xffff := by
  obtain ⟨-, short, digits, rfl⟩ := group
  have bound := tonumberHex_lt digits
  have power : 16 ^ piece.length ≤ 16 ^ 4 := Nat.pow_le_pow_right (by decide) short
  omega

theorem IsGroup.free {piece : List Char} {value : Nat} (group : IsGroup piece value) : '.' ∉ piece ∧ ':' ∉ piece :=
  ⟨fun inside => absurd (group.2.2.1 _ inside) (by decide), fun inside => absurd (group.2.2.1 _ inside) (by decide)⟩

/-- Four words leave room for a separator. -/
theorem dot_mem_of_words {piece : List Char} (four : 1 < (words (· != '.') piece).length) : '.' ∈ piece := by
  by_contra free
  by_cases empty : piece = []
  · rw [empty, words_nil] at four
    cases four
  · have inside : ∀ char ∈ piece, (char != '.') = true := fun char member => by
      rw [bne_iff_ne]
      rintro rfl
      exact free member
    rw [words_word inside empty] at four
    exact absurd four (lt_irrefl _)

theorem dot_mem_of_octets {piece : List Char} {values : List Nat}
    (octets : List.Forall₂ Octet (words (· != '.') piece) values) (many : 1 < values.length) : '.' ∈ piece := by
  apply dot_mem_of_words
  rwa [octets.length_eq]

theorem ipv4Byte_eq_some {bytes result : List Nat} {run : List Char} (nonempty : run ≠ []) :
    ipv4Byte bytes run = some result ↔ bytes.length ≠ 4 ∧ ∃ n, Octet run n ∧ result = bytes ++ [n] := by
  unfold ipv4Byte
  constructor
  · intro taken
    split_ifs at taken with bad big
    cases taken
    simp only [not_or, not_not, List.all_eq_true] at bad
    exact ⟨bad.1, _, ⟨⟨nonempty, bad.2, rfl⟩, by omega⟩, rfl⟩
  · rintro ⟨room, n, ⟨⟨-, digits, rfl⟩, small⟩, rfl⟩
    rw [if_neg, if_neg (by omega)]
    simp only [not_or, not_not, List.all_eq_true]
    exact ⟨room, digits⟩

theorem foldlM_ipv4Byte {runs : List (List Char)} (nonempty : ∀ run ∈ runs, run ≠ []) {bytes result : List Nat}
    (room : bytes.length ≤ 4) :
    runs.foldlM ipv4Byte bytes = some result ↔
      ∃ values, List.Forall₂ Octet runs values ∧ result = bytes ++ values ∧ result.length ≤ 4 := by
  induction runs generalizing bytes with
  | nil =>
      rw [List.foldlM_nil]
      constructor
      · intro same
        cases same
        exact ⟨[], .nil, (List.append_nil _).symm, room⟩
      · rintro ⟨values, none, rfl, -⟩
        cases none
        rw [List.append_nil]
        rfl
  | cons run rest ih =>
      rw [List.forall_mem_cons] at nonempty
      rw [List.foldlM_cons, Option.bind_eq_bind, Option.bind_eq_some_iff]
      constructor
      · rintro ⟨next, step, later⟩
        obtain ⟨some, n, octet, rfl⟩ := (ipv4Byte_eq_some nonempty.1).mp step
        obtain ⟨values, octets, rfl, short⟩ := (ih nonempty.2 (by simp; omega)).mp later
        exact ⟨n :: values, .cons octet octets, by simp, short⟩
      · rintro ⟨values, octets, rfl, short⟩
        cases octets with
        | cons octet octets =>
            rename_i n values
            rw [List.length_append, List.length_cons] at short
            refine ⟨bytes ++ [n], (ipv4Byte_eq_some nonempty.1).mpr ⟨by omega, n, octet, rfl⟩, ?_⟩
            apply (ih nonempty.2 (by simp; omega)).mpr
            exact ⟨values, octets, by simp, by simp; omega⟩

theorem parseIpv4Bytes_eq_some {piece : List Char} {values : List Nat} :
    parseIpv4Bytes piece = some values ↔ List.Forall₂ Octet (words (· != '.') piece) values ∧ values.length = 4 := by
  have runs : ∀ result : List Nat, (words (· != '.') piece).foldlM ipv4Byte [] = some result ↔
      ∃ values, List.Forall₂ Octet (words (· != '.') piece) values ∧ result = [] ++ values ∧ result.length ≤ 4 :=
    fun _ => foldlM_ipv4Byte (fun run member => ne_nil_of_mem_words member) (Nat.zero_le _)
  unfold parseIpv4Bytes
  rw [Option.bind_eq_bind, Option.bind_eq_some_iff]
  constructor
  · rintro ⟨result, read, four⟩
    split at four
    next whole =>
        cases four
        obtain ⟨values, octets, rfl, -⟩ := (runs _).mp read
        exact ⟨octets, whole⟩
    · cases four
  · rintro ⟨octets, four⟩
    exact ⟨values, (runs _).mpr ⟨values, octets, rfl, four.le⟩, if_pos four⟩

theorem ipv6Group_eq_some {groups result : List Nat} {piece : List Char} (nonempty : piece ≠ []) :
    ipv6Group groups piece = some result ↔ ∃ values, LoosePart piece values ∧ result = groups ++ values := by
  unfold ipv6Group
  by_cases dot : '.' ∈ piece
  · rw [if_pos (by simpa using dot)]
    constructor
    · intro taken
      split at taken
      next a b c d read =>
          cases taken
          obtain ⟨octets, four⟩ := parseIpv4Bytes_eq_some.mp read
          exact ⟨_, .dotted octets four, rfl⟩
      · cases taken
    · rintro ⟨values, part, rfl⟩
      cases part with
      | group digits => exact absurd dot digits.free.1
      | dotted octets four =>
          rw [parseIpv4Bytes_eq_some.mpr ⟨octets, four⟩]
          obtain ⟨a, b, c, d, rfl⟩ := List.length_eq_four.mp four
          rfl
  · rw [if_neg (by simpa using dot)]
    constructor
    · intro taken
      split at taken
      · cases taken
      next fine =>
          cases taken
          simp only [Bool.or_eq_true, Bool.not_eq_true', decide_eq_true_eq, not_or, Bool.not_eq_false, List.all_eq_true,
            not_lt] at fine
          exact ⟨_, .group ⟨nonempty, fine.2, fine.1, rfl⟩, rfl⟩
    · rintro ⟨values, part, rfl⟩
      cases part with
      | group digits =>
          obtain ⟨-, short, hex, rfl⟩ := digits
          rw [if_neg]
          simp only [Bool.or_eq_true, Bool.not_eq_true', decide_eq_true_eq, not_or, Bool.not_eq_false, List.all_eq_true, not_lt]
          exact ⟨hex, short⟩
      | dotted octets four =>
          exact absurd (dot_mem_of_octets octets (by rw [four]; decide)) dot

theorem ipv6Part_eq_some {part : List Char} {groups : List Nat} :
    ipv6Part part = some groups ↔ ∃ values, List.Forall₂ LoosePart (words (· != ':') part) values ∧ groups = values.flatten := by
  have loop : ∀ pieces : List (List Char), (∀ piece ∈ pieces, piece ≠ []) → ∀ before result : List Nat,
      pieces.foldlM ipv6Group before = some result ↔
        ∃ values, List.Forall₂ LoosePart pieces values ∧ result = before ++ values.flatten := by
    intro pieces nonempty
    induction pieces with
    | nil =>
        intro before result
        rw [List.foldlM_nil]
        constructor
        · intro same
          cases same
          exact ⟨[], .nil, (List.append_nil _).symm⟩
        · rintro ⟨values, none, rfl⟩
          cases none
          rw [List.flatten_nil, List.append_nil]
          rfl
    | cons piece rest ih =>
        rw [List.forall_mem_cons] at nonempty
        intro before result
        rw [List.foldlM_cons, Option.bind_eq_bind, Option.bind_eq_some_iff]
        constructor
        · rintro ⟨next, step, later⟩
          obtain ⟨values, part, rfl⟩ := (ipv6Group_eq_some nonempty.1).mp step
          obtain ⟨others, parts, rfl⟩ := (ih nonempty.2 _ _).mp later
          exact ⟨values :: others, .cons part parts, by simp⟩
        · rintro ⟨values, parts, rfl⟩
          cases parts with
          | cons part parts =>
              rename_i values others
              refine ⟨before ++ values, (ipv6Group_eq_some nonempty.1).mpr ⟨values, part, rfl⟩, ?_⟩
              exact (ih nonempty.2 _ _).mpr ⟨others, parts, by simp⟩
  exact loop _ (fun piece member => ne_nil_of_mem_words member) [] groups

/-! ## The double colon -/

theorem splitDouble_eq_none {text : List Char} : splitDouble text = none ↔ ¬[':', ':'] <:+: text := by
  induction text using splitDouble.induct with
  | case1 rest =>
      rw [splitDouble]
      exact iff_of_false (Option.some_ne_none _) (not_not.mpr ⟨[], rest, rfl⟩)
  | case2 char rest single ih =>
      rw [splitDouble, Option.map_eq_none_iff, ih, List.infix_cons_iff, not_or, and_iff_right]
      · rintro ⟨tail, starts⟩
        obtain ⟨rfl, rfl⟩ := List.cons.inj starts
        exact single tail rfl rfl
      · exact single
  | case3 => exact iff_of_true rfl (by simp)

/-- The text is cut at the first double colon. -/
theorem splitDouble_eq_some {text left right : List Char} :
    splitDouble text = some (left, right) ↔ text = left ++ ':' :: ':' :: right ∧ ¬[':', ':'] <:+: left ++ [':'] := by
  induction text using splitDouble.induct generalizing left with
  | case1 rest =>
      rw [splitDouble, Option.some.injEq, Prod.mk.injEq]
      constructor
      · rintro ⟨rfl, rfl⟩
        exact ⟨rfl, by decide⟩
      · rintro ⟨starts, single⟩
        match left with
        | [] => exact ⟨rfl, (List.cons.inj (List.cons.inj starts).2).2⟩
        | [_] =>
            obtain ⟨rfl, -⟩ := List.cons.inj starts
            exact absurd (List.infix_refl _) single
        | first :: second :: others =>
            rw [List.cons_append, List.cons_append, List.cons.injEq, List.cons.injEq] at starts
            obtain ⟨rfl, rfl, -⟩ := starts
            exact absurd ⟨[], others ++ [':'], rfl⟩ single
  | case2 char rest single ih =>
      rw [splitDouble, Option.map_eq_some_iff]
      · constructor
        · rintro ⟨⟨front, back⟩, cut, same⟩
          obtain ⟨rfl, rfl⟩ := Prod.mk.inj same
          obtain ⟨rfl, none⟩ := ih.mp cut
          refine ⟨rfl, ?_⟩
          rw [List.cons_append, List.infix_cons_iff, not_or]
          refine ⟨?_, none⟩
          rw [List.cons_prefix_cons]
          rintro ⟨rfl, starts⟩
          match front with
          | [] => exact single (':' :: back) rfl rfl
          | first :: others =>
              rw [List.cons_append, List.cons_prefix_cons] at starts
              obtain ⟨rfl, -⟩ := starts
              exact single (others ++ ':' :: ':' :: back) rfl rfl
        · rintro ⟨starts, none⟩
          match left, starts with
          | [], starts =>
              obtain ⟨rfl, rfl⟩ := List.cons.inj starts
              exact absurd rfl (single (right) rfl)
          | first :: front, starts =>
              obtain ⟨rfl, rfl⟩ := List.cons.inj starts
              rw [List.cons_append, List.infix_cons_iff, not_or] at none
              exact ⟨(front, right), ih.mpr ⟨rfl, none.2⟩, rfl⟩
      · exact single
  | case3 =>
      refine iff_of_false (by simp [splitDouble]) ?_
      rintro ⟨starts, -⟩
      cases left <;> cases starts

theorem double_cons_iff (rest : List Char) :
    [':', ':'] <:+: ':' :: rest ↔ rest.head? = some ':' ∨ [':', ':'] <:+: rest :=
  @double_infix_append Char ':' [] List.not_mem_nil rest

/-- The tests beside the double colon: there is no other one, and no third colon. -/
theorem only_double_iff {left right : List Char} (first : ¬[':', ':'] <:+: left ++ [':']) :
    ((splitDouble right).isSome || left.getLast? == some ':' || right.head? == some ':') = true ↔
      [':', ':'] <:+: ':' :: right := by
  have noThird : left.getLast? ≠ some ':' := by
    intro ends
    obtain ⟨front, rfl⟩ := List.getLast?_eq_some_iff.mp ends
    exact first ⟨front, [], by simp⟩
  rw [double_cons_iff, Bool.or_eq_true, Bool.or_eq_true, Option.isSome_iff_ne_none, ne_eq, splitDouble_eq_none, not_not, beq_iff_eq,
    beq_iff_eq]
  constructor
  · rintro ((more | third) | third)
    · exact Or.inr more
    · exact absurd third noThird
    · exact Or.inl third
  · rintro (third | more)
    · exact Or.inr third
    · exact Or.inl (Or.inl more)

theorem ipv6Groups_eq_some {text : List Char} {groups : List Nat} :
    ipv6Groups text = some groups ↔ LooseLiteral text groups := by
  unfold ipv6Groups
  constructor
  · intro found
    split at found
    next left right cut =>
        obtain ⟨rfl, first⟩ := splitDouble_eq_some.mp cut
        split at found
        · cases found
        next only =>
            rw [only_double_iff first] at only
            obtain ⟨leftGroups, leftRead, found⟩ := Option.bind_eq_some_iff.mp found
            obtain ⟨rightGroups, rightRead, found⟩ := Option.bind_eq_some_iff.mp found
            obtain ⟨front, leftParts, rfl⟩ := ipv6Part_eq_some.mp leftRead
            obtain ⟨back, rightParts, rfl⟩ := ipv6Part_eq_some.mp rightRead
            dsimp only at found
            split at found
            · cases found
            next room =>
                cases found
                exact .compressed first only leftParts rightParts (not_le.mp room)
    next single =>
        obtain ⟨all, read, found⟩ := Option.bind_eq_some_iff.mp found
        obtain ⟨values, parts, rfl⟩ := ipv6Part_eq_some.mp read
        split at found
        next whole =>
            cases found
            exact .full (splitDouble_eq_none.mp single) parts whole
        · cases found
  · intro loose
    cases loose with
    | full single parts whole =>
        rw [splitDouble_eq_none.mpr single]
        dsimp only
        rw [ipv6Part_eq_some.mpr ⟨_, parts, rfl⟩, Option.bind_some, if_pos whole]
    | compressed first only front back room =>
        rw [splitDouble_eq_some.mpr ⟨rfl, first⟩]
        dsimp only
        rw [if_neg (mt (only_double_iff first).mp only), ipv6Part_eq_some.mpr ⟨_, front, rfl⟩, Option.bind_some,
          ipv6Part_eq_some.mpr ⟨_, back, rfl⟩, Option.bind_some, if_neg (not_le.mpr room)]

theorem Octet.dotted_le {runs : List (List Char)} {values : List Nat} (octets : List.Forall₂ Octet runs values) :
    ∀ group ∈ dottedGroups values, group ≤ 0xffff := by
  have small : ∀ n ∈ values, n < 256 := by
    induction octets with
    | nil => simp
    | cons first _ ih => exact List.forall_mem_cons.mpr ⟨first.2, ih⟩
  unfold dottedGroups
  split
  · simp only [List.forall_mem_cons] at small ⊢
    exact ⟨by omega, by omega, by simp⟩
  · simp

theorem LoosePart.le {piece : List Char} {values : List Nat} (part : LoosePart piece values) :
    ∀ group ∈ values, group ≤ 0xffff := by
  cases part with
  | group digits => exact List.forall_mem_singleton.mpr digits.le
  | dotted octets _ => exact Octet.dotted_le octets

theorem parts_le {pieces : List (List Char)} {values : List (List Nat)} (parts : List.Forall₂ LoosePart pieces values) :
    ∀ group ∈ values.flatten, group ≤ 0xffff := by
  induction parts with
  | nil => simp
  | cons first _ ih =>
      rw [List.flatten_cons, List.forall_mem_append]
      exact ⟨first.le, ih⟩

theorem LooseLiteral.le {text : List Char} {groups : List Nat} (loose : LooseLiteral text groups) :
    ∀ group ∈ groups, group ≤ 0xffff := by
  cases loose with
  | full _ parts _ => exact parts_le parts
  | compressed _ _ front back _ =>
      rw [List.forall_mem_append, List.forall_mem_append]
      refine ⟨⟨parts_le front, ?_⟩, parts_le back⟩
      intro group zero
      rw [List.eq_of_mem_replicate zero]
      decide

/-- The parser takes the loose form and gives the bytes of its groups. -/
theorem parseIpv6Bytes_eq_some {text : String} {bytes : List Nat} :
    parseIpv6Bytes text = some bytes ↔ ∃ groups, LooseLiteral text.toList groups ∧ bytes = groupBytes groups := by
  rw [parseIpv6Bytes_eq, Option.bind_eq_some_iff]
  apply exists_congr
  intro groups
  rw [ipv6Groups_eq_some]
  apply and_congr_right
  intro loose
  have small : ¬(groups.any fun group => 0xffff < group) = true := by simpa using loose.le
  rw [if_neg small, Option.some.injEq, eq_comm]

/-! ## Dots -/

theorem lastPart_append (front rest : List Char) : lastPart (front ++ ':' :: rest) = lastPart rest := by
  have cut : (front ++ ':' :: rest).reverse = rest.reverse ++ ':' :: front.reverse := by simp
  rw [lastPart, List.rtakeWhile, cut, List.takeWhile_append]
  split
  next whole =>
      rw [List.takeWhile_cons_of_neg (by decide), List.append_nil, lastPart, List.rtakeWhile]
      exact congrArg List.reverse ((List.takeWhile_prefix _).eq_of_length whole).symm
  next => rfl

theorem lastPart_of_free {text : List Char} (free : ':' ∉ text) : lastPart text = text := by
  rw [lastPart, List.rtakeWhile_eq_self_iff]
  intro char inside
  rw [bne_iff_ne]
  rintro rfl
  exact free inside

theorem regularDots_of_free {text : List Char} (free : '.' ∉ text) : RegularDots text := by
  have none : text.dropWhile (· != '.') = [] := List.dropWhile_eq_nil_iff.mpr fun char inside => by
    rw [bne_iff_ne]
    rintro rfl
    exact free inside
  exact ⟨by rw [none]; exact List.not_mem_nil, fun inside => absurd inside free⟩

/-- Only what comes after the last group without a dot matters. -/
theorem regularDots_append {front : List Char} (free : '.' ∉ front) (rest : List Char) :
    RegularDots (front ++ ':' :: rest) ↔ RegularDots rest := by
  have drop : (front ++ ':' :: rest).dropWhile (· != '.') = rest.dropWhile (· != '.') := by
    rw [List.append_cons]
    apply List.dropWhile_append_of_pos
    intro char inside
    rw [bne_iff_ne]
    rintro rfl
    simp [free] at inside
  have dots : '.' ∈ front ++ ':' :: rest ↔ '.' ∈ rest := by simp [free]
  constructor
  · rintro ⟨last, plain⟩
    rw [drop] at last
    rw [dots, lastPart_append] at plain
    exact ⟨last, plain⟩
  · rintro ⟨last, plain⟩
    rw [← drop] at last
    rw [← dots, ← lastPart_append front] at plain
    exact ⟨last, plain⟩

theorem RegularDots.free {front rest : List Char} (regular : RegularDots (front ++ ':' :: rest)) : '.' ∉ front := by
  intro inside
  apply regular.last
  rw [List.dropWhile_append]
  split
  next none =>
      have all := List.dropWhile_eq_nil_iff.mp (List.isEmpty_iff.mp none)
      exact absurd (all '.' inside) (by decide)
  next => simp

/-! ## Dotted parts -/

theorem dottedText_eq (quad : Quad) : dottedText quad = ['.'].intercalate (quad.numbers.map (Nat.toDigits 10)) := by
  simp [dottedText, Quad.numbers, printedParts, List.intercalate, List.intersperse]

theorem dottedText_free (quad : Quad) : ':' ∉ dottedText quad := by
  intro inside
  rcases mem_printedParts inside with digit | separator
  · exact absurd digit (by decide)
  · exact absurd separator (by decide)

theorem dottedText_words (quad : Quad) : words (· != '.') (dottedText quad) = quad.numbers.map (Nat.toDigits 10) := by
  rw [dottedText_eq]
  apply words_intercalate (by decide)
  · intro piece member char inside
    obtain ⟨n, -, rfl⟩ := List.mem_map.mp member
    rw [bne_iff_ne]
    rintro rfl
    exact absurd (toDigits_isDigit n _ inside) (by decide)
  · intro piece member
    obtain ⟨n, -, rfl⟩ := List.mem_map.mp member
    exact Nat.toDigits_ne_nil

theorem dottedText_octets (quad : Quad) : List.Forall₂ Octet (words (· != '.') (dottedText quad)) quad.numbers := by
  rw [dottedText_words]
  apply List.forall₂_map_left_iff.mpr
  apply List.forall₂_same.mpr
  intro n member
  refine ⟨⟨Nat.toDigits_ne_nil, toDigits_isDigit n, tonumber_toDigits n⟩, ?_⟩
  simp only [Quad.numbers, List.mem_cons, List.not_mem_nil, or_false] at member
  rcases member with rfl | rfl | rfl | rfl
  all_goals exact Fin.isLt _

/-- The octets of a part are the values of its runs. -/
theorem octets_eq {runs : List (List Char)} {values : List Nat} (octets : List.Forall₂ Octet runs values) :
    runs.map tonumber = values :=
  spells_map (octets.imp fun _ _ octet => octet.1)

/-! ## Sides -/

theorem side_of_groups {pieces : List (List Char)} {groups : List Nat} (front : List.Forall₂ IsGroup pieces groups) :
    Side pieces groups ∧ '.' ∉ [':'].intercalate pieces := by
  induction front with
  | nil => exact ⟨.nil, List.not_mem_nil⟩
  | cons first rest ih =>
      refine ⟨.group first ih.1, ?_⟩
      cases rest with
      | nil =>
          rw [List.intercalate_singleton]
          exact first.free.1
      | cons second others =>
          rw [List.intercalate_cons_cons, List.mem_append, List.mem_append, not_or, not_or]
          exact ⟨⟨first.free.1, by decide⟩, ih.2⟩

section Sides

variable {pieces : List (List Char)} {groups : List Nat} (side : Side pieces groups)
include side

theorem Side.free : ∀ piece ∈ pieces, ':' ∉ piece := by
  induction side with
  | nil => exact fun _ none => absurd none List.not_mem_nil
  | dotted quad => exact List.forall_mem_singleton.mpr (dottedText_free quad)
  | group first _ ih => exact List.forall_mem_cons.mpr ⟨first.free.2, ih⟩

theorem Side.nonempty : ∀ piece ∈ pieces, piece ≠ [] := by
  induction side with
  | nil => exact fun _ none => absurd none List.not_mem_nil
  | dotted quad =>
      intro piece member none
      have runs := dottedText_words quad
      rw [← List.mem_singleton.mp member, none] at runs
      cases runs
  | group first _ ih => exact List.forall_mem_cons.mpr ⟨first.1, ih⟩

theorem Side.words_eq : words (· != ':') ([':'].intercalate pieces) = pieces := by
  apply words_intercalate (by decide) _ side.nonempty
  intro piece member char inside
  rw [bne_iff_ne]
  rintro rfl
  exact side.free piece member inside

theorem Side.parts : ∃ values, List.Forall₂ LoosePart pieces values ∧ groups = values.flatten := by
  induction side with
  | nil => exact ⟨[], .nil, rfl⟩
  | dotted quad => exact ⟨[dottedGroups quad.numbers], .cons (.dotted (dottedText_octets quad) rfl) .nil, by simp⟩
  | group first _ ih =>
      obtain ⟨values, parts, rfl⟩ := ih
      exact ⟨_ :: values, .cons (.group first) parts, by simp⟩

theorem Side.regularDots : RegularDots ([':'].intercalate pieces) := by
  induction side with
  | nil => exact regularDots_of_free List.not_mem_nil
  | dotted quad =>
      rw [List.intercalate_singleton]
      refine ⟨fun inside => dottedText_free quad ((List.dropWhile_sublist _).subset inside), fun _ => ⟨quad, ?_⟩⟩
      exact lastPart_of_free (dottedText_free quad)
  | @group piece _ rest _ first _ ih =>
      cases rest with
      | nil =>
          rw [List.intercalate_singleton]
          exact regularDots_of_free first.free.1
      | cons second others =>
          rw [List.intercalate_cons_cons, List.append_assoc, List.singleton_append]
          exact (regularDots_append first.free.1 _).mpr ih

end Sides

theorem Side.groups_of_free {pieces : List (List Char)} {groups : List Nat} (side : Side pieces groups)
    (free : '.' ∉ [':'].intercalate pieces) : List.Forall₂ IsGroup pieces groups := by
  induction side with
  | nil => exact .nil
  | dotted quad =>
      rw [List.intercalate_singleton] at free
      exact absurd (dot_mem_of_octets (dottedText_octets quad) (Nat.one_lt_succ_succ _)) free
  | @group piece value rest groups first more ih =>
      cases rest with
      | nil =>
          cases more
          exact .cons first .nil
      | cons second others =>
          rw [List.intercalate_cons_cons, List.mem_append, not_or] at free
          exact .cons first (ih free.2)

/-- Loose parts with regular dots are the parts of an address. -/
theorem side_of_parts {pieces : List (List Char)} {values : List (List Nat)} (parts : List.Forall₂ LoosePart pieces values)
    (free : ∀ piece ∈ pieces, ':' ∉ piece) (regular : RegularDots ([':'].intercalate pieces)) :
    Side pieces values.flatten := by
  induction parts with
  | nil => exact .nil
  | @cons piece value rest others first more ih =>
      rw [List.forall_mem_cons] at free
      cases rest with
      | nil =>
          cases more
          rw [List.intercalate_singleton] at regular
          cases first with
          | group digits => exact .group digits .nil
          | dotted octets four =>
              have dot := dot_mem_of_octets octets (by rw [four]; decide)
              obtain ⟨quad, last⟩ := regular.plain dot
              rw [lastPart_of_free free.1] at last
              subst last
              rw [List.flatten_singleton, ← octets_eq octets, octets_eq (dottedText_octets quad)]
              exact .dotted quad
      | cons second more' =>
          rw [List.intercalate_cons_cons, List.append_assoc, List.singleton_append] at regular
          have noDot := regular.free
          cases first with
          | group digits => exact .group digits (ih free.2 ((regularDots_append noDot _).mp regular))
          | dotted octets four => exact absurd (dot_mem_of_octets octets (by rw [four]; decide)) noDot

/-! ## Both forms -/

theorem prefix_colon_iff {text : List Char} : [':'] <+: text ↔ text.head? = some ':' := by
  rw [List.head?_eq_some_iff]
  exact ⟨fun ⟨tail, starts⟩ => ⟨tail, starts.symm⟩, fun ⟨tail, starts⟩ => ⟨tail, starts.symm⟩⟩

theorem suffix_colon_iff {text : List Char} : [':'] <:+ text ↔ text.getLast? = some ':' := by
  rw [List.getLast?_eq_some_iff]
  exact ⟨fun ⟨front, ends⟩ => ⟨front, ends.symm⟩, fun ⟨front, ends⟩ => ⟨front, ends.symm⟩⟩

theorem double_concat_iff (front : List Char) :
    [':', ':'] <:+: front ++ [':'] ↔ front.getLast? = some ':' ∨ [':', ':'] <:+: front := by
  rw [List.infix_concat_iff, ← suffix_colon_iff]
  apply or_congr_left
  constructor
  · rintro ⟨before, ends⟩
    have whole : before ++ [':'] ++ [':'] = front ++ [':'] := by simpa using ends
    exact ⟨before, List.append_cancel_right whole⟩
  · rintro ⟨before, rfl⟩
    exact ⟨before, by simp⟩

/-- A written address is taken, with its groups. -/
theorem Ipv6Literal.loose {text : List Char} {groups : List Nat} (literal : Ipv6Literal text groups) :
    LooseLiteral text groups := by
  cases literal with
  | full side whole =>
      obtain ⟨values, parts, rfl⟩ := side.parts
      apply LooseLiteral.full (double_intercalate side.free side.nonempty) _ whole
      rw [side.words_eq]
      exact parts
  | compressed front back room =>
      have left := (side_of_groups front).1
      obtain ⟨leftValues, leftParts, rfl⟩ := left.parts
      obtain ⟨rightValues, rightParts, rfl⟩ := back.parts
      apply LooseLiteral.compressed
      · rw [double_concat_iff, not_or]
        exact ⟨getLast?_intercalate left.free left.nonempty, double_intercalate left.free left.nonempty⟩
      · rw [double_cons_iff, not_or]
        exact ⟨head?_intercalate back.free back.nonempty, double_intercalate back.free back.nonempty⟩
      · rw [left.words_eq]
        exact leftParts
      · rw [back.words_eq]
        exact rightParts
      · exact room

theorem Ipv6Literal.regular {text : List Char} {groups : List Nat} (literal : Ipv6Literal text groups) : Regular text := by
  cases literal with
  | full side whole =>
      refine ⟨fun starts => ?_, fun ends => ?_, side.regularDots⟩
      · exact absurd (prefix_colon_iff.mp starts) (head?_intercalate side.free side.nonempty)
      · exact absurd (suffix_colon_iff.mp ends) (getLast?_intercalate side.free side.nonempty)
  | @compressed left right leftGroups rightGroups front back room =>
      obtain ⟨side, noDot⟩ := side_of_groups front
      have noStart := head?_intercalate side.free side.nonempty
      have noEnd := getLast?_intercalate back.free back.nonempty
      refine ⟨fun starts => ?_, fun ends => ?_, ?_⟩
      · rw [prefix_colon_iff] at starts
        cases shape : [':'].intercalate left with
        | nil => exact ⟨[':'].intercalate right, rfl⟩
        | cons char rest =>
            rw [shape] at starts noStart
            exact absurd starts noStart
      · rw [suffix_colon_iff] at ends
        cases shape : [':'].intercalate right using List.reverseRecOn with
        | nil => exact ⟨[':'].intercalate left, rfl⟩
        | append_singleton rest char =>
            rw [shape, List.getLast?_append_cons, List.getLast?_cons_cons, ← List.cons_append, List.getLast?_concat] at ends
            rw [shape, List.getLast?_concat] at noEnd
            exact absurd ends noEnd
      · rw [regularDots_append noDot]
        exact (@regularDots_append [] List.not_mem_nil _).mpr back.regularDots

/-- A regular text that is taken is a written address with these groups. -/
theorem LooseLiteral.literal {text : List Char} {groups : List Nat} (loose : LooseLiteral text groups)
    (regular : Regular text) : Ipv6Literal text groups := by
  have free (text : List Char) : ∀ piece ∈ words (· != ':') text, ':' ∉ piece := fun piece member inside =>
    absurd (inWord_of_mem_words member inside) (by decide)
  cases loose with
  | full single parts whole =>
      have starts : text.head? ≠ some ':' := fun colon =>
        single (regular.start (prefix_colon_iff.mpr colon)).isInfix
      have ends : text.getLast? ≠ some ':' := fun colon =>
        single (regular.stop (suffix_colon_iff.mpr colon)).isInfix
      have joined := intercalate_words single starts ends
      rw [← joined]
      exact .full (side_of_parts parts (free text) (joined.symm ▸ regular.dots)) whole
  | @compressed left right leftValues rightValues first only front back room =>
      rw [double_concat_iff, not_or] at first
      rw [double_cons_iff, not_or] at only
      have starts : left.head? ≠ some ':' := by
        intro colon
        obtain ⟨rest, rfl⟩ := List.head?_eq_some_iff.mp colon
        have pair := regular.start ⟨_, rfl⟩
        rw [List.cons_append, List.cons_prefix_cons, prefix_colon_iff] at pair
        cases rest with
        | nil => exact first.1 rfl
        | cons char others => exact first.2 ((double_cons_iff _).mpr (Or.inl pair.2))
      have ends : right.getLast? ≠ some ':' := by
        intro colon
        obtain ⟨rest, rfl⟩ := List.getLast?_eq_some_iff.mp colon
        have pair := regular.stop ⟨left ++ ':' :: ':' :: rest, by simp⟩
        cases rest using List.reverseRecOn with
        | nil => exact only.1 rfl
        | append_singleton others char =>
            obtain ⟨before, same⟩ := pair
            have last : char = ':' := by
              have whole : before ++ [':'] ++ [':'] = (left ++ ':' :: ':' :: others) ++ [char] ++ [':'] := by
                simpa using same
              have shorter := List.append_cancel_right whole
              exact (List.cons.inj (List.append_inj' shorter rfl).2).1.symm
            exact only.2 ⟨others, [], by simp [last]⟩
      have joinedLeft := intercalate_words first.2 starts first.1
      have joinedRight := intercalate_words only.2 only.1 ends
      have noDot := regular.dots.free
      have dots : RegularDots right :=
        (@regularDots_append [] List.not_mem_nil right).mp ((regularDots_append noDot _).mp regular.dots)
      have leftSide := side_of_parts front (free left) (joinedLeft.symm ▸ regularDots_of_free noDot)
      have rightSide := side_of_parts back (free right) (joinedRight.symm ▸ dots)
      have literal := Ipv6Literal.compressed (leftSide.groups_of_free (joinedLeft.symm ▸ noDot)) rightSide room
      rw [joinedLeft, joinedRight] at literal
      exact literal

/-- The parser returns the bytes of the address that is written, and nothing for other texts,
exactly where a text of the loose form has its colons and dots in place. -/
theorem parseIpv6Bytes_exact_iff (text : String) :
    (∀ bytes, parseIpv6Bytes text = some bytes ↔ ∃ groups, Ipv6Literal text.toList groups ∧ bytes = groupBytes groups) ↔
      ((∃ groups, LooseLiteral text.toList groups) → Regular text.toList) := by
  constructor
  · rintro exact ⟨groups, loose⟩
    obtain ⟨others, literal, -⟩ := (exact _).mp (parseIpv6Bytes_eq_some.mpr ⟨groups, loose, rfl⟩)
    exact literal.regular
  · intro regular bytes
    rw [parseIpv6Bytes_eq_some]
    apply exists_congr
    intro groups
    apply and_congr_left
    intro _
    exact ⟨fun loose => loose.literal (regular ⟨groups, loose⟩), fun literal => literal.loose⟩

/-- A colon in front of eight groups is not noticed. -/
theorem parseIpv6Bytes_takes_lone_colon :
    ¬∀ text bytes, parseIpv6Bytes text = some bytes ↔
      ∃ groups, Ipv6Literal text.toList groups ∧ bytes = groupBytes groups := by
  intro exact
  have taken : parseIpv6Bytes ":1:2:3:4:5:6:7:8" = some [0, 1, 0, 2, 0, 3, 0, 4, 0, 5, 0, 6, 0, 7, 0, 8] := by
    decide +kernel
  obtain ⟨groups, literal, -⟩ := (exact _ _).mp taken
  exact absurd (literal.regular.start (by decide)) (by decide)

end XWrt.Natflow
