import XWrt.Natflow.NetsItems

/-!
# Network lists in the simple QoS worker

`user_matches` on a list from the web form: IPv4 addresses match as the list
says. An IPv6 address matches by the items without white space that the worker
does not know.
-/

namespace XWrt.Natflow

open Foundation.Text
open Foundation.Numerals
open Ipops

/-! ## IPv6 networks as text -/

theorem cidrParts_eq_some {net addr digits : List Char} (found : cidrParts net = some (addr, digits)) :
    net = addr ++ '/' :: digits ∧ ∀ char ∈ digits, char.isDigit = true := by
  unfold cidrParts at found
  split at found
  next first rest digit others front back =>
    split at found
    next all =>
      obtain ⟨rfl, rfl⟩ := Prod.mk.inj (Option.some.inj found)
      refine ⟨?_, List.all_eq_true.mp all⟩
      rw [← front, ← back, List.takeWhile_append_dropWhile]
    next => cases found
  next => cases found

theorem cidrParts_append {addr digits : List Char} (plain : '/' ∉ addr) (some : addr ≠ []) (all : ∀ char ∈ digits, char.isDigit = true)
    (nonempty : digits ≠ []) : cidrParts (addr ++ '/' :: digits) = .some (addr, digits) := by
  have inside : ∀ char ∈ addr, (char != '/') = true := fun char member => bne_iff_ne.mpr fun same => plain (same ▸ member)
  have stop : ('/' != '/') = false := by decide
  obtain ⟨first, rest, rfl⟩ := List.exists_cons_of_ne_nil some
  obtain ⟨digit, others, rfl⟩ := List.exists_cons_of_ne_nil nonempty
  rw [cidrParts, List.takeWhile_append_of_pos inside, List.dropWhile_append_of_pos inside, List.takeWhile_cons,
    List.dropWhile_cons, stop, if_neg Bool.false_ne_true, if_neg Bool.false_ne_true, List.append_nil]
  exact if_pos (List.all_eq_true.mpr all)

theorem cidrParts_free {net : List Char} (plain : '/' ∉ net) : cidrParts net = none := by
  have inside : ∀ char ∈ net, (char != '/') = true := fun char member => bne_iff_ne.mpr fun same => plain (same ▸ member)
  rw [cidrParts, List.dropWhile_eq_nil_iff.mpr inside]
  cases List.takeWhile (fun char => char != '/') net <;> rfl

theorem Ipv6Literal.plain {text : List Char} {groups : List Nat} (literal : Ipv6Literal text groups) : '/' ∉ text ∧ text ≠ [] := by
  constructor
  · intro slash
    rcases literal.loose.chars _ slash with hex | same | same
    · exact absurd hex (by decide)
    · cases same
    · cases same
  · rintro rfl
    have none : parseIpv6Bytes "" = some (groupBytes groups) := parseIpv6Bytes_eq_some.mpr ⟨groups, literal.loose, rfl⟩
    cases none

/-- The worker reads an IPv6 network. -/
theorem parseIpv6Cidr_network {text : List Char} {groups : List Nat} {length : Nat} (network : Ipv6Network text groups length) :
    parseIpv6Cidr (String.ofList text) = some ⟨groupBytes groups, length⟩ := by
  have bytes : ∀ {addr : List Char} {groups : List Nat}, Ipv6Literal addr groups →
      parseIpv6Bytes (String.ofList addr) = some (groupBytes groups) := fun literal =>
    parseIpv6Bytes_eq_some.mpr ⟨_, by rw [String.toList_ofList]; exact literal.loose, rfl⟩
  rw [parseIpv6Cidr, String.toList_ofList]
  cases network with
  | address literal =>
      rw [cidrParts_free literal.plain.1]
      simp [bytes literal]
  | cidr literal digits some bound =>
      rw [cidrParts_append literal.plain.1 literal.plain.2 digits some]
      simp [bytes literal, not_lt.mpr bound]

/-- What the worker reads as an IPv6 network consists of characters of the items. -/
theorem parseIpv6Cidr_chars {text : String} {net : Ipv6Net} (read : parseIpv6Cidr text = some net) :
    ∀ char ∈ text.toList, isItemChar char = true := by
  have literal : ∀ {addr : String} {bytes : List Nat}, parseIpv6Bytes addr = some bytes → ∀ char ∈ addr.toList, isItemChar char = true := by
    intro addr bytes parsed char member
    obtain ⟨groups, loose, -⟩ := parseIpv6Bytes_eq_some.mp parsed
    rcases loose.chars char member with hex | rfl | rfl
    · rw [isItemChar, hex, Bool.true_or]
    · decide
    · decide
  unfold parseIpv6Cidr at read
  cases parts : cidrParts text.toList with
  | none =>
      rw [parts] at read
      obtain ⟨bytes, parsed, -⟩ := Option.bind_eq_some_iff.mp (read : (parseIpv6Bytes text).bind _ = some net)
      exact literal parsed
  | some found =>
      obtain ⟨addr, digits⟩ := found
      obtain ⟨written, all⟩ := cidrParts_eq_some parts
      rw [parts] at read
      dsimp only at read
      split at read
      next => cases read
      next =>
        obtain ⟨bytes, parsed, -⟩ := Option.bind_eq_some_iff.mp read
        intro char member
        rw [written] at member
        rcases List.mem_append.mp member with inAddr | member
        · exact literal parsed char (by rwa [String.toList_ofList])
        · rcases List.mem_cons.mp member with rfl | digit
          · decide
          · exact isItemChar_of_isDigit (all char digit)

/-! ## Stored items -/

section Token

variable {separates : Char → Bool} {token : List Char}

/-- An item that is not clean has bytes of white space on it. -/
theorem exists_byte (worn' : clean separates token = false) : ∃ byte ∈ encode (worn separates token), isItemChar byte = false := by
  rcases worn_cases separates token with ⟨clean, -⟩ | ⟨-, char, stays, space⟩
  · exact absurd (clean.symm.trans worn') (by decide)
  · obtain ⟨some, -, -, bytes⟩ := jsSpaces_bytes char space
    obtain ⟨byte, rest, code⟩ := List.exists_cons_of_ne_nil some
    have inside : byte ∈ utf8 char := code ▸ .head _
    exact ⟨byte, List.mem_flatMap.mpr ⟨char, stays, inside⟩, (bytes byte inside).1⟩

variable (item : Item (jsTrim token))
include item

theorem encode_worn_of_clean (spotless : clean separates token = true) : encode (worn separates token) = jsTrim token := by
  rcases worn_cases separates token with ⟨-, same⟩ | ⟨worn', -⟩
  · rw [same, encode_plain item.chars.2]
  · exact absurd (spotless.symm.trans worn') (by decide)

/-- A stored item is an IPv6 network when it is clean and one in the form. -/
theorem inNet_worn (addr : Ipv6Bytes) : InNet (encode (worn separates token)) (.ipv6 addr) ↔
    clean separates token = true ∧ InNet (jsTrim token) (.ipv6 addr) := by
  cases spotless : clean separates token with
  | true => rw [encode_worn_of_clean item spotless, and_iff_right rfl]
  | false =>
      refine iff_of_false ?_ fun both => absurd both.1 (by decide)
      rintro ⟨groups, length, network, -⟩
      obtain ⟨byte, inside, other⟩ := exists_byte spotless
      exact absurd (network.chars.2 byte inside) (by rw [other]; decide)

/-- The worker reads the clean ones. -/
theorem exists_net_iff {groups : List Nat} {addr : Ipv6Bytes} (bytes : groupBytes groups = addr.bytes) (colon : ':' ∈ jsTrim token) :
    (∃ net, parseIpv6Cidr (String.ofList (encode (worn separates token))) = some net ∧ NetHolds net groups) ↔
      clean separates token = true ∧ InNet (jsTrim token) (.ipv6 addr) := by
  have value : fromHigh 256 (groupBytes groups) = addr.value := congrArg (fromHigh 256) bytes
  cases spotless : clean separates token with
  | true =>
      rw [encode_worn_of_clean item spotless, and_iff_right rfl]
      constructor
      · rintro ⟨net, read, agrees⟩
        obtain ⟨others, length, network⟩ := item.ipv6_of colon
        rw [parseIpv6Cidr_network network] at read
        obtain rfl := Option.some.inj read
        exact ⟨others, length, network, value ▸ agrees⟩
      · rintro ⟨others, length, network, agrees⟩
        refine ⟨_, parseIpv6Cidr_network network, ?_⟩
        rw [NetHolds, value]
        exact agrees
  | false =>
      refine iff_of_false ?_ fun both => absurd both.1 (by decide)
      rintro ⟨net, read, -⟩
      obtain ⟨byte, inside, other⟩ := exists_byte spotless
      have plain := parseIpv6Cidr_chars read byte (by rwa [String.toList_ofList])
      exact absurd plain (by rw [other]; decide)

end Token

/-! ## The worker -/

/-- The text is the address. -/
def Writes (text : String) : Address → Prop
  | .ipv4 quad => text.toList = dottedText quad
  | .ipv6 addr => ∃ groups, Ipv6Literal text.toList groups ∧ groupBytes groups = addr.bytes

theorem hex_digitChar : ∀ digit < 16, isHexDigit digit.digitChar = true ∧ hexValue digit.digitChar = digit := by decide

theorem tonumberHex_toDigits (n : Nat) : tonumberHex (Nat.toDigits 16 n) = n := by
  induction n using Nat.strong_induction_on with
  | _ n ih =>
      rcases Nat.lt_or_ge n 16 with single | long
      · rw [Nat.toDigits_of_lt_base single, tonumberHex, List.foldl_cons, List.foldl_nil, (hex_digitChar n single).2,
          Nat.zero_mul, Nat.zero_add]
      · have upper := ih (n / 16) (Nat.div_lt_self (Nat.zero_lt_of_lt long) (by decide))
        have last := (hex_digitChar (n % 16) (Nat.mod_lt n (by decide))).2
        rw [tonumberHex] at upper
        rw [Nat.toDigits_of_base_le (by decide) long, tonumberHex, List.foldl_append, upper, List.foldl_cons, List.foldl_nil,
          last, Nat.div_add_mod']

theorem isGroup_toDigits {group : Nat} (small : group ≤ 0xffff) : IsGroup (Nat.toDigits 16 group) group := by
  refine ⟨Nat.toDigits_ne_nil, (Nat.length_toDigits_le_iff (by decide) (by decide)).mpr (Nat.lt_succ_of_le small),
    fun char member => ?_, tonumberHex_toDigits group⟩
  obtain ⟨digit, below, rfl⟩ := exists_of_mem_toDigits (by decide) member
  exact (hex_digitChar digit below).1

/-- Pairs of bytes are groups. -/
theorem exists_groups {n : Nat} {bytes : List Nat} (length : bytes.length = 2 * n) (small : ∀ byte ∈ bytes, byte < 256) :
    ∃ groups, groups.length = n ∧ (∀ group ∈ groups, group ≤ 0xffff) ∧ groupBytes groups = bytes := by
  induction n generalizing bytes with
  | zero => exact ⟨[], rfl, List.forall_mem_nil _, (List.length_eq_zero_iff.mp length).symm⟩
  | succ n ih =>
      obtain ⟨high, low, rest, rfl⟩ : ∃ high low rest, bytes = high :: low :: rest := by
        match bytes, length with
        | high :: low :: rest, _ => exact ⟨high, low, rest, rfl⟩
      rw [List.forall_mem_cons, List.forall_mem_cons] at small
      obtain ⟨groups, count, bounds, same⟩ := ih (by simpa [Nat.mul_succ] using length) small.2.2
      refine ⟨(high * 256 + low) :: groups, congrArg Nat.succ count, List.forall_mem_cons.mpr ⟨by omega, bounds⟩, ?_⟩
      have front : (high * 256 + low) / 256 = high ∧ (high * 256 + low) % 256 = low := by omega
      have split : groupBytes ((high * 256 + low) :: groups) =
          [(high * 256 + low) / 256, (high * 256 + low) % 256] ++ groupBytes groups := List.flatMap_cons
      rw [split, same, front.1, front.2]
      rfl

/-- Every IPv6 address has a text. -/
theorem exists_text (addr : Ipv6Bytes) : ∃ text, Writes text (.ipv6 addr) := by
  obtain ⟨groups, length, bounds, bytes⟩ := exists_groups (n := 8) addr.length addr.small
  have digits : List.Forall₂ IsGroup (groups.map (Nat.toDigits 16)) groups := by
    rw [List.forall₂_map_left_iff, List.forall₂_same]
    exact fun group member => isGroup_toDigits (bounds group member)
  refine ⟨String.ofList ([':'].intercalate (groups.map (Nat.toDigits 16))), groups, ?_, bytes⟩
  rw [String.toList_ofList]
  exact .full (side_of_groups digits).1 length

section Worker

variable {nets : List Char} (items : ∀ token ∈ nets.splitOn ',', Item (jsTrim token))

theorem splitList_storedText (nets : List Char) : splitList (storedText nets) = storedItems isSpace nets := by
  rw [splitList_eq, storedText, String.toList_ofList]
  rfl

theorem v4Items_storedText (nets : List Char) :
    v4Items (storedText nets) = (storedItems isSpace nets).filter fun item => !isIpv6 item := by
  rw [v4Items, splitList_storedText]

theorem macFits_empty (mac : String) : MacFits "" mac := .inl normalizeMac_empty

include items

theorem storedText_ne_empty : storedText nets ≠ "" := by
  intro empty
  obtain ⟨token, listed⟩ := List.exists_mem_of_ne_nil _ (List.splitOn_ne_nil ',' nets)
  have member := worn_mem cuts_isSpace items listed
  rw [← splitList_storedText, empty] at member
  exact absurd member List.not_mem_nil

theorem userMatches_ipv4 {text : String} {quad : Quad} (written : text.toList = dottedText quad) (mac : String) :
    userMatches (compileRule (storedText nets) "") text mac = true ↔ InNets nets (.ipv4 quad) := by
  rw [userMatches_listed_iff (storedText_ne_empty items), and_iff_right (macFits_empty mac), isIpv6_of_dotted written,
    ← denote_storedItems cuts_isSpace items, ← v4Items_storedText, netString2range_dotted written]
  simp only [Bool.false_eq_true, false_and, true_and, false_or, Option.some.injEq, forall_eq', Set.Icc_self, Set.singleton_subset_iff]
  refine and_iff_right_of_imp fun inside none => ?_
  rw [none, denoteStrings_eq_empty (List.forall_mem_nil _)] at inside
  exact inside

theorem userMatches_ipv6 {text : String} {addr : Ipv6Bytes} (written : Writes text (.ipv6 addr)) (mac : String) :
    userMatches (compileRule (storedText nets) "") text mac = true ↔
      ∃ token ∈ nets.splitOn ',', clean isSpace token = true ∧ InNet (jsTrim token) (.ipv6 addr) := by
  obtain ⟨groups, literal, bytes⟩ := written
  rw [userMatches_listed_iff (storedText_ne_empty items), and_iff_right (macFits_empty mac), isIpv6_of_literal literal,
    splitList_storedText]
  simp only [Bool.true_eq_false, false_and, true_and, or_false]
  have listed : ∀ entry, entry ∈ storedItems isSpace nets ∧ isIpv6 entry = true ↔
      ∃ token ∈ nets.splitOn ',', ':' ∈ jsTrim token ∧ String.ofList (encode (worn isSpace token)) = entry := by
    intro entry
    rw [← List.mem_filter, filter_storedItems cuts_isSpace items, List.mem_map]
    simp only [List.mem_filter, decide_eq_true_eq, and_assoc]
  constructor
  · rintro ⟨others, loose, entry, member, colon, net, read, agrees⟩
    obtain ⟨token, inside, itemColon, rfl⟩ := (listed entry).mp ⟨member, colon⟩
    have same : groupBytes others = addr.bytes := by
      have first := parseIpv6Bytes_eq_some.mpr ⟨others, loose, rfl⟩
      have second := parseIpv6Bytes_eq_some.mpr ⟨groups, literal.loose, rfl⟩
      exact (Option.some.inj (first.symm.trans second)).trans bytes
    exact ⟨token, inside, (exists_net_iff (items token inside) same itemColon).mp ⟨net, read, agrees⟩⟩
  · rintro ⟨token, inside, spotless, inNet⟩
    have colon : ':' ∈ jsTrim token := by
      obtain ⟨others, length, network, -⟩ := inNet
      exact network.chars.1
    obtain ⟨net, read, agrees⟩ := (exists_net_iff (items token inside) bytes colon).mpr ⟨spotless, inNet⟩
    obtain ⟨member, entryColon⟩ := (listed _).mpr ⟨token, inside, colon, rfl⟩
    exact ⟨groups, literal.loose, _, member, entryColon, net, read, agrees⟩

end Worker

end XWrt.Natflow
