import XWrt.Ipops.Inclusion
import XWrt.Natflow.Ipv6Text
import XWrt.Natflow.UserSelection

/-!
# Texts that match a rule

What `user_matches` says about any text given as an address. An IPv6 text goes
through the byte parser, which turns away what it cannot read. Any other text
goes through `ipops.lua`, where a text without a range is an empty set and so
inside every list: a rule with an IPv4 item matches it.
-/

namespace XWrt.Natflow

open Foundation
open Foundation.IntervalList
open Foundation.Numerals
open Ipops

/-! ## Addresses and entries -/

def IsIpv4Text (text : String) : Prop := ∃ quad, text.toList = dottedText quad

def IsIpv6Text (text : String) : Prop := ∃ groups, Ipv6Literal text.toList groups

/-- The address with these groups agrees with the entry in as many bits as the entry has. -/
def NetHolds (net : Ipv6Net) (groups : List Nat) : Prop :=
  fromHigh 256 (groupBytes groups) / 2 ^ (128 - net.prefixLength) =
    fromHigh 256 net.bytes / 2 ^ (128 - net.prefixLength)

/-- The text is an address inside the entry. -/
inductive Belongs (text entry : String) : Prop where
  | ipv4 {quad : Quad} {range : Range} (written : text.toList = dottedText quad) (plain : isIpv6 entry = false)
      (read : netString2range entry = some range) (lower : range.lo ≤ quad.value) (upper : quad.value ≤ range.hi)
  | ipv6 {groups : List Nat} {net : Ipv6Net} (written : Ipv6Literal text.toList groups) (colon : isIpv6 entry = true)
      (read : parseIpv6Cidr entry = some net) (agrees : NetHolds net groups)

/-- The rule has no MAC, or the user has the same one. -/
def MacFits (ruleMac mac : String) : Prop := normalizeMac ruleMac = "" ∨ normalizeMac mac = normalizeMac ruleMac

/-- The text is not an address and still passes for one in the list: it reads as an IPv6 address with
colons or dots out of place that some entry holds, or it has no colon, the list has an IPv4 item,
and no number that the text reads as, in doubles, is outside of the list. -/
inductive Slips (user text : String) : Prop where
  | ipv6 {groups : List Nat} {entry : String} {net : Ipv6Net} (colon : isIpv6 text = true)
      (loose : LooseLiteral text.toList groups) (irregular : ¬Regular text.toList) (member : entry ∈ splitList user)
      (entryColon : isIpv6 entry = true) (read : parseIpv6Cidr entry = some net) (agrees : NetHolds net groups)
  | ipv4 (plain : isIpv6 text = false) (listed : v4Items user ≠ []) (other : ¬IsIpv4Text text)
      (inside : ∀ range, netString2range text = some range →
        Set.Icc range.lo range.hi ⊆ denoteStrings (v4Items user))

/-! ## The two paths -/

theorem isIpv6_eq_true {text : String} : isIpv6 text = true ↔ ':' ∈ text.toList := by
  rw [isIpv6, List.contains_eq_mem, decide_eq_true_eq]

theorem isIpv6_of_dotted {text : String} {quad : Quad} (written : text.toList = dottedText quad) : isIpv6 text = false := by
  rw [← Bool.not_eq_true, isIpv6_eq_true, written]
  exact dottedText_free quad

/-- Eight groups without a double colon need colons between them. -/
theorem isIpv6_of_literal {text : String} {groups : List Nat} (literal : Ipv6Literal text.toList groups) :
    isIpv6 text = true := by
  rw [isIpv6_eq_true]
  generalize text.toList = chars at literal
  cases literal with
  | compressed => simp
  | full side whole =>
      cases side with
      | nil => cases whole
      | dotted quad => cases whole
      | group first rest =>
          cases rest with
          | nil => cases whole
          | dotted quad => simp
          | group second others => simp

theorem netHolds_iff {text entry : String} {bytes groups : List Nat} {net : Ipv6Net}
    (parsed : parseIpv6Bytes text = some bytes) (same : bytes = groupBytes groups) (read : parseIpv6Cidr entry = some net) :
    ipv6PrefixMatch bytes net = true ↔ NetHolds net groups := by
  obtain ⟨addr, rfl⟩ := parseIpv6Bytes_bytes parsed
  obtain ⟨short, other, whole⟩ := parseIpv6Cidr_net read
  obtain ⟨_, prefixLength⟩ := net
  cases whole
  rw [ipv6PrefixMatch_iff addr other short, NetHolds, ← same]
  rfl

theorem v6Nets_any_iff (user ruleMac : String) (bytes : List Nat) :
    (compileRule user ruleMac).v6Nets.any (ipv6PrefixMatch bytes) = true ↔
      ∃ entry ∈ splitList user, isIpv6 entry = true ∧ ∃ net, parseIpv6Cidr entry = some net ∧ ipv6PrefixMatch bytes net = true := by
  simp only [compileRule, compileUser, List.any_eq_true, List.mem_filterMap, List.mem_filter]
  constructor
  · rintro ⟨net, ⟨entry, ⟨member, colon⟩, read⟩, fits⟩
    exact ⟨entry, member, colon, net, read, fits⟩
  · rintro ⟨entry, member, colon, net, read, fits⟩
    exact ⟨net, ⟨entry, ⟨member, colon⟩, read⟩, fits⟩

/-- The test of `ipops.lua` on one text. -/
theorem ipopsTest_iff {user : String} (listed : v4Items user ≠ []) (text : String) :
    ipopsTestNetstrings (String.intercalate "," (v4Items user)) text = true ↔
      ∀ range, netString2range text = some range → Set.Icc range.lo range.hi ⊆ denoteStrings (v4Items user) := by
  obtain ⟨canonText, pointsText⟩ := netStringSet2rangeSet_spec [text]
  obtain ⟨canonUser, pointsUser⟩ := netStringSet2rangeSet_spec (v4Items user)
  have nonempty : (String.intercalate "," (v4Items user) == "") = false :=
    beq_eq_false_iff_ne.mpr (intercalate_ne_empty (fun item member => (v4Items_plain user item member).ne_empty) listed)
  rw [ipopsTestNetstrings, nonempty, Bool.false_or, splitList_intercalate (v4Items_plain user),
    rangeSetInRangeSet_iff canonText.proper canonUser, pointsText, pointsUser]
  constructor
  · intro included range read x inside
    exact included (mem_denoteStrings_singleton.mpr ⟨range, read, inside⟩)
  · intro inside x member
    obtain ⟨range, read, bounds⟩ := mem_denoteStrings_singleton.mp member
    exact inside range read bounds

/-- When a rule with a list matches. -/
theorem userMatches_listed_iff {user : String} (some : user ≠ "") (ruleMac text mac : String) :
    userMatches (compileRule user ruleMac) text mac = true ↔ MacFits ruleMac mac ∧
      ((isIpv6 text = true ∧ ∃ groups, LooseLiteral text.toList groups ∧
          ∃ entry ∈ splitList user, isIpv6 entry = true ∧ ∃ net, parseIpv6Cidr entry = Option.some net ∧ NetHolds net groups) ∨
        (isIpv6 text = false ∧ v4Items user ≠ [] ∧
          ∀ range, netString2range text = Option.some range → Set.Icc range.lo range.hi ⊆ denoteStrings (v4Items user))) := by
  have named : ((compileRule user ruleMac).user == "") = false := beq_eq_false_iff_ne.mpr some
  have macTest : ((compileRule user ruleMac).mac != "" && normalizeMac mac != (compileRule user ruleMac).mac) = true ↔
      ¬MacFits ruleMac mac := by
    simp [MacFits, compileRule]
  rw [userMatches]
  by_cases fits : MacFits ruleMac mac
  · rw [if_neg (not_not.mpr fits ∘ macTest.mp), named, if_neg Bool.false_ne_true, and_iff_right fits]
    cases colon : isIpv6 text with
    | true =>
        rw [if_pos rfl]
        simp only [true_and, Bool.true_eq_false, false_and, or_false]
        cases parsed : parseIpv6Bytes text with
        | none =>
            simp only [Bool.false_eq_true, false_iff]
            rintro ⟨groups, loose, -⟩
            rw [parseIpv6Bytes_eq_some.mpr ⟨groups, loose, rfl⟩] at parsed
            cases parsed
        | some bytes =>
            simp only [v6Nets_any_iff]
            constructor
            · rintro ⟨entry, member, entryColon, net, read, fits⟩
              obtain ⟨groups, loose, same⟩ := parseIpv6Bytes_eq_some.mp parsed
              exact ⟨groups, loose, entry, member, entryColon, net, read, (netHolds_iff parsed same read).mp fits⟩
            · rintro ⟨groups, loose, entry, member, entryColon, net, read, agrees⟩
              have again := parseIpv6Bytes_eq_some.mpr ⟨groups, loose, rfl⟩
              have same := Option.some.inj (parsed.symm.trans again)
              exact ⟨entry, member, entryColon, net, read, (netHolds_iff parsed same read).mpr agrees⟩
    | false =>
        rw [if_neg Bool.false_ne_true]
        simp only [Bool.false_eq_true, false_and, true_and, false_or]
        change (if (String.intercalate "," (v4Items user) == "") = true then false
          else ipopsTestNetstrings (String.intercalate "," (v4Items user)) text) = true ↔ _
        by_cases listed : v4Items user = []
        · simp [listed]
        · have nonempty : ¬(String.intercalate "," (v4Items user) == "") = true :=
            mt beq_iff_eq.mp (intercalate_ne_empty (fun item member => (v4Items_plain user item member).ne_empty) listed)
          rw [if_neg nonempty, ipopsTest_iff listed, and_iff_right listed]
  · rw [if_pos (macTest.mpr fits)]
    exact iff_of_false Bool.false_ne_true fun both => fits both.1

/-- An IPv4 address reads as itself. -/
theorem netString2range_dotted {text : String} {quad : Quad} (written : text.toList = dottedText quad) :
    netString2range text = some ⟨quad.value, quad.value⟩ := by
  have documented : Documented text (.address quad) := documented_of_printed written
  obtain ⟨range, read, first, last, rfl, least, greatest⟩ :=
    netString2range_of_reads documented.reads (Set.singleton_nonempty quad.value)
  rw [read, Set.mem_singleton_iff.mp least.1, Set.mem_singleton_iff.mp greatest.1]

/-- A text that a rule with a list matches is an address in one of its entries, unless the MAC
test passes and the text is one of those that slip through. -/
theorem userMatches_fails_closed_iff (user ruleMac text mac : String) (some : user ≠ "") :
    (userMatches (compileRule user ruleMac) text mac = true →
      (IsIpv4Text text ∨ IsIpv6Text text) ∧ ∃ entry ∈ splitList user, Belongs text entry) ↔
        ¬(MacFits ruleMac mac ∧ Slips user text) := by
  rw [userMatches_listed_iff some]
  constructor
  · rintro closed ⟨fits, slips⟩
    cases slips with
    | ipv6 colon loose irregular member entryColon read agrees =>
        obtain ⟨-, entry, -, belongs⟩ := closed ⟨fits, Or.inl ⟨colon, _, loose, _, member, entryColon, _, read, agrees⟩⟩
        cases belongs with
        | ipv4 written => exact absurd (colon.symm.trans (isIpv6_of_dotted written)) (by decide)
        | ipv6 written => exact irregular written.regular
    | ipv4 plain listed other inside =>
        obtain ⟨-, entry, -, belongs⟩ := closed ⟨fits, Or.inr ⟨plain, listed, inside⟩⟩
        cases belongs with
        | ipv4 written => exact other ⟨_, written⟩
        | ipv6 written => exact absurd (plain.symm.trans (isIpv6_of_literal written)) (by decide)
  · rintro sound ⟨fits, path⟩
    have none : ¬Slips user text := fun slips => sound ⟨fits, slips⟩
    rcases path with ⟨colon, groups, loose, entry, member, entryColon, net, read, agrees⟩ | ⟨plain, listed, inside⟩
    · have regular : Regular text.toList := by
        by_contra irregular
        exact none (.ipv6 colon loose irregular member entryColon read agrees)
      have literal := loose.literal regular
      exact ⟨Or.inr ⟨groups, literal⟩, entry, member, .ipv6 literal entryColon read agrees⟩
    · have address : IsIpv4Text text := by
        by_contra other
        exact none (.ipv4 plain listed other inside)
      obtain ⟨quad, written⟩ := address
      have small := quad.value_lt
      have here : (quad.value : ℤ) ∈ denoteStrings (v4Items user) := inside _ (netString2range_dotted written) ⟨le_rfl, le_rfl⟩
      obtain ⟨entry, member, range, read, lower, upper⟩ := (mem_denoteStrings_small (by omega) (by omega)).mp here
      obtain ⟨inList, entryPlain⟩ := List.mem_filter.mp member
      exact ⟨Or.inl ⟨quad, written⟩, entry, inList,
        .ipv4 written (by simpa using entryPlain) read lower upper⟩

theorem userMatches_fails_closed_iff_address :
    (IsIpv4Text "10.0.0.1" ∨ IsIpv6Text "10.0.0.1") ∧ ∃ entry ∈ splitList "fe80::/10, 10.0.0.0/8", Belongs "10.0.0.1" entry := by
  apply (userMatches_fails_closed_iff "fe80::/10, 10.0.0.0/8" "" "10.0.0.1" "" (by decide)).mpr
  · rintro ⟨-, slips⟩
    cases slips with
    | ipv6 colon => exact absurd colon (by decide)
    | ipv4 _ _ other => exact other ⟨⟨10, 0, 0, 1⟩, by decide⟩
  · decide +kernel

/-- A text that is no address at all matches. -/
theorem userMatches_takes_any_text :
    ¬∀ user ruleMac text mac, user ≠ "" → userMatches (compileRule user ruleMac) text mac = true →
      (IsIpv4Text text ∨ IsIpv6Text text) ∧ ∃ entry ∈ splitList user, Belongs text entry := by
  intro closed
  obtain ⟨ipv4 | ipv6, -⟩ := closed "10.0.0.1" "" "localhost" "" (by decide) (by decide +kernel)
  · obtain ⟨quad, written⟩ := ipv4
    have dot : '.' ∈ "localhost".toList := by
      rw [written]
      simp [dottedText, Quad.numbers, printedParts]
    exact absurd dot (by decide)
  · obtain ⟨groups, literal⟩ := ipv6
    exact absurd (isIpv6_of_literal literal) (by decide)

end XWrt.Natflow
