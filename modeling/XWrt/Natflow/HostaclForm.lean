import XWrt.Foundation.Pieces
import XWrt.Natflow.NetsExact
import XWrt.Natflow.UserRecord

/-!
# The web form of host access rules

`hostacl.js`. A rule has a list of IPv4 addresses, networks and ranges, a list of
IPv6 networks, and items with MAC addresses in which an octet may be a wildcard.
The lists are stored in UTF-8, as the form lets them through.
-/

namespace XWrt.Natflow.Hostacl

open Foundation.Text
open Ipops
open UserRecord (MacAddress)

/-! ## The form -/

/-- `ipv4_token_validate` -/
def ipv4TokenValidate (v : Validation) (token : List Char) : Bool :=
  let token := jsTrim token
  if token = [] then false
  else
    match token.splitOn '/' with
    | [addr] => addr != [] && (v.parseIPv4 addr || (reIpRange addr && ipRangeValidate addr))
    | [addr, length] => addr != [] && length != [] && length.all Char.isDigit && v.parseIPv4 addr && tonumber length ≤ 32
    | _ => false

/-- `ipv6_cidr_token_validate` -/
def ipv6CidrTokenValidate (v : Validation) (token : List Char) : Bool :=
  let token := jsTrim token
  if token = [] then false
  else
    match token.splitOn '/' with
    | [addr, length] => addr != [] && length != [] && v.parseIPv6 addr && length.all Char.isDigit && tonumber length ≤ 128
    | _ => false

/-- `nets_validate` -/
def netsValidate (tokenValidate : List Char → Bool) (nets : List Char) : Bool := (nets.splitOn ',').all tokenValidate

/-- What a MAC address has between its parts. -/
def isMacSeparator (char : Char) : Bool := char == ':' || char == '-'

/-- `[0-9a-f]{1,2}|\*` -/
def macPartRe (part : List Char) : Bool := part == ['*'] || (1 ≤ part.length && part.length ≤ 2 && part.all isHexDigit)

/-- Six parts with a separator between them. -/
def macRe (mac : List Char) : Bool := (mac.splitOnP isMacSeparator).length == 6 && (mac.splitOnP isMacSeparator).all macPartRe

/-- `L.toArray`, for a text -/
def toArray (text : List Char) : List (List Char) := words (fun char => !isJsSpace char) text

/-- `isValidMAC` -/
def isValidMAC (text : List Char) : Bool := (toArray text).all macRe

/-- A section `rule`, in the characters of the browser; an option that is empty is not stored. -/
structure Rule where
  disabled : Bool
  ip : List Char
  ipv6 : List Char
  mac : List (List Char)
  action : List Char
  host : List Char
  deriving DecidableEq

/-- The form lets the rule through. An item of `mac` is typed in a field of one line and is not empty. -/
structure Rule.Saved (v : Validation) (rule : Rule) : Prop where
  ip : rule.ip = [] ∨ netsValidate (ipv4TokenValidate v) rule.ip = true
  ipv6 : rule.ipv6 = [] ∨ netsValidate (ipv6CidrTokenValidate v) rule.ipv6 = true
  mac : ∀ item ∈ rule.mac, item ≠ [] ∧ '\n' ∉ item ∧ isValidMAC item = true

/-- What the form stores. -/
structure Config where
  enabled : Bool
  rules : List Rule
  deriving DecidableEq

def Config.Saved (v : Validation) (config : Config) : Prop := ∀ rule ∈ config.rules, rule.Saved v

/-! ## What the lists stand for -/

/-- The MAC address has the octets of the text; `*` stands for every value. -/
def InMac (text : List Char) (mac : MacAddress) : Prop :=
  List.Forall₂ (fun part byte => part = ['*'] ∨ tonumberHex part = byte.toNat) (text.splitOnP isMacSeparator) mac.bytes

/-- The MAC address is one of those in the items. -/
def InMacs (items : List (List Char)) (mac : MacAddress) : Prop := ∃ item ∈ items, ∃ token ∈ toArray item, InMac token mac

/-! ## What the form lets through -/

section Tokens

variable {v : Validation} {token nets : List Char}

theorem ipv4Token_documented (accepted : ipv4TokenValidate v token = true) :
    ∃ form, Documented (String.ofList (jsTrim token)) form ∧ form.Contiguous ∧ form.network.Nonempty := by
  have whole : ['/'].intercalate ((jsTrim token).splitOn '/') = jsTrim token := List.intercalate_splitOn '/'
  rw [ipv4TokenValidate] at accepted
  split at accepted
  next => cases accepted
  next =>
    split at accepted
    next addr split =>
      rw [split, List.intercalate_singleton] at whole
      rw [← whole]
      simp only [Bool.and_eq_true, Bool.or_eq_true] at accepted
      rcases accepted.2 with parsed | ⟨matched, ordered⟩
      · obtain ⟨quad, written⟩ := v.ipv4 _ parsed
        exact ⟨_, written, trivial, Set.singleton_nonempty _⟩
      · obtain ⟨first, last, order, written⟩ := documented_span matched ordered
        exact ⟨_, written, trivial, Set.nonempty_Icc.mpr order⟩
    next addr length split =>
      rw [split, List.intercalate_cons_cons, List.intercalate_singleton, List.append_assoc, List.singleton_append] at whole
      rw [← whole]
      simp only [Bool.and_eq_true, bne_iff_ne, decide_eq_true_eq, List.all_eq_true] at accepted
      obtain ⟨⟨⟨⟨-, some⟩, digits⟩, parsed⟩, bound⟩ := accepted
      obtain ⟨quad, written⟩ := v.ipv4 _ parsed
      exact ⟨_, documented_cidr written digits some bound, trivial, quad.value, quad.value_lt, rfl⟩
    next => cases accepted

theorem ipv6Token_network (accepted : ipv6CidrTokenValidate v token = true) :
    ∃ groups length, Ipv6Network (jsTrim token) groups length := by
  have whole : ['/'].intercalate ((jsTrim token).splitOn '/') = jsTrim token := List.intercalate_splitOn '/'
  rw [ipv6CidrTokenValidate] at accepted
  split at accepted
  next => cases accepted
  next =>
    split at accepted
    next addr length split =>
      rw [split, List.intercalate_cons_cons, List.intercalate_singleton, List.append_assoc, List.singleton_append] at whole
      rw [← whole]
      simp only [Bool.and_eq_true, bne_iff_ne, decide_eq_true_eq, List.all_eq_true] at accepted
      obtain ⟨⟨⟨⟨-, some⟩, parsed⟩, digits⟩, bound⟩ := accepted
      obtain ⟨groups, literal⟩ := v.ipv6 _ parsed
      exact ⟨groups, _, .cidr literal digits some bound⟩
    next => cases accepted

/-- The items of an IPv4 list. -/
theorem ipv4_items (accepted : netsValidate (ipv4TokenValidate v) nets = true) :
    ∀ token ∈ nets.splitOn ',', Item (jsTrim token) ∧ ':' ∉ jsTrim token := by
  intro token listed
  obtain ⟨form, written, contiguous, some⟩ := ipv4Token_documented (List.all_eq_true.mp accepted token listed)
  exact ⟨.ipv4 written contiguous some, fun colon => (documented_chars written _ colon).2 rfl⟩

/-- The items of an IPv6 list. -/
theorem ipv6_items (accepted : netsValidate (ipv6CidrTokenValidate v) nets = true) :
    ∀ token ∈ nets.splitOn ',', Item (jsTrim token) ∧ ':' ∈ jsTrim token := by
  intro token listed
  obtain ⟨groups, length, network⟩ := ipv6Token_network (List.all_eq_true.mp accepted token listed)
  exact ⟨.ipv6 network, network.chars.1⟩

end Tokens

end XWrt.Natflow.Hostacl
