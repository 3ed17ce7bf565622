import XWrt.Ipops.Membership

/-!
# User lists of the simple QoS worker

How `natflow-simple-qos.lua` decides whether a rule is for a user: the list is
cut at commas and white space, IPv6 items are compiled to bytes and a prefix
length, and the others go through `ipops.lua`. A Lua string is a sequence of
bytes, here one `Char` for each byte.
-/

namespace XWrt.Natflow

open Foundation.Text
open Ipops

/-- `is_ipv6` -/
def isIpv6 (value : String) : Bool := value.toList.contains ':'

/-- `split_list` -/
def splitList (value : String) : List String :=
  (words (fun char => !isSpace char) (value.toList.map fun char => if char = ',' then ' ' else char)).map String.ofList

/-- `%x` -/
def isHexDigit (char : Char) : Bool := char.isDigit || ('a' ≤ char && char ≤ 'f') || ('A' ≤ char && char ≤ 'F')

/-- `normalize_mac` -/
def normalizeMac (value : String) : String :=
  let value := ((value.toList.map Char.toUpper).filter fun char => !isSpace char).map fun char => if char = '-' then ':' else char
  let paired := (List.range 17).all fun i => (value[i]?).any fun char => if i % 3 = 2 then char == ':' else isHexDigit char
  if value.length = 17 ∧ paired then String.ofList value else ""

/-! ## IPv6 literals -/

/-- One round of the loop of `parse_ipv4_bytes`. -/
def ipv4Byte (bytes : List Nat) (part : List Char) : Option (List Nat) :=
  if bytes.length = 4 ∨ ¬part.all Char.isDigit then none
  else if 255 < tonumber part then none
  else some (bytes ++ [tonumber part])

/-- `parse_ipv4_bytes` -/
def parseIpv4Bytes (addr : List Char) : Option (List Nat) := do
  let bytes ← (words (· != '.') addr).foldlM ipv4Byte []
  if bytes.length = 4 then some bytes else none

/-- The value of a hexadecimal digit. -/
def hexValue (char : Char) : Nat :=
  if char.isDigit then char.toNat - '0'.toNat
  else if 'a' ≤ char then char.toNat - 'a'.toNat + 10
  else char.toNat - 'A'.toNat + 10

/-- `tonumber(group, 16)` on hexadecimal digits. -/
def tonumberHex (group : List Char) : Nat := group.foldl (fun n char => n * 16 + hexValue char) 0

/-- One round of the loop of `append_ipv6_part`. -/
def ipv6Group (groups : List Nat) (group : List Char) : Option (List Nat) :=
  if group.contains '.' then
    match parseIpv4Bytes group with
    | some [a, b, c, d] => some (groups ++ [a * 256 + b, c * 256 + d])
    | _ => none
  else if !group.all isHexDigit || 4 < group.length then none
  else some (groups ++ [tonumberHex group])

/-- `append_ipv6_part`, on an empty list of groups. -/
def ipv6Part (part : List Char) : Option (List Nat) :=
  (words (· != ':') part).foldlM ipv6Group []

/-- What stands before and after the first `"::"`. -/
def splitDouble : List Char → Option (List Char × List Char)
  | ':' :: ':' :: rest => some ([], rest)
  | char :: rest => (splitDouble rest).map fun (left, right) => (char :: left, right)
  | [] => none

/-- `parse_ipv6_bytes` -/
def parseIpv6Bytes (addr : String) : Option (List Nat) := do
  let groups ← match splitDouble addr.toList with
    | some (left, right) =>
        if (splitDouble right).isSome || left.getLast? == some ':' || right.head? == some ':' then none
        else do
          let leftGroups ← ipv6Part left
          let rightGroups ← ipv6Part right
          let filled := leftGroups.length + rightGroups.length
          if 8 ≤ filled then none else some (leftGroups ++ List.replicate (8 - filled) 0 ++ rightGroups)
    | none => do
        let groups ← ipv6Part addr.toList
        if groups.length = 8 then some groups else none
  if groups.any fun group => 0xffff < group then none
  else some (groups.flatMap fun group => [group / 256, group % 256])

structure Ipv6Net where
  bytes : List Nat
  prefixLength : Nat
  deriving DecidableEq, Repr

/-- `net:match("^([^/]+)/(%d+)$")` -/
def cidrParts (net : List Char) : Option (List Char × List Char) :=
  match net.takeWhile (· != '/'), net.dropWhile (· != '/') with
  | first :: rest, '/' :: digit :: digits =>
      if (digit :: digits).all Char.isDigit then some (first :: rest, digit :: digits) else none
  | _, _ => none

/-- `parse_ipv6_cidr` -/
def parseIpv6Cidr (net : String) : Option Ipv6Net := do
  let (addr, prefixLength) := match cidrParts net.toList with
    | some (addr, digits) => (String.ofList addr, tonumber digits)
    | none => (net, 128)
  if 128 < prefixLength then none
  else
    let bytes ← parseIpv6Bytes addr
    some ⟨bytes, prefixLength⟩

/-- `ipv6_prefix_match` -/
def ipv6PrefixMatch (addr : List Nat) (net : Ipv6Net) : Bool :=
  let fullBytes := net.prefixLength / 8
  let restBits := net.prefixLength % 8
  (List.range fullBytes).all (fun i => addr[i]? == net.bytes[i]?) &&
    (restBits == 0 ||
      addr[fullBytes]?.map (· / 2 ^ (8 - restBits)) == net.bytes[fullBytes]?.map (· / 2 ^ (8 - restBits)))

/-! ## Rules -/

structure SimpleRule where
  mac : String
  user : String
  v4User : String
  v6Nets : List Ipv6Net
  deriving DecidableEq, Repr

/-- `compile_user` -/
def compileUser (user : String) : String × List Ipv6Net :=
  (String.intercalate "," ((splitList user).filter fun item => !isIpv6 item),
    ((splitList user).filter isIpv6).filterMap parseIpv6Cidr)

/-- The rule of a section with this user list and MAC. -/
def compileRule (user mac : String) : SimpleRule :=
  { mac := normalizeMac mac, user := user, v4User := (compileUser user).1, v6Nets := (compileUser user).2 }

/-- `ipops_test_netstrings` -/
def ipopsTestNetstrings (user ip : String) : Bool :=
  user == "" || rangeSetInRangeSet (netStringSet2rangeSet [ip]) (netStringSet2rangeSet (splitList user))

/-- `user_matches` -/
def userMatches (rule : SimpleRule) (ip mac : String) : Bool :=
  if rule.mac != "" && normalizeMac mac != rule.mac then false
  else if rule.user == "" then true
  else if isIpv6 ip then
    match parseIpv6Bytes ip with
    | none => false
    | some addr => rule.v6Nets.any (ipv6PrefixMatch addr)
  else if rule.v4User == "" then false
  else ipopsTestNetstrings rule.v4User ip

example : parseIpv6Bytes "fe80::1:10.0.0.1" =
    some [0xfe, 0x80, 0, 0, 0, 0, 0, 0, 0, 0, 0, 1, 10, 0, 0, 1] := by decide +kernel

end XWrt.Natflow
