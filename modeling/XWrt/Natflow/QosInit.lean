import XWrt.Natflow.SimpleQos

/-!
# User lists of the QoS init script

How `natflow-qos.init` turns the user list of a rule into an address selector.
The shell cuts the list at commas, spaces, tabs and newlines and replaces a word
that is a file name pattern by the names it matches, which depends on the
directory, so the expansion is a parameter. An input that is an option of `echo`
has neither digits nor colons and lists nothing either way.
-/

namespace XWrt.Natflow

open Foundation.Text
open Ipops

def isIfs (char : Char) : Bool := char == ' ' || char == '\t' || char == '\n'

/-- The words of `$(echo "$input" | tr ',' ' ')`. -/
def shellWords (input : String) : List String :=
  (words (fun char => !isIfs char) (input.toList.map fun char => if char = ',' then ' ' else char)).map String.ofList

/-- The words the loop of `format_ip_strings` runs over. -/
def listed (glob : String → List String) (input : String) : List String := (shellWords input).flatMap glob

def appendV4 (v4List ip : String) : String := if v4List = "" then ip else v4List ++ "," ++ ip

def v4List (glob : String → List String) (input : String) : String :=
  ((listed glob input).filter fun ip => !isIpv6 ip).foldl appendV4 ""

def v6List (glob : String → List String) (input : String) : List String := (listed glob input).filter isIpv6

/-- `format_ip_strings`: the words it prints, once `ipops.lua` has ended. -/
def formatIpStrings (glob : String → List String) (fuel : Nat) (input : String) : Option (List String) := do
  let processedV4 ← if v4List glob input ≠ "" then netStrings2ipcidrStrings fuel (v4List glob input) else some []
  some (processedV4 ++ v6List glob input)

/-! ## Sets -/

structure DualStackSet where
  v4 : List String
  v6 : List String
  deriving DecidableEq, Repr

/-- `maxelem` of `create_dual_stack_set` -/
def maxelem : Nat := 1024

/-- `ipset add`: an element that is there already, or one too many, is refused. -/
def ipsetAdd (set : List String) (net : String) : List String :=
  if net ∈ set ∨ maxelem ≤ set.length then set else set ++ [net]

/-- The networks of length 0 are not allowed in a set and are added as halves. -/
def halves (net : String) : List String :=
  if net = "0.0.0.0/0" then ["0.0.0.0/1", "128.0.0.0/1"]
  else if net = "::/0" then ["::/1", "8000::/1"]
  else [net]

def ipSetAddOne (set : DualStackSet) (net : String) : DualStackSet :=
  if isIpv6 net then { set with v6 := ipsetAdd set.v6 net } else { set with v4 := ipsetAdd set.v4 net }

/-- `ip_set_add` -/
def ipSetAdd (set : DualStackSet) (net : String) : DualStackSet := (halves net).foldl ipSetAddOne set

inductive Selector
  | none
  | address (net : String)
  | ipset (members : DualStackSet)
  deriving DecidableEq, Repr

/-- What `setup_qos_ip_field` makes of the words of `ip_list`. -/
def selectorOf : List String → Selector
  | [] => .none
  | [net] => .address net
  | ipList => .ipset (ipList.foldl ipSetAdd ⟨[], []⟩)

/-- `setup_qos_ip_field` -/
def setupQosIpField (glob : String → List String) (fuel : Nat) (input : String) : Option Selector :=
  (formatIpStrings glob fuel input).map selectorOf

/-- The IPv4 address is one of the network. -/
def netCovers (net : String) (x : Nat) : Bool :=
  !isIpv6 net && (netString2range net).any fun range => range.lo ≤ (x : Int) && (x : Int) ≤ range.hi

/-- The rule is for the IPv4 address; without a selector it is for every address. -/
def Selector.covers (x : Nat) : Selector → Bool
  | .none => true
  | .address net => netCovers net x
  | .ipset members => members.v4.any fun net => netCovers net x

end XWrt.Natflow
