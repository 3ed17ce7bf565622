import XWrt.Foundation.AlignedBlock
import XWrt.Mwan3.IfaceEvents

/-!
# Native IPv6 prefixes

`mwan3_set_ipv6_native` of `lib/mwan3/mwan3.sh`. A prefix of an interface is
native unless its network address lies in the set of another interface, or the
network address of a prefix of another interface lies in its own set. The second
test asks the whole set, so it may answer for another prefix of the interface.
-/

namespace XWrt.Mwan3

open XWrt.Foundation

/-! ## Prefixes and sets -/

/-- An IPv6 prefix as a `hash:net` set holds it. -/
structure Net6 extends AlignedBlock 128 where
  nonneg : 0 ≤ base
  inside : toAlignedBlock.last < 2 ^ 128

namespace Net6

/-- The address is one of the prefix. -/
def Holds (net : Net6) (address : Int) : Prop := net.base ≤ address ∧ address ≤ net.last

instance (net : Net6) (address : Int) : Decidable (net.Holds address) :=
  inferInstanceAs (Decidable (_ ∧ _))

/-- Two prefixes have an address in common. -/
def Overlaps (first second : Net6) : Prop := ∃ address, first.Holds address ∧ second.Holds address

theorem holds_base (net : Net6) : net.Holds net.base := ⟨le_refl _, net.base_le_last⟩

/-- Prefixes overlap exactly if one of them holds the network address of the other. -/
theorem overlaps_iff {first second : Net6} :
    first.Overlaps second ↔ second.Holds first.base ∨ first.Holds second.base := by
  constructor
  · rintro ⟨address, ⟨low, high⟩, low', high'⟩
    rcases AlignedBlock.apart_or_nested first.toAlignedBlock second.toAlignedBlock with
      before | after | ⟨lower, upper⟩ | ⟨lower, upper⟩
    · omega
    · omega
    · exact .inl ⟨lower, first.base_le_last.trans upper⟩
    · exact .inr ⟨lower, second.base_le_last.trans upper⟩
  · rintro (inside | inside)
    · exact ⟨first.base, first.holds_base, inside⟩
    · exact ⟨second.base, inside, second.holds_base⟩

end Net6

/-- `ipset test` of a `hash:net` set -/
def ipsetTest (set : List Net6) (address : Int) : Prop := ∃ net ∈ set, net.Holds address

instance (set : List Net6) (address : Int) : Decidable (ipsetTest set address) :=
  inferInstanceAs (Decidable (∃ net ∈ set, net.Holds address))

/-! ## The function -/

section Function

variable (c : IfaceConfig) (sets : String → Option (List Net6))

/-- The set `mwan3_..._ipv6_src_from` of an interface; a missing set holds nothing. -/
def srcFrom (name : String) : List Net6 := (sets name).getD []

/-- The interfaces that `mwan3_collect_ipv6_native` does not pass over. -/
def nativeIfaces : List String :=
  ((c.sections.take (interfaceMax c.mask).toNat).filter fun iface =>
    iface.enabled && .ipv6 ∈ iface.family.list && (sets iface.name).isSome).map IfaceSection.name

/-- `$entries` -/
def nativeEntries : List (String × Net6) :=
  (nativeIfaces c sets).flatMap fun name => (srcFrom sets name).map fun net => (name, net)

/-- `conflict` after the inner loop -/
def conflicts (entries : List (String × Net6)) (entry : String × Net6) : Bool :=
  entries.any fun other => entry.1 ≠ other.1 ∧
    (ipsetTest (srcFrom sets other.1) entry.2.base ∨ ipsetTest (srcFrom sets entry.1) other.2.base)

/-- `mwan3_set_ipv6_native`; `old` is the set before. -/
def setIpv6Native (old : List Net6) : List Net6 :=
  if c.need .ipv6 then
    let entries := nativeEntries c sets
    (entries.filter fun entry => !conflicts sets entries entry).map Prod.snd
  else old

/-- The prefix overlaps no prefix of another interface. -/
def Unambiguous (name : String) (net : Net6) : Prop :=
  ∀ other ∈ nativeIfaces c sets, name ≠ other → ∀ net' ∈ srcFrom sets other, ¬ net.Overlaps net'

/-- No interface has both an unambiguous prefix and one that holds the network address of a prefix of
another interface. -/
def Unmixed : Prop :=
  ∀ name ∈ nativeIfaces c sets, (∃ net ∈ srcFrom sets name, Unambiguous c sets name net) →
    ∀ other ∈ nativeIfaces c sets, name ≠ other → ∀ net' ∈ srcFrom sets other,
      ¬ ipsetTest (srcFrom sets name) net'.base

end Function

section Native

variable {c : IfaceConfig} {sets : String → Option (List Net6)} {old : List Net6}

theorem mem_nativeEntries {entry : String × Net6} :
    entry ∈ nativeEntries c sets ↔ entry.1 ∈ nativeIfaces c sets ∧ entry.2 ∈ srcFrom sets entry.1 := by
  unfold nativeEntries
  rw [List.mem_flatMap]
  constructor
  · rintro ⟨name, member, inside⟩
    obtain ⟨net, own, rfl⟩ := List.mem_map.mp inside
    exact ⟨member, own⟩
  · rintro ⟨member, own⟩
    exact ⟨entry.1, member, List.mem_map.mpr ⟨entry.2, own, rfl⟩⟩

theorem conflicts_iff {name : String} {net : Net6} :
    conflicts sets (nativeEntries c sets) (name, net) = true ↔
      ∃ other ∈ nativeIfaces c sets, name ≠ other ∧ ∃ net' ∈ srcFrom sets other,
        ipsetTest (srcFrom sets other) net.base ∨ ipsetTest (srcFrom sets name) net'.base := by
  rw [conflicts, List.any_eq_true]
  constructor
  · rintro ⟨⟨other, net'⟩, member, tests⟩
    obtain ⟨differ, hit⟩ := of_decide_eq_true tests
    obtain ⟨listed, own⟩ := mem_nativeEntries.mp member
    exact ⟨other, listed, differ, net', own, hit⟩
  · rintro ⟨other, listed, differ, net', own, hit⟩
    exact ⟨(other, net'), mem_nativeEntries.mpr ⟨listed, own⟩, decide_eq_true ⟨differ, hit⟩⟩

/-- An overlap is a conflict. -/
theorem unambiguous_of_not_conflicts {name : String} {net : Net6} (member : net ∈ srcFrom sets name)
    (free : conflicts sets (nativeEntries c sets) (name, net) = false) : Unambiguous c sets name net := by
  intro other listed differ net' own overlaps
  rw [← Bool.not_eq_true, conflicts_iff] at free
  refine free ⟨other, listed, differ, net', own, ?_⟩
  rcases Net6.overlaps_iff.mp overlaps with inside | inside
  · exact .inl ⟨net', own, inside⟩
  · exact .inr ⟨net, member, inside⟩

/-- A conflict without an overlap comes from another prefix of the interface. -/
theorem conflicts_of_unambiguous {name : String} {net : Net6} (unambiguous : Unambiguous c sets name net) :
    conflicts sets (nativeEntries c sets) (name, net) = true ↔
      ∃ other ∈ nativeIfaces c sets, name ≠ other ∧ ∃ net' ∈ srcFrom sets other,
        ipsetTest (srcFrom sets name) net'.base := by
  rw [conflicts_iff]
  constructor
  · rintro ⟨other, listed, differ, net', own, ⟨hit, member, inside⟩ | hit⟩
    · exact absurd (Net6.overlaps_iff.mpr (.inl inside)) (unambiguous other listed differ hit member)
    · exact ⟨other, listed, differ, net', own, hit⟩
  · rintro ⟨other, listed, differ, net', own, hit⟩
    exact ⟨other, listed, differ, net', own, .inr hit⟩

theorem mem_setIpv6Native (needed : c.need .ipv6 = true) {net : Net6} :
    net ∈ setIpv6Native c sets old ↔ ∃ name ∈ nativeIfaces c sets, net ∈ srcFrom sets name ∧
      conflicts sets (nativeEntries c sets) (name, net) = false := by
  unfold setIpv6Native
  rw [if_pos needed]
  simp only [List.mem_map, List.mem_filter, Bool.not_eq_true']
  constructor
  · rintro ⟨⟨name, net⟩, ⟨member, free⟩, rfl⟩
    obtain ⟨listed, own⟩ := mem_nativeEntries.mp member
    exact ⟨name, listed, own, free⟩
  · rintro ⟨name, listed, own, free⟩
    exact ⟨(name, net), ⟨mem_nativeEntries.mpr ⟨listed, own⟩, free⟩, rfl⟩

/-- A prefix that is native through any interface is unambiguous for every interface that has it. -/
theorem unambiguous_of_native (needed : c.need .ipv6 = true) {name : String} {net : Net6}
    (listed : name ∈ nativeIfaces c sets) (own : net ∈ srcFrom sets name) (native : net ∈ setIpv6Native c sets old) :
    Unambiguous c sets name net ∧ conflicts sets (nativeEntries c sets) (name, net) = false := by
  obtain ⟨through, listed', own', free⟩ := (mem_setIpv6Native needed).mp native
  have unambiguous := unambiguous_of_not_conflicts own' free
  by_cases same : through = name
  · subst same
    exact ⟨unambiguous, free⟩
  · exact absurd ⟨net.base, net.holds_base, net.holds_base⟩ (unambiguous name listed same net own)

/-- The native set holds exactly the unambiguous prefixes if and only if no interface mixes an
unambiguous prefix with one that meets another interface. -/
theorem ipv6Native_iff (c : IfaceConfig) (sets : String → Option (List Net6)) (old : List Net6)
    (needed : c.need .ipv6 = true) :
    (∀ name ∈ nativeIfaces c sets, ∀ net ∈ srcFrom sets name,
      (net ∈ setIpv6Native c sets old ↔ Unambiguous c sets name net)) ↔ Unmixed c sets := by
  constructor
  · rintro exact_ name listed ⟨net, own, unambiguous⟩ other listed' differ net' own' hit
    have native := (exact_ name listed net own).mpr unambiguous
    have free := (unambiguous_of_native needed listed own native).2
    rw [(conflicts_of_unambiguous unambiguous).mpr ⟨other, listed', differ, net', own', hit⟩] at free
    cases free
  · intro unmixed name listed net own
    refine ⟨fun native => (unambiguous_of_native needed listed own native).1, fun unambiguous => ?_⟩
    refine (mem_setIpv6Native needed).mpr ⟨name, listed, own, ?_⟩
    rw [← Bool.not_eq_true, conflicts_of_unambiguous unambiguous]
    rintro ⟨other, listed', differ, net', own', hit⟩
    exact unmixed name listed ⟨net, own, unambiguous⟩ other listed' differ net' own' hit

/-- 2001:db8:1::/48, 2001:db8:2::/48 and 2001:db8:2:100::/56. -/
def firstNet : Net6 :=
  ⟨⟨0x20010db8000100000000000000000000, 80, by decide, by decide +kernel⟩, by decide, by decide +kernel⟩

def secondNet : Net6 :=
  ⟨⟨0x20010db8000200000000000000000000, 80, by decide, by decide +kernel⟩, by decide, by decide +kernel⟩

def nestedNet : Net6 :=
  ⟨⟨0x20010db8000201000000000000000000, 72, by decide, by decide +kernel⟩, by decide, by decide +kernel⟩

/-- Two uplinks with IPv6. -/
def twoUplinks : IfaceConfig where
  sections := [⟨"wan", true, .any⟩, ⟨"wanb", true, .any⟩]
  maskText := "0x3F00"
  mask := 0x3F00
  noIpv6 := false
  distinct := by decide
  spelled := readMask_default
  bound := defaultMask_lt

/-- The sets of the two uplinks. -/
def uplinkSets (wan wanb : List Net6) (name : String) : Option (List Net6) :=
  if name = "wan" then some wan else if name = "wanb" then some wanb else none

theorem ipv6Native_single_prefixes :
    firstNet ∈ setIpv6Native twoUplinks (uplinkSets [firstNet] [nestedNet]) [] ↔
      Unambiguous twoUplinks (uplinkSets [firstNet] [nestedNet]) "wan" firstNet := by
  have ifaces : nativeIfaces twoUplinks (uplinkSets [firstNet] [nestedNet]) = ["wan", "wanb"] := by decide +kernel
  refine (ipv6Native_iff twoUplinks (uplinkSets [firstNet] [nestedNet]) [] (by decide +kernel)).mpr ?_ "wan"
    (by rw [ifaces]; exact List.mem_cons_self) firstNet (List.mem_singleton_self _)
  have apart : ∀ name ∈ ["wan", "wanb"], ∀ other ∈ ["wan", "wanb"], name ≠ other →
      ∀ net' ∈ srcFrom (uplinkSets [firstNet] [nestedNet]) other,
        ¬ ipsetTest (srcFrom (uplinkSets [firstNet] [nestedNet]) name) net'.base := by decide +kernel
  intro name listed _ other listed' differ net' own'
  rw [ifaces] at listed listed'
  exact apart name listed other listed' differ net' own'

/-- 2001:db8:1::/48 of wan meets nothing of wanb and is left out for 2001:db8:2::/48. -/
theorem ipv6Native_leaves_out :
    twoUplinks.need .ipv6 = true ∧ "wan" ∈ nativeIfaces twoUplinks (uplinkSets [firstNet, secondNet] [nestedNet]) ∧
      firstNet ∈ srcFrom (uplinkSets [firstNet, secondNet] [nestedNet]) "wan" ∧
      ¬ (firstNet ∈ setIpv6Native twoUplinks (uplinkSets [firstNet, secondNet] [nestedNet]) [] ↔
        Unambiguous twoUplinks (uplinkSets [firstNet, secondNet] [nestedNet]) "wan" firstNet) := by
  have ifaces : nativeIfaces twoUplinks (uplinkSets [firstNet, secondNet] [nestedNet]) = ["wan", "wanb"] := by
    decide +kernel
  have needed : twoUplinks.need .ipv6 = true := by decide +kernel
  have listed : "wan" ∈ nativeIfaces twoUplinks (uplinkSets [firstNet, secondNet] [nestedNet]) := by
    rw [ifaces]
    exact List.mem_cons_self
  have own : firstNet ∈ srcFrom (uplinkSets [firstNet, secondNet] [nestedNet]) "wan" := List.mem_cons_self
  refine ⟨needed, listed, own, fun same => ?_⟩
  have apart : ∀ other ∈ ["wan", "wanb"], "wan" ≠ other →
      ∀ net' ∈ srcFrom (uplinkSets [firstNet, secondNet] [nestedNet]) other,
        ¬ net'.Holds firstNet.base ∧ ¬ firstNet.Holds net'.base := by decide +kernel
  have unambiguous : Unambiguous twoUplinks (uplinkSets [firstNet, secondNet] [nestedNet]) "wan" firstNet := by
    intro other member differ net' inside overlaps
    rw [ifaces] at member
    have holds := apart other member differ net' inside
    exact (Net6.overlaps_iff.mp overlaps).elim holds.1 holds.2
  have free := (unambiguous_of_native needed listed own (same.mpr unambiguous)).2
  have conflict : conflicts (uplinkSets [firstNet, secondNet] [nestedNet])
      (nativeEntries twoUplinks (uplinkSets [firstNet, secondNet] [nestedNet])) ("wan", firstNet) = true := by
    decide +kernel
  rw [conflict] at free
  cases free

end Native

end XWrt.Mwan3
