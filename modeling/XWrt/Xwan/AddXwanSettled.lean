import XWrt.Foundation.UciMissing
import XWrt.Xwan.AddXwan

/-!
# What a run of `add_xwan` leaves to the next one

After a run the numbered devices and interfaces are there up to the number and
free behind it, and the wan zone has its networks. A second run finds both as it
would leave them.
-/

namespace XWrt.Xwan.AddXwan

open Foundation
open Foundation.Uci
open Foundation.Keyed
open Pptpxwan (Packages interfaceType memberType policyType ruleType memberName)

section Turn

variable {glob : Text → List Text} {config : XwanConfig} {device ifname : Text} {run : Run}

/-! ## The packages of a turn -/

theorem addMissing_frame (family : Text) (trackIps : List Text) (intf : Text) :
    (addMissing family trackIps intf run).network = run.network ∧ (addMissing family trackIps intf run).firewall = run.firewall := by
  rw [addMissing]
  split
  · exact ⟨rfl, rfl⟩
  · exact ⟨rfl, rfl⟩

theorem startBalanced_frame (trackIps : List Text) :
    (startBalanced trackIps run).network = run.network ∧ (startBalanced trackIps run).firewall = run.firewall := by
  rw [startBalanced]
  split
  · exact addMissing_frame ..
  · exact addMissing_frame ..

theorem addDevice_frame (id : ℕ) :
    (addDevice device ifname id run).firewall = run.firewall ∧ (addDevice device ifname id run).mwan3 = run.mwan3 := by
  rw [addDevice]
  split
  · exact ⟨rfl, rfl⟩
  · exact ⟨rfl, rfl⟩

theorem addInterface_frame (id : ℕ) :
    (addInterface device ifname id run).firewall = run.firewall ∧ (addInterface device ifname id run).mwan3 = run.mwan3 := by
  rw [addInterface]
  split
  · exact ⟨rfl, rfl⟩
  · exact ⟨rfl, rfl⟩

theorem setMetric_frame : (setMetric run).firewall = run.firewall ∧ (setMetric run).mwan3 = run.mwan3 := by
  rw [setMetric]
  split
  · exact ⟨rfl, rfl⟩
  · exact ⟨rfl, rfl⟩

theorem turn_network (id : ℕ) :
    (turn glob config device ifname run id).network = (addInterface device ifname id (addDevice device ifname id run)).network := by
  rw [turn]
  split
  · exact (addMissing_frame ..).1
  · rfl

theorem turn_firewall (id : ℕ) :
    (turn glob config device ifname run id).firewall = run.firewall.editFirst isWanZone (addToZoneWan glob (xwanName 2 id)) := by
  have before : (addInterface device ifname id (addDevice device ifname id run)).firewall = run.firewall :=
    (addInterface_frame id).1.trans (addDevice_frame id).1
  rw [turn]
  split
  · rw [(addMissing_frame ..).2, before]
  · rw [before]

/-! ## Devices and interfaces -/

theorem lookup_addDevice {id : ℕ} {key : String} (other : key ≠ deviceKey 2 id) :
    (addDevice device ifname id run).network.lookup key = run.network.lookup key := by
  rw [addDevice]
  split
  · rfl
  · exact Config.lookup_create_of_ne other ..

theorem lookup_addInterface {id : ℕ} {key : String} (other : key ≠ xwanKey 2 id) :
    (addInterface device ifname id run).network.lookup key = run.network.lookup key := by
  rw [addInterface]
  split
  · rfl
  · exact Config.lookup_create_of_ne other ..

theorem has_addDevice (id : ℕ) : (addDevice device ifname id run).network.has (deviceKey 2 id) = true := by
  rw [addDevice]
  split
  next found => exact found
  next => rw [Config.has, Config.lookup_create_self, Option.isSome_some]

theorem has_addInterface (id : ℕ) : (addInterface device ifname id run).network.has (xwanKey 2 id) = true := by
  rw [addInterface]
  split
  next found => exact found
  next => rw [Config.has, Config.lookup_create_self, Option.isSome_some]

/-- A turn changes only the sections of its number. -/
theorem lookup_turn {id : ℕ} {key : String} (device' : key ≠ deviceKey 2 id) (xwan : key ≠ xwanKey 2 id) :
    (turn glob config device ifname run id).network.lookup key = run.network.lookup key := by
  rw [turn_network, lookup_addInterface xwan, lookup_addDevice device']

/-- Both sections of a number. -/
def HasBoth (network : Config) (id : ℕ) : Prop := network.has (deviceKey 2 id) = true ∧ network.has (xwanKey 2 id) = true

theorem hasBoth_turn (id : ℕ) : HasBoth (turn glob config device ifname run id).network id := by
  rw [HasBoth, turn_network]
  refine ⟨?_, has_addInterface id⟩
  rw [Config.has, lookup_addInterface (deviceKey_ne_xwanKey 2 id id)]
  exact has_addDevice id

theorem turn_network_of_hasBoth {id : ℕ} (both : HasBoth run.network id) : (turn glob config device ifname run id).network = run.network := by
  have first : addDevice device ifname id run = run := if_pos both.1
  rw [turn_network, first, addInterface, if_pos both.2]

variable {ids : List ℕ}

theorem lookup_foldl_turn {key : String} (other : ∀ id ∈ ids, key ≠ deviceKey 2 id ∧ key ≠ xwanKey 2 id) :
    (ids.foldl (turn glob config device ifname) run).network.lookup key = run.network.lookup key := by
  induction ids generalizing run with
  | nil => rfl
  | cons id rest ih =>
      rw [List.forall_mem_cons] at other
      exact (ih other.2).trans (lookup_turn other.1.1 other.1.2)

/-- After the loop the sections of every number are there. -/
theorem hasBoth_foldl_turn {id : ℕ} (member : id ∈ ids) : HasBoth (ids.foldl (turn glob config device ifname) run).network id := by
  induction ids generalizing run with
  | nil => cases member
  | cons first rest ih =>
      by_cases later : id ∈ rest
      · exact ih later
      · have here := (List.mem_cons.mp member).resolve_right later
        have apart : ∀ other ∈ rest, other ≠ id := fun other inside same => later (same ▸ inside)
        have device' := @lookup_foldl_turn glob config device ifname (turn glob config device ifname run first) rest (deviceKey 2 id) fun other inside =>
          ⟨fun same => apart other inside (deviceKey_injective 2 same).symm, deviceKey_ne_xwanKey 2 id other⟩
        have xwan := @lookup_foldl_turn glob config device ifname (turn glob config device ifname run first) rest (xwanKey 2 id) fun other inside =>
          ⟨(deviceKey_ne_xwanKey 2 other id).symm, fun same => apart other inside (xwanKey_injective 2 same).symm⟩
        rw [List.foldl_cons, HasBoth, Config.has, Config.has, device', xwan, here]
        exact hasBoth_turn first

theorem foldl_turn_network_of_hasBoth (both : ∀ id ∈ ids, HasBoth run.network id) :
    (ids.foldl (turn glob config device ifname) run).network = run.network := by
  induction ids generalizing run with
  | nil => rfl
  | cons id rest ih =>
      rw [List.forall_mem_cons] at both
      have same := @turn_network_of_hasBoth glob config device ifname run id both.1
      rw [List.foldl_cons, ih (same ▸ both.2), same]

/-- The interfaces join the zone one after the other. -/
theorem foldl_turn_firewall : (ids.foldl (turn glob config device ifname) run).firewall =
    run.firewall.editFirst isWanZone fun s => (ids.map (xwanName 2)).foldl (fun s intf => addToZoneWan glob intf s) s := by
  induction ids generalizing run with
  | nil => exact (Config.editFirst_id _).symm
  | cons id rest ih =>
      have keeps : ∀ s, isWanZone s = true → isWanZone (addToZoneWan glob (xwanName 2 id) s) = true := fun s wan => (isWanZone_addToZoneWan ..).trans wan
      rw [List.foldl_cons, ih, turn_firewall, Config.editFirst_editFirst keeps]
      rfl

end Turn

/-! ## The interface `wan` -/

theorem wan_ne_numbered (id : ℕ) : "wan" ≠ deviceKey 2 id ∧ "wan" ≠ xwanKey 2 id := by
  have first : ∀ {rest : Text}, "wan".toList = rest → rest.head? = some 'w' := by
    rintro _ rfl
    rfl
  refine ⟨fun same => ?_, fun same => ?_⟩
  · have head := first ((congrArg String.toList same).trans String.toList_ofList)
    cases head
  · have head := first ((congrArg String.toList same).trans String.toList_ofList)
    cases head

section Network

variable {glob : Text → List Text} {config : XwanConfig} {device ifname : Text} {run : Run}

/-- The condition of the loop. -/
def Adds (config : XwanConfig) (network : Config) : Prop :=
  1 ≤ config.number ∧ (network.options "wan").got "device" ++ (network.options "wan").got "ifname" ≠ []

instance (network : Config) : Decidable (Adds config network) := inferInstanceAs (Decidable (_ ∧ _))

/-- Nothing of the network is missing. -/
structure Settled (config : XwanConfig) (network : Config) : Prop where
  metric : ((network.options "wan").lookup "metric").isSome = true
  numbered : ∀ id ∈ List.range' 1 (config.number - 1), HasBoth network id

/-- The options of `wan` other than the metric stay. -/
theorem got_setMetric {option : String} (other : option ≠ "metric") :
    ((setMetric run).network.options "wan").got option = (run.network.options "wan").got option := by
  rw [setMetric]
  split
  · rfl
  · cases here : run.network.lookup "wan" with
    | none => rw [Config.edit, here]
    | some s =>
        have edited := Config.lookup_edit_of_lookup here fun s => s.set "metric" "40".toList
        rw [options_of_lookup edited, options_of_lookup here, Options.got, Options.got, Section.lookup_set_of_ne other]

theorem lookup_addAll_wan : (addAll glob config device ifname run).network.lookup "wan" = (setMetric run).network.lookup "wan" := by
  rw [addAll, lookup_foldl_turn fun id _ => wan_ne_numbered id]
  split
  · rw [(startBalanced_frame _).1]
  · rfl

theorem got_addAll {option : String} (other : option ≠ "metric") :
    ((addAll glob config device ifname run).network.options "wan").got option = (run.network.options "wan").got option := by
  rw [Config.options_congr lookup_addAll_wan, got_setMetric other]

/-- The loop leaves nothing missing. -/
theorem settled_addAll (adds : Adds config run.network) : Settled config (addAll glob config device ifname run).network where
  metric := by
    rw [Config.options_congr lookup_addAll_wan, setMetric]
    split
    next found => exact found
    next =>
      obtain ⟨s, here⟩ : ∃ s, run.network.lookup "wan" = some s := by
        refine Option.ne_none_iff_exists'.mp fun missing => adds.2 ?_
        rw [Config.options, missing]
        rfl
      have edited := Config.lookup_edit_of_lookup here fun s => s.set "metric" "40".toList
      have made : (s.set "metric" "40".toList).options.lookup "metric" = some (.option "40".toList) := by
        rw [Section.lookup_set_self, if_neg (by decide)]
      rw [options_of_lookup edited]
      exact Option.isSome_iff_exists.mpr ⟨_, made⟩
  numbered _ member := hasBoth_foldl_turn member

theorem setMetric_of_settled (settled : Settled config run.network) : setMetric run = run := if_pos settled.metric

theorem addAll_network_of_settled (settled : Settled config run.network) : (addAll glob config device ifname run).network = run.network := by
  rw [addAll, setMetric_of_settled settled]
  split
  · have same := (@startBalanced_frame run (trackIps glob config)).1
    rw [foldl_turn_network_of_hasBoth (same ▸ settled.numbered), same]
  · exact foldl_turn_network_of_hasBoth settled.numbered

/-! ## A run that is enabled -/

variable {digest : Text} {packages : Packages}

/-- A run, before the digest is stored. -/
def enabledRun (glob : Text → List Text) (digest : Text) (config : XwanConfig) (packages : Packages) : Run :=
  cleanUp glob config
    (if Adds config packages.network then
      addAll glob config ((packages.network.options "wan").got "device") ((packages.network.options "wan").got "ifname") (renew digest packages)
    else renew digest packages)

theorem renew_frame : (renew digest packages).network = packages.network ∧ (renew digest packages).firewall = packages.firewall := by
  rw [renew]
  split
  · exact ⟨rfl, rfl⟩
  · exact ⟨rfl, rfl⟩

theorem addXwan_of_enabled (enabled : config.enabled = "1".toList) : addXwan glob digest config packages =
    if (enabledRun glob digest config packages).change then
      { (enabledRun glob digest config packages).toPackages with
        mwan3 := (enabledRun glob digest config packages).mwan3.edit "globals" fun s => s.set "xwan_md5" digest }
    else (enabledRun glob digest config packages).toPackages := by
  rw [addXwan, if_neg (not_not.mpr enabled)]
  simp only [renew_frame.1]
  rfl

theorem addXwan_network (enabled : config.enabled = "1".toList) :
    (addXwan glob digest config packages).network = (enabledRun glob digest config packages).network := by
  rw [addXwan_of_enabled enabled]
  split
  · rfl
  · rfl

theorem addXwan_firewall (enabled : config.enabled = "1".toList) :
    (addXwan glob digest config packages).firewall = (enabledRun glob digest config packages).firewall := by
  rw [addXwan_of_enabled enabled]
  split
  · rfl
  · rfl

theorem cleanUp_wan : (cleanUp glob config run).network.lookup "wan" = run.network.lookup "wan" :=
  lookup_cleanNetwork (fun id _ => wan_ne_numbered id) _

/-- The clean-up leaves the numbers below. -/
theorem settled_cleanUp (settled : Settled config run.network) : Settled config (cleanUp glob config run).network where
  metric := by
    rw [Config.options_congr cleanUp_wan]
    exact settled.metric
  numbered id member := by
    have below : id < config.number := by
      rw [List.mem_range'_1] at member
      omega
    have device' := @lookup_cleanNetwork 2 config.number (deviceKey 2 id) (fun i low =>
      ⟨fun same => absurd (deviceKey_injective 2 same) (by omega), deviceKey_ne_xwanKey 2 id i⟩) run.network
    have xwan := @lookup_cleanNetwork 2 config.number (xwanKey 2 id) (fun i low =>
      ⟨(deviceKey_ne_xwanKey 2 i id).symm, fun same => absurd (xwanKey_injective 2 same) (by omega)⟩) run.network
    have both := settled.numbered id member
    rw [HasBoth, Config.has, Config.has] at both ⊢
    rw [cleanUp, device', xwan]
    exact both

theorem settled_enabledRun (adds : Adds config packages.network) : Settled config (enabledRun glob digest config packages).network := by
  rw [enabledRun, if_pos adds]
  exact settled_cleanUp (settled_addAll (renew_frame.1.symm ▸ adds))

theorem got_enabledRun {option : String} (other : option ≠ "metric") :
    ((enabledRun glob digest config packages).network.options "wan").got option = (packages.network.options "wan").got option := by
  rw [enabledRun, Config.options_congr cleanUp_wan]
  split
  · rw [got_addAll other, renew_frame.1]
  · rw [renew_frame.1]

/-- The condition is the same in the next run. -/
theorem adds_enabledRun : Adds config (enabledRun glob digest config packages).network ↔ Adds config packages.network := by
  rw [Adds, Adds, got_enabledRun (by decide), got_enabledRun (by decide)]

/-- Another run leaves the network. -/
theorem enabledRun_network {later : Packages} (same : later.network = (enabledRun glob digest config packages).network) :
    (enabledRun glob digest config later).network = later.network := by
  have clean : cleanNetwork 2 config.number later.network = later.network := by
    rw [same]
    exact cleanNetwork_cleanNetwork ..
  have adds : Adds config later.network ↔ Adds config packages.network := by rw [same, adds_enabledRun]
  rw [enabledRun, cleanUp]
  split
  next here =>
    have settled : Settled config later.network := same ▸ settled_enabledRun (adds.mp here)
    have kept := @addAll_network_of_settled glob config ((later.network.options "wan").got "device") ((later.network.options "wan").got "ifname")
      (renew digest later) (renew_frame.1.symm ▸ settled)
    simp only [kept, renew_frame.1, clean]
  next => simp only [renew_frame.1, clean]

end Network

/-! ## The zone -/

section Firewall

variable {glob : Text → List Text} {config : XwanConfig} {device ifname digest : Text} {run : Run} {packages : Packages}

/-- The interfaces that a run adds. -/
def addedInterfaces (config : XwanConfig) (network : Config) : List Text :=
  if Adds config network then (List.range' 1 (config.number - 1)).map (xwanName 2) else []

theorem isExcess_of_mem_addedInterfaces {network : Config} {intf : Text} (member : intf ∈ addedInterfaces config network) :
    IsName intf ∧ isExcess 2 config.number intf = false := by
  rw [addedInterfaces] at member
  split at member
  · obtain ⟨id, inside, rfl⟩ := List.mem_map.mp member
    rw [List.mem_range'_1] at inside
    exact ⟨isName_xwanName 2 id, isExcess_of_lt 2 (by omega)⟩
  · cases member

/-- What a run does to the zone. -/
def zoneAfter (glob : Text → List Text) (config : XwanConfig) (network : Config) (s : Section) : Section :=
  cleanZoneWan glob 2 config.number ((addedInterfaces config network).foldl (fun s intf => addToZoneWan glob intf s) s)

theorem addAll_firewall : (addAll glob config device ifname run).firewall =
    run.firewall.editFirst isWanZone fun s => ((List.range' 1 (config.number - 1)).map (xwanName 2)).foldl (fun s intf => addToZoneWan glob intf s) s := by
  rw [addAll, foldl_turn_firewall]
  split
  · rw [(startBalanced_frame _).2, setMetric_frame.1]
  · rw [setMetric_frame.1]

theorem enabledRun_firewall :
    (enabledRun glob digest config packages).firewall = packages.firewall.editFirst isWanZone (zoneAfter glob config packages.network) := by
  rw [enabledRun, cleanUp]
  split
  next adds =>
    simp only [addAll_firewall, renew_frame.2]
    rw [Config.editFirst_editFirst fun s wan => (isWanZone_foldl _ s).trans wan]
    refine congrArg (fun change => Config.editFirst isWanZone change _) (funext fun s => ?_)
    rw [zoneAfter, addedInterfaces, if_pos adds]
    rfl
  next adds =>
    rw [renew_frame.2]
    refine congrArg (fun change => Config.editFirst isWanZone change _) (funext fun s => ?_)
    rw [zoneAfter, addedInterfaces, if_neg adds]
    rfl

variable (keeps : KeepsNames glob)

include keeps

theorem zoneAfter_eq (network : Config) {s : Section} (plain : ∀ nw ∈ networks glob s, IsPlain glob nw) : zoneAfter glob config network s =
    withNetworks s ((withInterfaces (addedInterfaces config network) (networks glob s)).filter fun nw => !isExcess 2 config.number nw) := by
  have names : ∀ intf ∈ addedInterfaces config network, IsPlain glob intf := fun intf member =>
    isPlain_of_isName keeps (isExcess_of_mem_addedInterfaces member).1
  rw [zoneAfter, cleanZoneWan_eq, withNetworks_foldl, networks_foldl names plain]

/-- The zone has its networks after the first run. -/
theorem zoneAfter_zoneAfter (network : Config) {s : Section} (plain : ∀ nw ∈ networks glob s, IsPlain glob nw) :
    zoneAfter glob config network (zoneAfter glob config network s) = zoneAfter glob config network s := by
  have names : ∀ nw ∈ (withInterfaces (addedInterfaces config network) (networks glob s)).filter fun nw => !isExcess 2 config.number nw, IsPlain glob nw := by
    intro nw member
    rcases mem_withInterfaces.mp (List.mem_filter.mp member).1 with known | new
    · exact plain nw known
    · exact isPlain_of_isName keeps (isExcess_of_mem_addedInterfaces new).1
  have here := @networks_withNetworks glob _ names s
  rw [zoneAfter_eq keeps network plain, zoneAfter_eq keeps network (here.symm ▸ names), here, withNetworks_withNetworks]
  have there : ∀ intf ∈ addedInterfaces config network,
      intf ∈ (withInterfaces (addedInterfaces config network) (networks glob s)).filter fun nw => !isExcess 2 config.number nw := by
    intro intf member
    rw [List.mem_filter, (isExcess_of_mem_addedInterfaces member).2]
    exact ⟨mem_withInterfaces.mpr (.inr member), rfl⟩
  rw [withInterfaces_of_mem there, List.filter_filter]
  simp only [Bool.and_self]

/-- Another run leaves the firewall. -/
theorem enabledRun_firewall_again {later : Packages} (plain : ∀ zone ∈ packages.firewall.find? fun entry => isWanZone entry.2, ∀ nw ∈ networks glob zone.2, IsPlain glob nw)
    (network : later.network = (enabledRun glob digest config packages).network)
    (firewall : later.firewall = (enabledRun glob digest config packages).firewall) :
    (enabledRun glob digest config later).firewall = later.firewall := by
  have same : zoneAfter glob config later.network = zoneAfter glob config packages.network := by
    have adds : Adds config later.network ↔ Adds config packages.network := by rw [network, adds_enabledRun]
    refine funext fun s => ?_
    rw [zoneAfter, zoneAfter, addedInterfaces, addedInterfaces]
    simp only [adds]
  have wan : ∀ s, isWanZone s = true → isWanZone (zoneAfter glob config packages.network s) = true := by
    intro s wan
    rw [zoneAfter, cleanZoneWan_eq, isWanZone_withNetworks, isWanZone_foldl, wan]
  rw [enabledRun_firewall, firewall, enabledRun_firewall, same, Config.editFirst_editFirst wan]
  exact Config.editFirst_congr fun entry found => zoneAfter_zoneAfter keeps packages.network (plain entry found)

end Firewall

end XWrt.Xwan.AddXwan
