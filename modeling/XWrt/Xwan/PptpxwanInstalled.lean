import XWrt.Xwan.PptpxwanRuns

/-!
# What the last start leaves

Any sequence of starts from packages without interfaces of this naming leaves
what its last configuration alone would: behind the sections that were always
there, those of its lines.
-/

namespace XWrt.Xwan.Pptpxwan

open Foundation
open Foundation.Shell
open Foundation.Uci
open Foundation.Keyed

/-! ## Packages without lines -/

/-- The types whose sections a start deletes. -/
def lineTypes : List SectionType := [interfaceType, memberType, policyType, ruleType]

/-- Nothing in the packages has a name of this naming, and one zone is named `wan`; its networks have names. -/
structure Untouched (base : Packages) (zone : String × Section) : Prop where
  wan : base.firewall.filter (fun entry => isWanZone entry.2) = [zone]
  zoneKey : zone.1 ≠ greKey
  names : ∀ nw ∈ fields (zone.2.options.got "network"), IsName nw ∧ ∀ n, nw ≠ xwanName 3 n
  network : ∀ n, hasNumbered 3 base.network n = false
  mwan3 : ∀ entry ∈ base.mwan3, entry.2.type ∉ lineTypes → ∀ n, entry.1 ∉ lineKeys n

section Installed

variable (glob : Text → List Text)

/-- The wan zone with these networks, whatever it has now. -/
def zonesWith (names : List Text) (firewall : Config) : Config := firewall.editFirst isWanZone fun s => withNetworks s names

/-- The packages with the lines of one configuration, and the networks that `ipops.lua` prints for them. -/
def installed (base : Packages) (zone : String × Section) (config : PptpxwanConfig) (nets : List (Text × Text)) : Packages where
  network := base.network ++ networkLines config.pptp 0 (config.lines.zip nets)
  firewall := zonesWith (networks glob zone.2 ++ xwans 0 config.lines.length) (base.firewall.deleteSection greKey) ++
    [(greKey, ⟨ruleType, stored greOptions⟩)]
  mwan3 := deleteLines base.mwan3 ++ mwan3Lines glob config.pptp 0 (config.lines.zip nets)

/-- What holds between two starts: some number of lines is installed. -/
structure Reached (base : Packages) (zone : String × Section) (count : ℕ) (packages : Packages) : Prop where
  network : ∃ old : Config, packages.network = base.network ++ old ∧ old.map Prod.fst = (List.range' 0 count).map (xwanKey 3)
  found : ∃ s, (remove greKey packages.firewall).find? (fun entry => isWanZone entry.2) = some (zone.1, s) ∧
    networks glob s = networks glob zone.2 ++ xwans 0 count
  zones : ∀ names, zonesWith names (remove greKey packages.firewall) = zonesWith names (remove greKey base.firewall)
  mwan3 : deleteLines packages.mwan3 = deleteLines base.mwan3

end Installed

/-! ## The zone -/

section Zone

variable {glob : Text → List Text} (keeps : KeepsNames glob) {others : List Text} (names : ∀ nw ∈ others, IsName nw ∧ ∀ n, nw ≠ xwanName 3 n)

theorem xwans_succ (count : ℕ) : xwans 0 (count + 1) = xwans 0 count ++ [xwanName 3 count] := by
  rw [xwans, xwans, List.range'_1_concat, List.map_append, List.map_singleton, Nat.zero_add]

theorem mem_xwans {count n : ℕ} : xwanName 3 n ∈ xwans 0 count ↔ n < count := by
  rw [xwans, List.mem_map_of_injective (xwanName_injective 3), List.mem_range'_1]
  omega

theorem isName_of_mem_xwans {count : ℕ} {nw : Text} (member : nw ∈ xwans 0 count) : IsName nw := by
  obtain ⟨n, -, rfl⟩ := List.mem_map.mp member
  exact isName_xwanName 3 n

include names in
theorem isName_of_mem_append {count : ℕ} {nw : Text} (member : nw ∈ others ++ xwans 0 count) : IsName nw :=
  (List.mem_append.mp member).elim (fun other => (names nw other).1) isName_of_mem_xwans

include names in
/-- The interfaces that are not there yet are added. -/
theorem withInterfaces_xwans (before count : ℕ) : withInterfaces (xwans 0 count) (others ++ xwans 0 before) = others ++ xwans 0 (max before count) := by
  induction count with
  | zero =>
      rw [Nat.max_zero]
      rfl
  | succ count ih =>
      have present : xwanName 3 count ∈ others ++ xwans 0 (max before count) ↔ count < before := by
        rw [List.mem_append, mem_xwans]
        refine ⟨fun either => either.elim (fun other => absurd rfl ((names _ other).2 count)) fun less => by omega, fun less => .inr (by omega)⟩
      rw [xwans_succ, withInterfaces, List.foldl_concat, ← withInterfaces, ih]
      split
      next more => rw [Nat.max_eq_left (present.mp more).le, Nat.max_eq_left (present.mp more)]
      next new =>
        have fewer := not_lt.mp (mt present.mpr new)
        rw [Nat.max_eq_right fewer, Nat.max_eq_right (fewer.trans (Nat.le_succ count)), xwans_succ, List.append_assoc]

include names in
/-- The clean-up keeps the other networks and the interfaces below the number. -/
theorem filter_isExcess {count more : ℕ} (fewer : count ≤ more) (short : more ≤ 1000) :
    ((others ++ xwans 0 more).filter fun nw => !isExcess 3 count nw) = others ++ xwans 0 count := by
  have kept : (others.filter fun nw => !isExcess 3 count nw) = others := by
    refine List.filter_eq_self.mpr fun nw member => ?_
    rw [isExcess_of_other (names nw member).1 (names nw member).2, Bool.not_false]
  have below : ((xwans 0 count).filter fun nw => !isExcess 3 count nw) = xwans 0 count := by
    refine List.filter_eq_self.mpr fun nw member => ?_
    obtain ⟨n, inside, rfl⟩ := List.mem_map.mp member
    rw [List.mem_range'_1] at inside
    rw [isExcess_of_lt 3 (by omega), Bool.not_false]
  have above : ((xwans count (more - count)).filter fun nw => !isExcess 3 count nw) = [] := by
    refine List.filter_eq_nil_iff.mpr fun nw member => ?_
    obtain ⟨n, inside, rfl⟩ := List.mem_map.mp member
    rw [List.mem_range'_1] at inside
    rw [isExcess_xwanName (by omega) (by decide), decide_eq_true inside.1]
    exact Bool.false_ne_true
  have split : xwans 0 more = xwans 0 count ++ xwans count (more - count) := by
    have ranges := @List.range'_append_1 0 count (more - count)
    rw [Nat.zero_add, Nat.add_sub_of_le fewer] at ranges
    rw [xwans, xwans, xwans, ← ranges, List.map_append]
  rw [List.filter_append, kept, split, List.filter_append, below, above, List.append_nil]

include keeps names in
/-- What a start does to the zone. -/
theorem cleanZoneWan_foldl {s : Section} {before count : ℕ} (here : networks glob s = others ++ xwans 0 before) (few : before < 1000)
    (short : count < 1000) :
    cleanZoneWan glob 3 count ((xwans 0 count).foldl (fun s intf => addToZoneWan glob intf s) s) = withNetworks s (others ++ xwans 0 count) := by
  have plain : ∀ nw ∈ networks glob s, IsPlain glob nw := by
    rw [here]
    exact fun nw member => isPlain_of_isName keeps (isName_of_mem_append names member)
  have added := networks_foldl (fun intf member => isPlain_of_isName keeps (@isName_of_mem_xwans count intf member)) plain
  rw [cleanZoneWan_eq, withNetworks_foldl, added, here, withInterfaces_xwans names, filter_isExcess names (le_max_right ..) (by omega)]

end Zone

/-! ## The interfaces -/

theorem has_of_mem {config : Config} {entry : String × Section} (member : entry ∈ config) : config.has entry.1 = true := by
  rw [Config.has, Option.isSome_iff_ne_none]
  intro missing
  exact bne_iff_ne.mp (List.lookup_eq_none_iff.mp missing entry member) rfl

theorem mem_xwanKeys {count : ℕ} {key : String} : key ∈ (List.range' 0 count).map (xwanKey 3) ↔ ∃ i < count, key = xwanKey 3 i := by
  simp only [List.mem_map, List.mem_range'_1, Nat.zero_le, true_and, Nat.zero_add, eq_comm]

/-- The interfaces of the lines replace those of earlier ones; what is left of these is deleted. -/
theorem cleanNetwork_lines {base old new : Config} {before count : ℕ} (untouched : ∀ n, hasNumbered 3 base n = false)
    (oldKeys : old.map Prod.fst = (List.range' 0 before).map (xwanKey 3)) (newKeys : new.map Prod.fst = (List.range' 0 count).map (xwanKey 3)) :
    cleanNetwork 3 count (((base ++ old).filter fun entry => entry.1 ∉ (List.range' 0 count).map (xwanKey 3)) ++ new) = base ++ new := by
  obtain ⟨stop, behind, free, -, result⟩ :=
    cleanNetwork_spec 3 count (((base ++ old).filter fun entry => entry.1 ∉ (List.range' 0 count).map (xwanKey 3)) ++ new)
  have foreign : ∀ entry ∈ base, ∀ n, entry.1 ≠ deviceKey 3 n ∧ entry.1 ≠ xwanKey 3 n := by
    intro entry member n
    have none := untouched n
    rw [hasNumbered, Bool.or_eq_false_iff] at none
    refine ⟨fun same => ?_, fun same => ?_⟩
    · exact Bool.false_ne_true (none.1.symm.trans (same ▸ has_of_mem member))
    · exact Bool.false_ne_true (none.2.symm.trans (same ▸ has_of_mem member))
  have number : ∀ entry ∈ old, ∃ i < before, entry.1 = xwanKey 3 i := fun entry member =>
    mem_xwanKeys.mp (oldKeys ▸ List.mem_map_of_mem member)
  -- the loop goes at least as far as there are old lines
  have reaches : before ≤ stop := by
    by_contra early
    obtain ⟨entry, member, key⟩ : ∃ entry ∈ old, entry.1 = xwanKey 3 stop :=
      List.mem_map.mp (oldKeys ▸ mem_xwanKeys.mpr ⟨stop, not_le.mp early, rfl⟩)
    have kept : entry.1 ∉ (List.range' 0 count).map (xwanKey 3) := by
      intro low
      obtain ⟨i, small, same⟩ := mem_xwanKeys.mp low
      have equal := xwanKey_injective 3 (key.symm.trans same)
      omega
    have inside : entry ∈ (base ++ old).filter fun entry => entry.1 ∉ (List.range' 0 count).map (xwanKey 3) :=
      List.mem_filter.mpr ⟨List.mem_append_right base member, decide_eq_true kept⟩
    have there := has_of_mem (List.mem_append_left new inside)
    rw [hasNumbered, Bool.or_eq_false_iff, ← key] at free
    exact Bool.false_ne_true (free.2.symm.trans there)
  have baseKept : (base.filter fun entry => entry.1 ∉ numberedKeys 3 count stop && entry.1 ∉ (List.range' 0 count).map (xwanKey 3)) = base := by
    refine List.filter_eq_self.mpr fun entry member => Bool.and_eq_true_iff.mpr ⟨decide_eq_true ?_, decide_eq_true ?_⟩
    · rw [mem_numberedKeys]
      rintro ⟨i, -, -, device | xwan⟩
      · exact (foreign entry member i).1 device
      · exact (foreign entry member i).2 xwan
    · rw [mem_xwanKeys]
      rintro ⟨i, -, xwan⟩
      exact (foreign entry member i).2 xwan
  have oldGone : (old.filter fun entry => entry.1 ∉ numberedKeys 3 count stop && entry.1 ∉ (List.range' 0 count).map (xwanKey 3)) = [] := by
    refine List.filter_eq_nil_iff.mpr fun entry member kept => ?_
    obtain ⟨high, low⟩ := Bool.and_eq_true_iff.mp kept
    obtain ⟨i, small, key⟩ := number entry member
    rcases Nat.lt_or_ge i count with below | above
    · exact of_decide_eq_true low (mem_xwanKeys.mpr ⟨i, below, key⟩)
    · exact of_decide_eq_true high (mem_numberedKeys.mpr ⟨i, above, small.trans_le reaches, .inr key⟩)
  have newKept : (new.filter fun entry => entry.1 ∉ numberedKeys 3 count stop) = new := by
    refine List.filter_eq_self.mpr fun entry member => decide_eq_true ?_
    obtain ⟨i, below, key⟩ := mem_xwanKeys.mp (newKeys ▸ List.mem_map_of_mem member)
    rw [mem_numberedKeys, key]
    rintro ⟨j, above, -, device | xwan⟩
    · exact deviceKey_ne_xwanKey 3 j i device.symm
    · have equal := xwanKey_injective 3 xwan
      omega
  rw [result, List.filter_append, List.filter_filter, List.filter_append, baseKept, oldGone, newKept, List.append_nil]

/-! ## One start -/

section Start

variable {glob : Text → List Text} (keeps : KeepsNames glob) {base : Packages} {zone : String × Section} (untouched : Untouched base zone)

theorem keys_networkLines (pptp : Options) (n : ℕ) (entries : List (Options × Text × Text)) :
    (networkLines pptp n entries).map Prod.fst = (List.range' n entries.length).map (xwanKey 3) := by
  induction entries generalizing n with
  | nil => rfl
  | cons entry entries ih =>
      rw [networkLines, List.zipIdx_cons, List.map_cons, List.map_cons, List.length_cons, List.range'_succ, List.map_cons]
      exact congrArg _ (ih (n + 1))

theorem deleteLines_eq (mwan3 : Config) : deleteLines mwan3 = mwan3.filter fun entry => entry.2.type ∉ lineTypes := by
  rw [deleteLines, Config.deleteType, Config.deleteType, Config.deleteType, Config.deleteType, List.filter_filter, List.filter_filter,
    List.filter_filter]
  refine List.filter_congr fun entry _ => ?_
  simp [lineTypes, Bool.and_comm]

theorem type_of_mem_mwan3Lines {pptp : Options} {n : ℕ} {entries : List (Options × Text × Text)} {entry : String × Section}
    (member : entry ∈ mwan3Lines glob pptp n entries) : entry.2.type ∈ lineTypes := by
  obtain ⟨line, -, inside⟩ := List.mem_flatMap.mp member
  simp only [lineMwan3, List.mem_cons, List.not_mem_nil, or_false] at inside
  rcases inside with rfl | rfl | rfl | rfl
  · exact .head _
  · exact .tail _ (.head _)
  · exact .tail _ (.tail _ (.head _))
  · exact .tail _ (.tail _ (.tail _ (.head _)))

theorem length_of_mapM {α β : Type} {f : α → Option β} {list : List α} {results : List β} (done : list.mapM f = some results) :
    results.length = list.length := by
  induction list generalizing results with
  | nil =>
      rw [List.mapM_nil] at done
      rw [← Option.some.inj done]
      rfl
  | cons item list ih =>
      rw [List.mapM_cons, Option.bind_eq_bind, Option.bind_eq_some_iff] at done
      obtain ⟨result, -, done⟩ := done
      rw [Option.bind_eq_bind, Option.bind_eq_some_iff] at done
      obtain ⟨rest, others, done⟩ := done
      rw [← Option.some.inj done, List.length_cons, List.length_cons, ih others]

/-- The section for GRE is left out of the firewall, whatever is done to the zone. -/
theorem remove_greKey (change : Section → Section) (firewall : Config) :
    remove greKey (Config.editFirst isWanZone change (remove greKey firewall)) = Config.editFirst isWanZone change (remove greKey firewall) := by
  refine List.filter_eq_self.mpr fun entry member => ?_
  have key : entry.1 ∈ (remove greKey firewall).map Prod.fst := by
    rw [← Config.map_fst_editFirst change]
    exact List.mem_map_of_mem member
  obtain ⟨other, inside, same⟩ := List.mem_map.mp key
  rw [← same]
  exact (List.mem_filter.mp inside).2

include keeps untouched in
theorem networks_zone : ∀ nw ∈ networks glob zone.2, IsName nw ∧ ∀ n, nw ≠ xwanName 3 n := by
  rw [networks, flatMap_glob fun nw member => isPlain_of_isName keeps (untouched.names nw member).1]
  exact untouched.names

include untouched in
theorem reached_base : Reached glob base zone 0 base := by
  have wan : (remove greKey base.firewall).filter (fun entry => isWanZone entry.2) = [zone] := by
    rw [remove, List.filter_filter]
    have order : base.firewall.filter (fun entry => isWanZone entry.2 && entry.1 ≠ greKey) =
        (base.firewall.filter fun entry => isWanZone entry.2).filter fun entry => entry.1 ≠ greKey := by
      rw [List.filter_filter]
      exact List.filter_congr fun entry _ => Bool.and_comm ..
    rw [order, untouched.wan]
    exact List.filter_cons_of_pos (decide_eq_true untouched.zoneKey)
  refine ⟨⟨[], (List.append_nil _).symm, rfl⟩, ⟨zone.2, ?_, (List.append_nil _).symm⟩, fun _ => rfl, rfl⟩
  rw [← List.head?_filter, wan]
  rfl

/-- The packages when the first line is added. -/
def cleared (packages : Packages) : Packages :=
  { packages with mwan3 := deleteLines packages.mwan3, firewall := packages.firewall.deleteSection greKey }

include untouched in
theorem mwan3_cleared {before : ℕ} {packages : Packages} (reached : Reached glob base zone before packages) (pptp : Options)
    (entries : List (Options × Text × Text)) :
    (addNumbered glob pptp 0 entries (cleared packages)).mwan3 = deleteLines base.mwan3 ++ mwan3Lines glob pptp 0 entries := by
  have missing : ∀ i, 0 ≤ i → ∀ key ∈ lineKeys i, (cleared packages).mwan3.lookup key = none := by
    intro i _ key member
    refine List.lookup_eq_none_iff.mpr fun entry inside => bne_iff_ne.mpr fun same => ?_
    rw [cleared, reached.mwan3, deleteLines_eq, List.mem_filter, decide_eq_true_eq] at inside
    exact untouched.mwan3 entry inside.1 inside.2 i (same ▸ member)
  rw [mwan3_addNumbered glob pptp 0 entries missing, cleared, reached.mwan3]

include untouched in
theorem network_cleared {before : ℕ} {packages : Packages} (reached : Reached glob base zone before packages) (pptp : Options)
    (entries : List (Options × Text × Text)) :
    cleanNetwork 3 entries.length (addNumbered glob pptp 0 entries (cleared packages)).network = base.network ++ networkLines pptp 0 entries := by
  obtain ⟨old, whole, oldKeys⟩ := reached.network
  rw [network_addNumbered, cleared, whole]
  exact cleanNetwork_lines untouched.network oldKeys (keys_networkLines pptp 0 entries)

include keeps untouched in
theorem firewall_cleared {before : ℕ} (few : before < 1000) {packages : Packages} (reached : Reached glob base zone before packages) (pptp : Options)
    {entries : List (Options × Text × Text)} (short : entries.length < 1000) :
    Config.editFirst isWanZone (cleanZoneWan glob 3 entries.length)
        (((addNumbered glob pptp 0 entries (cleared packages)).firewall.deleteSection greKey).create greKey ruleType fun s => s.setAll greOptions) =
      zonesWith (networks glob zone.2 ++ xwans 0 entries.length) (base.firewall.deleteSection greKey) ++ [(greKey, ⟨ruleType, stored greOptions⟩)] := by
  obtain ⟨s, found, here⟩ := reached.found
  have keepsAdd : ∀ s, isWanZone s = true → isWanZone ((xwans 0 entries.length).foldl (fun s intf => addToZoneWan glob intf s) s) = true :=
    fun s wan => (isWanZone_foldl _ s).trans wan
  rw [firewall_addNumbered, cleared, Config.deleteSection, Config.deleteSection, remove_greKey]
  rw [Config.create_of_missing, Section.setAll_new (by decide), Config.editFirst_concat (by decide), Config.editFirst_editFirst keepsAdd]
  · congr 1
    refine Eq.trans ?_ (reached.zones (networks glob zone.2 ++ xwans 0 entries.length))
    refine Config.editFirst_congr fun entry member => ?_
    rw [Option.mem_def, found, Option.some.injEq] at member
    rw [← member]
    exact cleanZoneWan_foldl keeps (networks_zone keeps untouched) here few short
  · rw [← remove_greKey]
    exact lookup_remove_self ..

include keeps untouched in
/-- A start leaves the lines of its configuration. -/
theorem start_eq {before : ℕ} (few : before < 1000) {packages : Packages} (reached : Reached glob base zone before packages) {config : PptpxwanConfig}
    (enabled : gotOrZero config.pptp "enable" = "1".toList) (short : config.lines.length < 1000) (fuel : ℕ) :
    start glob fuel config packages = (config.lines.mapM (lineNets fuel)).map (installed glob base zone config) := by
  rw [start, if_neg (not_not.mpr enabled)]
  simp only [addLines_eq]
  cases done : config.lines.mapM (lineNets fuel) with
  | none => rfl
  | some nets =>
      have length : (config.lines.zip nets).length = config.lines.length := by
        rw [List.length_zip, length_of_mapM done, Nat.min_self]
      have network := network_cleared untouched reached config.pptp (config.lines.zip nets)
      have firewall := firewall_cleared keeps untouched few reached config.pptp (length.trans_lt short)
      have mwan3 := mwan3_cleared untouched reached config.pptp (config.lines.zip nets)
      rw [length] at network firewall
      have whole : installed glob base zone config nets = ⟨base.network ++ networkLines config.pptp 0 (config.lines.zip nets),
        zonesWith (networks glob zone.2 ++ xwans 0 config.lines.length) (base.firewall.deleteSection greKey) ++ [(greKey, ⟨ruleType, stored greOptions⟩)],
        deleteLines base.mwan3 ++ mwan3Lines glob config.pptp 0 (config.lines.zip nets)⟩ := rfl
      refine Eq.trans ?_ (congrArg some whole.symm)
      rw [← network, ← firewall, ← mwan3]
      rfl

theorem remove_greKey_installed (config : PptpxwanConfig) (nets : List (Text × Text)) :
    remove greKey (installed glob base zone config nets).firewall =
      zonesWith (networks glob zone.2 ++ xwans 0 config.lines.length) (remove greKey base.firewall) := by
  have gone : remove greKey ([(greKey, ⟨ruleType, stored greOptions⟩)] : Config) = [] := by
    rw [remove]
    exact List.filter_cons_of_neg (by simp)
  rw [installed, zonesWith, remove, List.filter_append, ← remove, ← remove, gone, List.append_nil]
  exact remove_greKey _ base.firewall

include keeps untouched in
theorem reached_installed {config : PptpxwanConfig} {nets : List (Text × Text)}
    (length : nets.length = config.lines.length) : Reached glob base zone config.lines.length (installed glob base zone config nets) := by
  have lines : (config.lines.zip nets).length = config.lines.length := by rw [List.length_zip, length, Nat.min_self]
  obtain ⟨s, found, -⟩ := (@reached_base glob base zone untouched).found
  have wan : ∀ names s, isWanZone s = true → isWanZone (withNetworks s names) = true := fun names s wan => (isWanZone_withNetworks s names).trans wan
  have firewall := @remove_greKey_installed glob base zone config nets
  refine ⟨⟨_, rfl, ?_⟩, ⟨withNetworks s (networks glob zone.2 ++ xwans 0 config.lines.length), ?_, ?_⟩, fun names => ?_, ?_⟩
  · rw [keys_networkLines, lines]
  · rw [firewall, zonesWith, Config.find?_editFirst (wan _), found]
    rfl
  · exact networks_withNetworks (fun nw member => isPlain_of_isName keeps (isName_of_mem_append (networks_zone keeps untouched) member)) s
  · rw [firewall, zonesWith, zonesWith, Config.editFirst_editFirst (wan _)]
    exact congrArg (fun change => Config.editFirst isWanZone change _) (funext fun s => withNetworks_withNetworks s _ names)
  · have own : ((mwan3Lines glob config.pptp 0 (config.lines.zip nets)).filter fun entry => entry.2.type ∉ lineTypes) = [] :=
      List.filter_eq_nil_iff.mpr fun entry member kept => of_decide_eq_true kept (type_of_mem_mwan3Lines member)
    rw [installed, deleteLines_eq, deleteLines_eq, List.filter_append, own, List.append_nil, List.filter_filter]
    exact List.filter_congr fun entry _ => Bool.and_self _

end Start

/-! ## Every sequence of starts -/

section Starts

variable {glob : Text → List Text} (keeps : KeepsNames glob) {base : Packages} {zone : String × Section} (untouched : Untouched base zone)

/-- The configurations that are meant: enabled, and with numbers of three digits. -/
def Numbered (config : PptpxwanConfig) : Prop := gotOrZero config.pptp "enable" = "1".toList ∧ config.lines.length < 1000

theorem mapM_isSome_iff {α β : Type} (f : α → Option β) (list : List α) : (list.mapM f).isSome = true ↔ ∀ item ∈ list, (f item).isSome = true := by
  induction list with
  | nil => simp
  | cons item list ih =>
      rw [List.mapM_cons, List.forall_mem_cons, ← ih]
      cases f item with
      | none => simp
      | some result =>
          cases list.mapM f with
          | none => simp
          | some rest => simp

include keeps untouched in
/-- A sequence of starts ends when all conversions do. -/
theorem starts_isSome_iff (fuel : ℕ) {configs : List PptpxwanConfig} (numbered : ∀ config ∈ configs, Numbered config) {before : ℕ} (few : before < 1000)
    {packages : Packages} (reached : Reached glob base zone before packages) :
    (starts glob fuel configs packages).isSome = true ↔ ∀ config ∈ configs, ∀ line ∈ config.lines, (lineNets fuel line).isSome = true := by
  induction configs generalizing before packages with
  | nil => simp [starts]
  | cons config configs ih =>
      rw [List.forall_mem_cons] at numbered
      rw [List.forall_mem_cons, ← mapM_isSome_iff, starts, start_eq keeps untouched few reached numbered.1.1 numbered.1.2]
      cases done : config.lines.mapM (lineNets fuel) with
      | none => simp
      | some nets =>
          have rest := ih numbered.2 numbered.1.2 (reached_installed keeps untouched (length_of_mapM done))
          rw [Option.map_some, Option.bind_eq_bind, Option.bind_some, rest]
          simp

include keeps untouched in
theorem reached_starts {fuel : ℕ} {configs : List PptpxwanConfig} (numbered : ∀ config ∈ configs, Numbered config) {before : ℕ} (few : before < 1000)
    {packages : Packages} (reached : Reached glob base zone before packages) {after : Packages} (done : starts glob fuel configs packages = some after) :
    ∃ count < 1000, Reached glob base zone count after := by
  induction configs generalizing before packages with
  | nil =>
      rw [starts, Option.some.injEq] at done
      exact ⟨before, few, done ▸ reached⟩
  | cons config configs ih =>
      rw [List.forall_mem_cons] at numbered
      rw [starts, start_eq keeps untouched few reached numbered.1.1 numbered.1.2, Option.bind_eq_bind, Option.bind_eq_some_iff] at done
      obtain ⟨middle, first, done⟩ := done
      obtain ⟨nets, conversions, rfl⟩ := Option.map_eq_some_iff.mp first
      exact ih numbered.2 numbered.1.2 (reached_installed keeps untouched (length_of_mapM conversions)) done

theorem starts_concat (fuel : ℕ) (configs : List PptpxwanConfig) (last : PptpxwanConfig) (packages : Packages) :
    starts glob fuel (configs ++ [last]) packages = (starts glob fuel configs packages).bind (start glob fuel last) := by
  induction configs generalizing packages with
  | nil => simp [starts]
  | cons config configs ih =>
      rw [List.cons_append, starts, starts]
      cases start glob fuel config packages with
      | none => rfl
      | some middle => exact ih middle

/-- After any sequence of starts the lines of the last configuration are installed, and nothing else of any
configuration; what comes out depends on this configuration alone. -/
theorem starts_installed {fuel : ℕ} {earlier : List PptpxwanConfig} {last : PptpxwanConfig} (keeps : KeepsNames glob) (untouched : Untouched base zone)
    (numbered : ∀ config ∈ earlier ++ [last], Numbered config) :
    ((starts glob fuel (earlier ++ [last]) base).isSome = true ↔
      ∀ config ∈ earlier ++ [last], ∀ line ∈ config.lines, (lineNets fuel line).isSome = true) ∧
    ∀ after, starts glob fuel (earlier ++ [last]) base = some after →
      ∃ nets, last.lines.mapM (lineNets fuel) = some nets ∧ after = installed glob base zone last nets ∧
        after.network = base.network ++ networkLines last.pptp 0 (last.lines.zip nets) ∧
        (∃ s, (after.firewall.find? fun entry => isWanZone entry.2) = some (zone.1, s) ∧
          networks glob s = networks glob zone.2 ++ xwans 0 last.lines.length ∧
          ∀ n, (networks glob s).count (xwanName 3 n) = if n < last.lines.length then 1 else 0) ∧
        (after.mwan3.filter fun entry => entry.2.type ∈ lineTypes) = mwan3Lines glob last.pptp 0 (last.lines.zip nets) ∧
        (after.mwan3.filter fun entry => entry.2.type ∉ lineTypes) = base.mwan3.filter fun entry => entry.2.type ∉ lineTypes := by
  refine ⟨starts_isSome_iff keeps untouched fuel numbered (by decide) (reached_base untouched), fun after done => ?_⟩
  rw [List.forall_mem_append, List.forall_mem_singleton] at numbered
  rw [starts_concat, Option.bind_eq_some_iff] at done
  obtain ⟨middle, first, done⟩ := done
  obtain ⟨count, few, reached⟩ := reached_starts keeps untouched numbered.1 (by decide) (reached_base untouched) first
  rw [start_eq keeps untouched few reached numbered.2.1 numbered.2.2] at done
  obtain ⟨nets, conversions, rfl⟩ := Option.map_eq_some_iff.mp done
  have final := reached_installed keeps untouched (length_of_mapM conversions)
  obtain ⟨s, found, here⟩ := final.found
  refine ⟨nets, conversions, rfl, rfl, ⟨s, ?_, here, fun n => ?_⟩, ?_, ?_⟩
  · rw [remove_greKey_installed] at found
    rw [installed]
    exact (List.find?_append ..).trans (congrArg (Option.or · _) found)
  · rw [here, List.count_append, List.count_eq_zero.mpr fun other => (networks_zone keeps untouched _ other).2 n rfl, Nat.zero_add]
    have nodup : (xwans 0 last.lines.length).Nodup := (List.nodup_range' ..).map (xwanName_injective 3)
    split
    next below => exact List.count_eq_one_of_mem nodup (mem_xwans.mpr below)
    next above => exact List.count_eq_zero.mpr (mt mem_xwans.mp above)
  · have own : ((mwan3Lines glob last.pptp 0 (last.lines.zip nets)).filter fun entry => entry.2.type ∈ lineTypes) =
        mwan3Lines glob last.pptp 0 (last.lines.zip nets) :=
      List.filter_eq_self.mpr fun entry member => decide_eq_true (type_of_mem_mwan3Lines member)
    have none : ((deleteLines base.mwan3).filter fun entry => entry.2.type ∈ lineTypes) = [] := by
      rw [deleteLines_eq]
      exact List.filter_eq_nil_iff.mpr fun entry member kept => of_decide_eq_true (List.mem_filter.mp member).2 (of_decide_eq_true kept)
    rw [installed, List.filter_append, none, own, List.nil_append]
  · rw [← deleteLines_eq, ← deleteLines_eq, final.mwan3]

end Starts

def wanZone : String × Section := ("cfg03dc81", ⟨zoneType, [("name", .option "wan".toList), ("network", .option "wan wan6".toList)]⟩)

/-- The packages of a new router. -/
def newRouter : Packages where
  network := [("lan", ⟨interfaceType, [("proto", .option "static".toList)]⟩), ("wan", ⟨interfaceType, [("proto", .option "dhcp".toList)]⟩)]
  firewall := [("cfg02dc81", ⟨zoneType, [("name", .option "lan".toList)]⟩), wanZone]
  mwan3 := [("wan", ⟨interfaceType, [("enabled", .option "1".toList)]⟩)]

def enabledOptions : Options := [("enable", .option "1".toList)]

def someLine : Options := [("src_net", .option "10.0.0.0/8".toList), ("username", .option "user".toList)]

theorem newRouter_untouched : Untouched newRouter wanZone where
  wan := by decide
  zoneKey := by decide
  names := by
    have words : fields (wanZone.2.options.got "network") = ["wan".toList, "wan6".toList] := by decide
    rw [words]
    refine List.forall_mem_cons.mpr ⟨⟨⟨by decide, by decide⟩, fun n same => ?_⟩, List.forall_mem_singleton.mpr ⟨⟨by decide, by decide⟩, fun n same => ?_⟩⟩
    · cases congrArg List.head? same
    · cases congrArg List.head? same
  network := by
    have other : ∀ key : String, key.toList.head? ≠ some 'l' → key.toList.head? ≠ some 'w' → newRouter.network.has key = false := by
      intro key notLan notWan
      rw [Config.has_eq_false_iff, List.lookup_eq_none_iff]
      refine List.forall_mem_cons.mpr ⟨bne_iff_ne.mpr ?_, List.forall_mem_singleton.mpr (bne_iff_ne.mpr ?_)⟩
      · rintro rfl
        exact notLan rfl
      · rintro rfl
        exact notWan rfl
    intro n
    have device : (deviceKey 3 n).toList.head? = some 'd' := by
      rw [deviceKey, String.toList_ofList]
      rfl
    have xwan : (xwanKey 3 n).toList.head? = some 'x' := by
      rw [xwanKey, String.toList_ofList]
      rfl
    rw [hasNumbered, other _ (by simp [device]) (by simp [device]), other _ (by simp [xwan]) (by simp [xwan])]
    rfl
  mwan3 := List.forall_mem_singleton.mpr fun other => absurd (.head _) other

/-- Two lines, then one. -/
theorem starts_installed_newRouter :
    ∃ after, starts (fun word => [word]) 8 ([⟨enabledOptions, [someLine, someLine]⟩] ++ [⟨enabledOptions, [someLine]⟩]) newRouter = some after ∧
      ∃ s, (after.firewall.find? fun entry => isWanZone entry.2) = some ("cfg03dc81", s) ∧
        networks (fun word => [word]) s = ["wan".toList, "wan6".toList, "xwan000".toList] := by
  have numbered : ∀ config ∈ [⟨enabledOptions, [someLine, someLine]⟩] ++ [⟨enabledOptions, [someLine]⟩], Numbered config :=
    List.forall_mem_cons.mpr ⟨⟨by decide, by decide⟩, List.forall_mem_singleton.mpr ⟨by decide, by decide⟩⟩
  have result := @starts_installed _ _ _ 8 [⟨enabledOptions, [someLine, someLine]⟩] ⟨enabledOptions, [someLine]⟩ (fun word _ => rfl) newRouter_untouched numbered
  obtain ⟨after, done⟩ := Option.isSome_iff_exists.mp (result.1.mpr (by decide +kernel))
  obtain ⟨nets, -, -, -, ⟨s, found, networks, -⟩, -⟩ := result.2 after done
  exact ⟨after, done, s, found, networks.trans (by decide)⟩

end XWrt.Xwan.Pptpxwan
