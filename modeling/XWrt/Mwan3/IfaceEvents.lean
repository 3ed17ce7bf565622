import XWrt.Mwan3.IfaceChains

/-!
# Interface events

The handler `hotplug.d/iface/15-mwan3` as far as it writes the interface chains
and the ip rules of interfaces. The handler is modelled after a start, when the
file `mmx_mask` and the hook chain are there, and as it runs when the delay for
many interfaces does not put it off. The rules stay exact over all runs when
the mask is spelled as iptables prints it.
-/

namespace XWrt.Mwan3

/-! ## The configuration -/

/-- An interface section with its `enabled` option. -/
structure IfaceSection where
  name : String
  enabled : Bool
  family : FamilyOption
  deriving DecidableEq, Repr

/-- The mwan3 configuration, and whether there is no `ip6tables`. -/
structure IfaceConfig where
  sections : List IfaceSection
  maskText : String
  mask : Nat
  noIpv6 : Bool
  distinct : (sections.map IfaceSection.name).Nodup
  spelled : readMask maskText = some mask
  bound : mask < 2 ^ 32

namespace IfaceConfig

/-- `mwan3_init_post` -/
def need (c : IfaceConfig) (family : Family) : Bool :=
  (c.sections.take (interfaceMax c.mask).toNat).any (fun s => s.enabled && family ∈ s.family.list) &&
    !(family = .ipv6 && c.noIpv6)

/-- What the functions of the handler read. -/
def env (c : IfaceConfig) : Env where
  mask := c.mask
  need := c.need
  ifaces := c.sections.map fun s => ⟨s.name, s.family⟩
  ifaceState := fun _ _ => none

/-- `$MMX_MASK` in a handler: what the start left in the file `mmx_mask`. -/
def text (c : IfaceConfig) : String := trHex c.maskText

/-- `config_get_bool enabled $INTERFACE 'enabled' '0'` -/
def isEnabled (c : IfaceConfig) (name : String) : Bool :=
  c.sections.any fun s => s.name = name && s.enabled

end IfaceConfig

/-! ## ip rules -/

inductive IpAction where
  | iif (device : String) (table : Nat)
  | fwmark (mark mask table : Nat)
  | blackhole (mark mask : Nat)
  | unreachable (mark mask : Nat)
  | lookup (table : String)
  deriving DecidableEq, Repr

structure IpRule where
  pref : Int
  action : IpAction
  deriving DecidableEq, Repr

/-- `ip rule del pref` -/
def delPref (rules : List IpRule) (pref : Int) : List IpRule := rules.eraseP fun rule => rule.pref = pref

/-- The loop over the preferences `id + 1000` and `id + 2000` of `ip rule list`. -/
def delIfacePrefs (id : Nat) (rules : List IpRule) : List IpRule :=
  ((rules.filter fun rule => rule.pref = (id : Int) + 1000 ∨ rule.pref = (id : Int) + 2000).map
    IpRule.pref).foldl delPref rules

/-- `mwan3_create_iface_rules` -/
def createIfaceRules (env : Env) (name device : String) (family : Family) (rules : List IpRule) :
    List IpRule :=
  match env.ifaceId name with
  | none => rules
  | some id =>
      if family ∈ env.familyList name ∧ env.need family then
        delIfacePrefs id rules ++
          [⟨id + 1000, .iif device id⟩, ⟨id + 2000, .fwmark (id2mask id env.mask) env.mask id⟩]
      else rules

/-- `mwan3_delete_iface_rules` -/
def deleteIfaceRules (env : Env) (name : String) (family : Family) (rules : List IpRule) :
    List IpRule :=
  match env.ifaceId name with
  | none => rules
  | some id =>
      if family ∈ env.familyList name ∧ env.need family then delIfacePrefs id rules else rules

/-- One rule of `mwan3_set_general_rules`. -/
def addGeneralRule (rule : IpRule) (rules : List IpRule) : List IpRule :=
  if rules.any fun other => other.pref = rule.pref then rules else rules ++ [rule]

/-- `mwan3_set_general_rules` for one family. -/
def setGeneralRules (env : Env) (family : Family) (rules : List IpRule) : List IpRule :=
  if env.need family then
    let rules := addGeneralRule ⟨mmBlackhole env.mask + 2000,
      .blackhole (id2mask (mmBlackhole env.mask) env.mask) env.mask⟩ rules
    addGeneralRule ⟨mmUnreachable env.mask + 2000,
      .unreachable (id2mask (mmUnreachable env.mask) env.mask) env.mask⟩ rules
  else rules

/-- What `mwan3_set_general_iptables` does to the chains of one family that are modelled. -/
def setGeneralIptables (env : Env) (family : Family) (chains : IfaceChains) : IfaceChains :=
  if env.need family then
    restoreChains chains (if declaresIfacesIn chains.print then [] else [.new ifacesIn])
  else chains

/-! ## The handler -/

/-- The rules of one family. -/
structure FamilyRules where
  chains : IfaceChains
  rules : List IpRule

/-- `mwan3_set_general_rules` and `mwan3_set_general_iptables`. -/
def setGeneral (env : Env) (s : Family → FamilyRules) : Family → FamilyRules := fun family =>
  ⟨setGeneralIptables env family (s family).chains, setGeneralRules env family (s family).rules⟩

inductive IfaceAction where
  | ifup
  | connected
  | ifdown
  | disconnected
  deriving DecidableEq, Repr

def IfaceAction.isUp : IfaceAction → Bool
  | .ifup => true
  | .connected => true
  | .ifdown => false
  | .disconnected => false

/-- The environment of one call of the handler; `startup` is `MWAN3_STARTUP = 1`. -/
structure IfaceEvent where
  action : IfaceAction
  interface : String
  device : String
  family : Option Family
  startup : Bool
  deriving DecidableEq, Repr

/-- `${name%suffix}` where it is not `name`. -/
def stripSuffix (suffix name : String) : Option String :=
  if suffix.toList.isSuffixOf name.toList then
    some (String.ofList (name.toList.take (name.toList.length - suffix.toList.length)))
  else none

/-- An event on `wan_6`, `wan6` or `wan_4` without a section counts for `wan`. -/
def resolveInterface (c : IfaceConfig) (interface : String) (family : Option Family) :
    String × Option Family :=
  let first :=
    if c.isEnabled interface then (interface, family)
    else
      match stripSuffix "_6" interface, stripSuffix "6" interface with
      | some name, _ => (name, some .ipv6)
      | none, some name => (name, some .ipv6)
      | none, none => (interface, family)
  if c.isEnabled first.1 then first
  else
    match stripSuffix "_4" first.1 with
    | some name => (name, some .ipv4)
    | none => first

/-- The body of the family loop. -/
def handleFamily (c : IfaceConfig) (e : IfaceEvent) (interface : String) (s : Family → FamilyRules)
    (family : Family) : Family → FamilyRules :=
  if e.action.isUp then
    let s := if e.startup then s else setGeneral c.env s
    Function.update s family
      ⟨createIfaceIptables c.env c.text interface e.device family (s family).chains,
        createIfaceRules c.env interface e.device family (s family).rules⟩
  else
    Function.update s family
      ⟨deleteIfaceIptables c.env interface family (s family).chains,
        deleteIfaceRules c.env interface family (s family).rules⟩

/-- The handler `15-mwan3`. -/
def handle (c : IfaceConfig) (s : Family → FamilyRules) (e : IfaceEvent) : Family → FamilyRules :=
  if e.action.isUp ∧ e.device = "" then s
  else
    let (interface, family) := resolveInterface c e.interface e.family
    if c.isEnabled interface then
      match c.env.ifaceId interface with
      | none => s
      | some _ =>
          let familys :=
            match family with
            | some family => [family]
            | none => c.env.familyList interface
          familys.foldl (handleFamily c e interface) s
    else s

/-- The interface and the families for which the handler runs its loop. -/
def handledFamilies (c : IfaceConfig) (e : IfaceEvent) : Option (String × List Family) :=
  if e.action.isUp ∧ e.device = "" then none
  else
    let (interface, family) := resolveInterface c e.interface e.family
    if c.isEnabled interface then
      match c.env.ifaceId interface with
      | none => none
      | some _ =>
          match family with
          | some family => some (interface, [family])
          | none => some (interface, c.env.familyList interface)
    else none

theorem handle_eq (c : IfaceConfig) (s : Family → FamilyRules) (e : IfaceEvent) :
    handle c s e =
      match handledFamilies c e with
      | none => s
      | some (interface, families) => families.foldl (handleFamily c e interface) s := by
  unfold handle handledFamilies
  split
  · rfl
  · generalize resolveInterface c e.interface e.family = target
    obtain ⟨interface, family⟩ := target
    simp only
    split
    · cases c.env.ifaceId interface with
      | none => rfl
      | some id => cases family <;> rfl
    · rfl

/-- The rules after a start that has found no interface up. -/
def started (c : IfaceConfig) : Family → FamilyRules :=
  setGeneral c.env fun _ => ⟨∅, [⟨0, .lookup "local"⟩, ⟨32766, .lookup "main"⟩, ⟨32767, .lookup "default"⟩]⟩

/-- The rules after a start and the events that have been handled since it began. -/
def runEvents (c : IfaceConfig) (events : List IfaceEvent) : Family → FamilyRules :=
  events.foldl (handle c) (started c)

/-! ## Exactness -/

/-- The event is one of the interface for the family. -/
def IfaceEvent.concerns (e : IfaceEvent) (name : String) (family : Family) : Bool :=
  e.interface = name && (e.family = none || e.family = some family)

/-- The device of the last event of an interface for a family, where that is `ifup` or
`connected`. -/
def lastDevice (events : List IfaceEvent) (name : String) (family : Family) : Option String :=
  match (events.filter (IfaceEvent.concerns · name family)).getLast? with
  | some e => if e.action.isUp then some e.device else none
  | none => none

/-- The device that a rule matches. -/
def IfaceRule.device : IfaceRule → Option String
  | .jump .. => none
  | .mark device .. => some device

/-- The rules say about an interface what its last event says. -/
structure RulesExact (env : Env) (name : String) (device : Option String) (s : FamilyRules) :
    Prop where
  jumps : ((s.chains.lookup ifacesIn).getD []).countP (IfaceRule.jumpsTo (ifaceChain name)) =
    if device.isSome then 1 else 0
  chain : (s.chains.lookup (ifaceChain name)).map (List.map IfaceRule.device) =
    device.map fun device => [some device]
  inbound : ∀ id ∈ env.ifaceId name, s.rules.filter (fun rule => rule.pref = (id : Int) + 1000) =
    (device.map fun device => ⟨id + 1000, .iif device id⟩).toList
  marked : ∀ id ∈ env.ifaceId name, s.rules.filter (fun rule => rule.pref = (id : Int) + 2000) =
    (device.map fun _ => ⟨id + 2000, .fwmark (id2mask id env.mask) env.mask id⟩).toList

/-- An interface that is enabled and has a family that is needed. -/
def IfaceConfig.Serves (c : IfaceConfig) (name : String) (family : Family) : Prop :=
  c.isEnabled name = true ∧ family ∈ c.env.familyList name ∧ c.need family = true

/-- An event on an enabled interface, with a device where it needs one. -/
def IfaceConfig.Handles (c : IfaceConfig) (e : IfaceEvent) : Prop :=
  c.isEnabled e.interface = true ∧ (e.action.isUp = true → e.device ≠ "")

/-- The text of the mask is the one that `iptables -S` prints. -/
def IfaceConfig.Printed (c : IfaceConfig) : Prop := "0x0/" ++ c.text = printMatch c.mask

/-! ## Lists of ip rules -/

/-- Deleting the listed preferences of a class deletes all rules of the class. -/
theorem foldl_delPref (inClass : Int → Bool) (rules : List IpRule) :
    ((rules.filter fun rule => inClass rule.pref).map IpRule.pref).foldl delPref rules =
      rules.filter fun rule => !inClass rule.pref := by
  have kept : ∀ (rule : IpRule) (prefs : List Int) (rules : List IpRule),
      (∀ pref ∈ prefs, inClass pref = true) → inClass rule.pref = false →
        prefs.foldl delPref (rule :: rules) = rule :: prefs.foldl delPref rules := by
    intro rule prefs
    induction prefs with
    | nil => exact fun _ _ _ => rfl
    | cons pref prefs ih =>
        intro rules listed outside
        rw [List.forall_mem_cons] at listed
        have apart : rule.pref ≠ pref := by
          rintro rfl
          rw [listed.1] at outside
          cases outside
        have skipped : delPref (rule :: rules) pref = rule :: delPref rules pref :=
          List.eraseP_cons_of_neg (by simpa using apart)
        rw [List.foldl_cons, skipped, ih _ listed.2 outside, List.foldl_cons]
  induction rules with
  | nil => rfl
  | cons rule rules ih =>
      by_cases inside : inClass rule.pref = true
      · have first : delPref (rule :: rules) rule.pref = rules :=
          List.eraseP_cons_of_pos (by simp)
        rw [List.filter_cons_of_pos (p := fun rule : IpRule => inClass rule.pref) inside, List.map_cons,
          List.foldl_cons, first, ih, List.filter_cons_of_neg (by simp [inside])]
      · have outside := Bool.not_eq_true _ ▸ inside
        rw [List.filter_cons_of_neg (p := fun rule : IpRule => inClass rule.pref) inside,
          kept rule _ rules ?_ outside, ih, List.filter_cons_of_pos (by simp [outside])]
        intro pref member
        obtain ⟨other, listed, rfl⟩ := List.mem_map.mp member
        exact (List.mem_filter.mp listed).2

theorem delIfacePrefs_eq (id : Nat) (rules : List IpRule) :
    delIfacePrefs id rules =
      rules.filter fun rule => !decide (rule.pref = (id : Int) + 1000 ∨ rule.pref = (id : Int) + 2000) :=
  foldl_delPref (fun pref => decide (pref = (id : Int) + 1000 ∨ pref = (id : Int) + 2000)) rules

theorem filter_delIfacePrefs_self (id : Nat) (rules : List IpRule) {pref : Int}
    (own : pref = id + 1000 ∨ pref = id + 2000) :
    (delIfacePrefs id rules).filter (fun rule => rule.pref = pref) = [] := by
  rw [delIfacePrefs_eq, List.filter_filter, List.filter_eq_nil_iff]
  intro rule _
  rcases own with rfl | rfl <;> simp +contextual

theorem filter_delIfacePrefs_other (id : Nat) (rules : List IpRule) {pref : Int}
    (other : ¬(pref = id + 1000 ∨ pref = id + 2000)) :
    (delIfacePrefs id rules).filter (fun rule => rule.pref = pref) =
      rules.filter fun rule => rule.pref = pref := by
  rw [delIfacePrefs_eq, List.filter_filter]
  refine List.filter_congr fun rule _ => ?_
  by_cases same : rule.pref = pref
  · simp [same, other]
  · simp [same]

/-! ## What a start leaves behind -/

/-- The general rules are there, and the chains hold rules of interfaces only. -/
structure Ready (env : Env) (s : FamilyRules) : Prop where
  chains : ∃ jumps held, Holds env.mask s.chains jumps held
  blackhole : s.rules.any (fun rule => rule.pref = mmBlackhole env.mask + 2000) = true
  unreachable : s.rules.any (fun rule => rule.pref = mmUnreachable env.mask + 2000) = true

/-- Where the general rules are there, setting them changes nothing. -/
theorem setGeneral_ready {env : Env} {s : Family → FamilyRules}
    (ready : ∀ family, env.need family = true → Ready env (s family)) : setGeneral env s = s := by
  funext family
  unfold setGeneral setGeneralIptables setGeneralRules
  by_cases needed : env.need family = true
  · obtain ⟨⟨jumps, held, holds⟩, blackhole, unreachable⟩ := ready family needed
    simp only [if_pos needed, holds.declaresIfacesIn, addGeneralRule, blackhole, unreachable, if_true]
    rfl
  · simp only [if_neg needed]

theorem any_delIfacePrefs {rules : List IpRule} {pref : Int} (added : List IpRule) {id : Nat}
    (outside : ¬(pref = id + 1000 ∨ pref = id + 2000))
    (present : rules.any (fun rule => rule.pref = pref) = true) :
    (delIfacePrefs id rules ++ added).any (fun rule => rule.pref = pref) = true := by
  obtain ⟨rule, member, own⟩ := List.any_eq_true.mp present
  refine List.any_eq_true.mpr ⟨rule, List.mem_append_left _ ?_, own⟩
  rw [delIfacePrefs_eq, List.mem_filter]
  exact ⟨member, by simpa [of_decide_eq_true own] using outside⟩

/-- The preferences of the general rules are none of an interface. -/
theorem general_ne_iface {env : Env} {name : String} {id : Nat} (found : env.ifaceId name = some id) :
    ¬(mmBlackhole env.mask + 2000 = id + 1000 ∨ mmBlackhole env.mask + 2000 = id + 2000) ∧
      ¬(mmUnreachable env.mask + 2000 = id + 1000 ∨ mmUnreachable env.mask + 2000 = id + 2000) := by
  obtain ⟨positive, small⟩ := ifaceId_bounds found
  unfold mmBlackhole mmUnreachable
  constructor <;> omega

/-- What one turn of the family loop does to the rules of its family. -/
def familyTurn (c : IfaceConfig) (e : IfaceEvent) (name : String) (family : Family) (s : FamilyRules) :
    FamilyRules :=
  if e.action.isUp then
    ⟨createIfaceIptables c.env c.text name e.device family s.chains,
      createIfaceRules c.env name e.device family s.rules⟩
  else
    ⟨deleteIfaceIptables c.env name family s.chains, deleteIfaceRules c.env name family s.rules⟩

/-- The rules of one family while the last devices of the interfaces are `devices`. -/
structure RulesTrack (env : Env) (devices : String → Option String) (s : FamilyRules) : Prop where
  chains : ∃ jumps, jumps.Nodup ∧ (∀ name, name ∈ jumps ↔ (env.ifaceId name).isSome ∧ (devices name).isSome) ∧
    Holds env.mask s.chains jumps fun name =>
      (env.ifaceId name).bind fun id => (devices name).map fun device => env.ifaceRule name device id
  inbound : ∀ name, ∀ id ∈ env.ifaceId name,
    s.rules.filter (fun rule => rule.pref = (id : Int) + 1000) =
      ((devices name).map fun device => ⟨id + 1000, .iif device id⟩).toList
  marked : ∀ name, ∀ id ∈ env.ifaceId name,
    s.rules.filter (fun rule => rule.pref = (id : Int) + 2000) =
      ((devices name).map fun _ => ⟨id + 2000, .fwmark (id2mask id env.mask) env.mask id⟩).toList
  blackhole : s.rules.any (fun rule => rule.pref = mmBlackhole env.mask + 2000) = true
  unreachable : s.rules.any (fun rule => rule.pref = mmUnreachable env.mask + 2000) = true

theorem countP_jumpsTo (mask : Nat) (jumps : List String) (name : String) :
    (jumps.map fun name => IfaceRule.jump mask (ifaceChain name)).countP
      (IfaceRule.jumpsTo (ifaceChain name)) = jumps.count name := by
  rw [List.countP_map, List.count]
  refine List.countP_congr fun other _ => ?_
  simp [IfaceRule.jumpsTo, ifaceChain_injective.eq_iff]

namespace RulesTrack

variable {env : Env} {devices : String → Option String} {s : FamilyRules} {name : String} {id : Nat}

theorem ready (tracks : RulesTrack env devices s) : Ready env s := by
  obtain ⟨jumps, -, -, holds⟩ := tracks.chains
  exact ⟨⟨jumps, _, holds⟩, tracks.blackhole, tracks.unreachable⟩

/-- The rules that the devices of the interfaces call for. -/
theorem update_held (found : env.ifaceId name = some id) (device : Option String) :
    (fun other => (env.ifaceId other).bind fun id =>
      (Function.update devices name device other).map fun device => env.ifaceRule other device id) =
      Function.update (fun other => (env.ifaceId other).bind fun id =>
        (devices other).map fun device => env.ifaceRule other device id) name
        (device.map fun device => env.ifaceRule name device id) := by
  funext other
  by_cases same : other = name
  · subst same
    rw [Function.update_self, Function.update_self, found]
    rfl
  · rw [Function.update_of_ne same, Function.update_of_ne same]


theorem ifaceId_le (found : env.ifaceId name = some id) : (id : Int) ≤ 250 := by
  obtain ⟨index, -, bound, rfl⟩ := ifaceId_eq_some.mp found
  refine le_trans (by exact_mod_cast bound) ?_
  unfold interfaceMax interfaceHardMax
  simp only
  split <;> omega

/-- Preferences of different interfaces differ. -/
theorem prefs_apart (found : env.ifaceId name = some id) {other : String} (apart : other ≠ name)
    {id' : Nat} (found' : env.ifaceId other = some id') :
    ¬((id' : Int) + 1000 = id + 1000 ∨ (id' : Int) + 1000 = id + 2000) ∧
      ¬((id' : Int) + 2000 = id + 1000 ∨ (id' : Int) + 2000 = id + 2000) := by
  have differ : id' ≠ id := by
    rintro rfl
    exact apart (ifaceId_injective found' found)
  have first := ifaceId_le found
  have second := ifaceId_le found'
  constructor <;> omega

/-- Replacing the ip rules of one interface. -/
theorem replaceRules (tracks : RulesTrack env devices s) (found : env.ifaceId name = some id)
    (device : Option String) {chains : IfaceChains}
    (chainsTrack : ∃ jumps, jumps.Nodup ∧
      (∀ other, other ∈ jumps ↔
        (env.ifaceId other).isSome ∧ (Function.update devices name device other).isSome) ∧
      Holds env.mask chains jumps fun other =>
        (env.ifaceId other).bind fun id =>
          (Function.update devices name device other).map fun device => env.ifaceRule other device id) :
    RulesTrack env (Function.update devices name device)
      ⟨chains, delIfacePrefs id s.rules ++ (device.map fun device =>
        [⟨id + 1000, .iif device id⟩, ⟨id + 2000, .fwmark (id2mask id env.mask) env.mask id⟩]).getD []⟩ := by
  obtain ⟨blackhole, unreachable⟩ := general_ne_iface found
  refine ⟨chainsTrack, ?_, ?_, any_delIfacePrefs _ blackhole tracks.blackhole,
    any_delIfacePrefs _ unreachable tracks.unreachable⟩
  · intro other id' found'
    by_cases same : other = name
    · subst same
      obtain rfl := Option.some.inj (found.symm.trans found')
      rw [List.filter_append, filter_delIfacePrefs_self _ _ (Or.inl rfl), Function.update_self]
      cases device <;> simp
    · obtain ⟨first, -⟩ := prefs_apart found same found'
      rw [List.filter_append, filter_delIfacePrefs_other _ _ first, Function.update_of_ne same,
        tracks.inbound other id' found']
      rw [not_or] at first
      cases device <;> simp [Ne.symm first.1, Ne.symm first.2]
  · intro other id' found'
    by_cases same : other = name
    · subst same
      obtain rfl := Option.some.inj (found.symm.trans found')
      rw [List.filter_append, filter_delIfacePrefs_self _ _ (Or.inr rfl), Function.update_self]
      cases device <;> simp
    · obtain ⟨-, second⟩ := prefs_apart found same found'
      rw [List.filter_append, filter_delIfacePrefs_other _ _ second, Function.update_of_ne same,
        tracks.marked other id' found']
      rw [not_or] at second
      cases device <;> simp [Ne.symm second.1, Ne.symm second.2]

theorem create (tracks : RulesTrack env devices s) (found : env.ifaceId name = some id)
    {family : Family} (applies : family ∈ env.familyList name ∧ env.need family = true) {text : String}
    (printed : "0x0/" ++ text = printMatch env.mask) (device : String) :
    RulesTrack env (Function.update devices name (some device))
      ⟨createIfaceIptables env text name device family s.chains,
        createIfaceRules env name device family s.rules⟩ := by
  obtain ⟨jumps, once, listed, holds⟩ := tracks.chains
  have written : createIfaceRules env name device family s.rules =
      delIfacePrefs id s.rules ++
        [⟨id + 1000, .iif device id⟩, ⟨id + 2000, .fwmark (id2mask id env.mask) env.mask id⟩] := by
    rw [createIfaceRules, found]
    exact if_pos applies
  rw [written]
  refine tracks.replaceRules found (some device)
    ⟨if name ∈ jumps ∧ "0x0/" ++ text = printMatch env.mask then jumps else jumps ++ [name], ?_, ?_, ?_⟩
  · split
    · exact once
    · rename_i absent
      have fresh : name ∉ jumps := fun member => absent ⟨member, printed⟩
      exact List.nodup_append.mpr ⟨once, List.nodup_singleton name, by
        rintro other member _ last rfl
        exact fresh (List.mem_singleton.mp last ▸ member)⟩
  · intro other
    have added : (other ∈ if name ∈ jumps ∧ "0x0/" ++ text = printMatch env.mask then jumps
        else jumps ++ [name]) ↔ other ∈ jumps ∨ other = name := by
      split
      · rename_i present
        constructor
        · exact Or.inl
        · rintro (member | rfl)
          · exact member
          · exact present.1
      · rw [List.mem_append, List.mem_singleton]
    rw [added, listed]
    by_cases same : other = name
    · rw [same, Function.update_self, found]
      simp
    · rw [Function.update_of_ne same]
      simp [same]
  · rw [update_held found]
    exact createIfaceIptables_holds holds found applies text device

theorem delete (tracks : RulesTrack env devices s) (found : env.ifaceId name = some id)
    {family : Family} (applies : family ∈ env.familyList name ∧ env.need family = true) :
    RulesTrack env (Function.update devices name none)
      ⟨deleteIfaceIptables env name family s.chains, deleteIfaceRules env name family s.rules⟩ := by
  obtain ⟨jumps, once, listed, holds⟩ := tracks.chains
  have written : deleteIfaceRules env name family s.rules = delIfacePrefs id s.rules ++ [] := by
    rw [deleteIfaceRules, found, List.append_nil]
    exact if_pos applies
  rw [written]
  refine tracks.replaceRules found none ⟨jumps.erase name, once.erase name, ?_, ?_⟩
  · intro other
    by_cases same : other = name
    · rw [same, Function.update_self]
      simp [once.not_mem_erase]
    · rw [List.mem_erase_of_ne same, listed, Function.update_of_ne same]
  · rw [update_held found]
    refine deleteIfaceIptables_holds holds applies once ?_
    rw [listed, found]
    simp

/-- The rules that are tracked are exact. -/
theorem exact (tracks : RulesTrack env devices s) (found : env.ifaceId name = some id) :
    RulesExact env name (devices name) s := by
  obtain ⟨jumps, once, listed, holds⟩ := tracks.chains
  refine ⟨?_, ?_, tracks.inbound name, tracks.marked name⟩
  · rw [holds.hook, Option.getD_some, countP_jumpsTo, List.Nodup.count once]
    simp only [listed, found, Option.isSome_some, true_and]
  · rw [holds.chain, found, Option.bind_some, Option.map_map, Option.map_map]
    rfl

end RulesTrack

/-! ## One event -/

section Handle

variable {c : IfaceConfig} {e : IfaceEvent} {s : Family → FamilyRules}

theorem resolveInterface_enabled {name : String} (enabled : c.isEnabled name = true)
    (family : Option Family) : resolveInterface c name family = (name, family) := by
  unfold resolveInterface
  simp only [enabled, if_true]

/-- A turn of the loop works on the rules of its family. -/
theorem handleFamily_ready (ready : ∀ family, c.need family = true → Ready c.env (s family))
    (name : String) (family : Family) :
    handleFamily c e name s family = Function.update s family (familyTurn c e name family (s family)) := by
  have general : (if e.startup then s else setGeneral c.env s) = s := by
    split
    · rfl
    · exact setGeneral_ready ready
  unfold handleFamily familyTurn
  rw [general]
  split <;> rfl

theorem foldl_handleFamily (name : String) {familys : List Family} (once : familys.Nodup)
    (ready : ∀ family, c.need family = true → Ready c.env (s family))
    (turn : ∀ family ∈ familys, c.need family = true →
      Ready c.env (familyTurn c e name family (s family))) :
    familys.foldl (handleFamily c e name) s = fun family =>
      if family ∈ familys then familyTurn c e name family (s family) else s family := by
  induction familys generalizing s with
  | nil => rfl
  | cons first rest ih =>
      obtain ⟨fresh, once⟩ := List.nodup_cons.mp once
      rw [List.foldl_cons, handleFamily_ready ready, ih once]
      · funext family
        by_cases same : family = first
        · simp [same, fresh]
        · simp [same]
      · intro family needed
        by_cases same : family = first
        · rw [same, Function.update_self]
          exact turn first List.mem_cons_self (same ▸ needed)
        · rw [Function.update_of_ne same]
          exact ready family needed
      · intro family member needed
        have other : family ≠ first := fun same => fresh (same ▸ member)
        rw [Function.update_of_ne other]
        exact turn family (List.mem_cons_of_mem first member) needed

/-- The families of an event on an enabled interface. -/
def familysOf (c : IfaceConfig) (e : IfaceEvent) : List Family :=
  match e.family with
  | some family => [family]
  | none => c.env.familyList e.interface

theorem handle_unknown (handles : c.Handles e) (absent : c.env.ifaceId e.interface = none) :
    handle c s e = s := by
  unfold handle
  rw [resolveInterface_enabled handles.1]
  simp only [handles.1, absent, ite_self]

/-- The handler turns the rules of every family of the event. -/
theorem handle_known (handles : c.Handles e) {id : Nat} (found : c.env.ifaceId e.interface = some id)
    (ready : ∀ family, c.need family = true → Ready c.env (s family))
    (turn : ∀ family ∈ familysOf c e, c.need family = true →
      Ready c.env (familyTurn c e e.interface family (s family))) :
    handle c s e = fun family =>
      if family ∈ familysOf c e then familyTurn c e e.interface family (s family) else s family := by
  have device : ¬(e.action.isUp = true ∧ e.device = "") := fun both => handles.2 both.1 both.2
  have once : (familysOf c e).Nodup := by
    unfold familysOf
    split
    · exact List.nodup_singleton _
    · exact c.env.familyList_nodup e.interface
  unfold handle
  rw [if_neg device, resolveInterface_enabled handles.1]
  simp only [handles.1, found, if_true]
  exact foldl_handleFamily e.interface once ready turn

/-- A turn for a family that the interface does not have, or that is not needed, does nothing. -/
theorem familyTurn_idle {family : Family}
    (idle : ¬(family ∈ c.env.familyList e.interface ∧ c.need family = true)) (fr : FamilyRules) :
    familyTurn c e e.interface family fr = fr := by
  have idle' : ¬(family ∈ c.env.familyList e.interface ∧ c.env.need family = true) := idle
  unfold familyTurn createIfaceIptables createIfaceRules deleteIfaceIptables deleteIfaceRules
  simp only [if_neg idle']
  split <;> cases c.env.ifaceId e.interface <;> rfl

end Handle

/-! ## Runs -/

theorem lastDevice_append (events : List IfaceEvent) (e : IfaceEvent) (name : String) (family : Family) :
    lastDevice (events ++ [e]) name family =
      if e.concerns name family then if e.action.isUp then some e.device else none
      else lastDevice events name family := by
  unfold lastDevice
  rw [List.filter_append]
  by_cases concerns : e.concerns name family = true
  · simp [concerns]
  · simp [concerns]

/-- The device that the rules of a family are to show for an interface. -/
def shownDevice (c : IfaceConfig) (events : List IfaceEvent) (family : Family) (name : String) :
    Option String :=
  if family ∈ c.env.familyList name then lastDevice events name family else none

/-- Only the devices of interfaces with an id count. -/
theorem RulesTrack.congr {env : Env} {devices devices' : String → Option String} {s : FamilyRules}
    (tracks : RulesTrack env devices s)
    (same : ∀ name, (env.ifaceId name).isSome → devices name = devices' name) :
    RulesTrack env devices' s := by
  obtain ⟨jumps, once, listed, holds⟩ := tracks.chains
  have held : (fun name => (env.ifaceId name).bind fun id =>
      (devices name).map fun device => env.ifaceRule name device id) =
      fun name => (env.ifaceId name).bind fun id =>
        (devices' name).map fun device => env.ifaceRule name device id := by
    funext name
    cases found : env.ifaceId name with
    | none => rfl
    | some id => rw [same name (by rw [found]; rfl)]
  refine ⟨⟨jumps, once, ?_, held ▸ holds⟩, ?_, ?_, tracks.blackhole, tracks.unreachable⟩
  · intro name
    rw [listed]
    exact and_congr_right fun known => by rw [same name known]
  · intro name id found
    rw [← same name (Option.isSome_of_mem found)]
    exact tracks.inbound name id found
  · intro name id found
    rw [← same name (Option.isSome_of_mem found)]
    exact tracks.marked name id found

theorem any_addGeneralRule_self (rule : IpRule) (rules : List IpRule) :
    (addGeneralRule rule rules).any (fun other => other.pref = rule.pref) = true := by
  unfold addGeneralRule
  split
  · assumption
  · simp

theorem any_addGeneralRule (rule : IpRule) {rules : List IpRule} {pref : Int}
    (present : rules.any (fun other => other.pref = pref) = true) :
    (addGeneralRule rule rules).any (fun other => other.pref = pref) = true := by
  unfold addGeneralRule
  split
  · exact present
  · rw [List.any_append, present, Bool.true_or]

theorem filter_addGeneralRule {rule : IpRule} (rules : List IpRule) {pref : Int}
    (other : rule.pref ≠ pref) :
    (addGeneralRule rule rules).filter (fun rule => rule.pref = pref) =
      rules.filter fun rule => rule.pref = pref := by
  unfold addGeneralRule
  split
  · rfl
  · simp [other]

theorem started_tracks (c : IfaceConfig) {family : Family} (needed : c.need family = true) :
    RulesTrack c.env (shownDevice c [] family) (started c family) := by
  have needed' : c.env.need family = true := needed
  have idle : shownDevice c [] family = fun _ => none := by
    funext name
    exact ite_self none
  have chains : (started c family).chains = AList.insert ifacesIn [] ∅ := by
    unfold started setGeneral setGeneralIptables
    simp only [if_pos needed']
    rfl
  have rules : ∀ pref : Int, mmBlackhole c.mask + 2000 ≠ pref → mmUnreachable c.mask + 2000 ≠ pref →
      0 < pref → pref < 32766 → (started c family).rules.filter (fun rule => rule.pref = pref) = [] := by
    intro pref notBlackhole notUnreachable positive small
    unfold started setGeneral setGeneralRules
    simp only [if_pos needed']
    rw [filter_addGeneralRule _ notUnreachable, filter_addGeneralRule _ notBlackhole,
      List.filter_eq_nil_iff]
    simp only [List.mem_cons, List.not_mem_nil, or_false, decide_eq_true_eq]
    rintro rule (rfl | rfl | rfl) same <;> simp only at same <;> omega
  have unused : ∀ {name : String} {id : Nat}, c.env.ifaceId name = some id →
      (started c family).rules.filter (fun rule => rule.pref = (id : Int) + 1000) = [] ∧
        (started c family).rules.filter (fun rule => rule.pref = (id : Int) + 2000) = [] := by
    intro name id found
    obtain ⟨blackhole, unreachable⟩ := general_ne_iface found
    rw [not_or] at blackhole unreachable
    have small := RulesTrack.ifaceId_le found
    exact ⟨rules _ blackhole.1 unreachable.1 (by omega) (by omega),
      rules _ blackhole.2 unreachable.2 (by omega) (by omega)⟩
  rw [idle]
  refine ⟨⟨[], List.nodup_nil, fun name => by simp, ?_⟩, ?_, ?_, ?_, ?_⟩
  · rw [chains]
    refine ⟨AList.lookup_insert ∅, ?_, ?_, ?_⟩
    · intro name
      rw [AList.lookup_insert_ne (ifaceChain_ne name)]
      cases c.env.ifaceId name <;> rfl
    · intro chain member
      exact (AList.mem_insert ∅).mp member |>.imp id fun absent => absurd absent (AList.notMem_empty chain)
    · intro name rule held
      cases found : c.env.ifaceId name <;> simp [found] at held
  · exact fun name id found => (unused found).1
  · exact fun name id found => (unused found).2
  · unfold started setGeneral setGeneralRules
    simp only [if_pos needed']
    exact any_addGeneralRule _ (any_addGeneralRule_self _ _)
  · unfold started setGeneral setGeneralRules
    simp only [if_pos needed']
    exact any_addGeneralRule_self _ _

/-- An event changes the device of its interface, for the families of both. -/
theorem shownDevice_append (c : IfaceConfig) (events : List IfaceEvent) (e : IfaceEvent)
    (family : Family) :
    shownDevice c (events ++ [e]) family =
      if family ∈ familysOf c e ∧ family ∈ c.env.familyList e.interface then
        Function.update (shownDevice c events family) e.interface
          (if e.action.isUp then some e.device else none)
      else shownDevice c events family := by
  have concerns : family ∈ c.env.familyList e.interface →
      (e.concerns e.interface family = true ↔ family ∈ familysOf c e) := by
    intro own
    unfold IfaceEvent.concerns familysOf
    cases e.family with
    | none => simpa using own
    | some other => simpa using eq_comm
  have kept : ∀ name, e.concerns name family = false →
      shownDevice c (events ++ [e]) family name = shownDevice c events family name := by
    intro name apart
    unfold shownDevice
    rw [lastDevice_append, apart]
    rfl
  have other : ∀ name, name ≠ e.interface → e.concerns name family = false := by
    intro name differ
    simp [IfaceEvent.concerns, Ne.symm differ]
  funext name
  split
  · rename_i both
    by_cases same : name = e.interface
    · rw [same, Function.update_self, shownDevice, if_pos both.2, lastDevice_append,
        if_pos ((concerns both.2).mpr both.1)]
    · rw [Function.update_of_ne same]
      exact kept name (other name same)
  · rename_i idle
    by_cases same : name = e.interface
    · by_cases own : family ∈ c.env.familyList e.interface
      · refine kept name (Bool.eq_false_iff.mpr fun meant => idle ⟨?_, own⟩)
        exact (concerns own).mp (same ▸ meant)
      · rw [same, shownDevice, shownDevice, if_neg own, if_neg own]
    · exact kept name (other name same)

/-- One turn moves the tracked rules on to the new device of the interface. -/
theorem familyTurn_tracks {c : IfaceConfig} (printed : c.Printed) {e : IfaceEvent} {id : Nat}
    (found : c.env.ifaceId e.interface = some id) {family : Family} (needed : c.need family = true)
    (own : family ∈ c.env.familyList e.interface) {devices : String → Option String} {fr : FamilyRules}
    (tracks : RulesTrack c.env devices fr) :
    RulesTrack c.env
      (Function.update devices e.interface (if e.action.isUp then some e.device else none))
      (familyTurn c e e.interface family fr) := by
  unfold familyTurn
  split
  · exact tracks.create found ⟨own, needed⟩ printed e.device
  · exact tracks.delete found ⟨own, needed⟩

/-- One event moves the tracked rules on to the devices after it. -/
theorem handle_tracks {c : IfaceConfig} (printed : c.Printed) {events : List IfaceEvent}
    {e : IfaceEvent} (handles : c.Handles e) {s : Family → FamilyRules}
    (tracks : ∀ family, c.need family = true → RulesTrack c.env (shownDevice c events family) (s family))
    (family : Family) (needed : c.need family = true) :
    RulesTrack c.env (shownDevice c (events ++ [e]) family) (handle c s e family) := by
  have kept := tracks family needed
  rw [shownDevice_append]
  cases found : c.env.ifaceId e.interface with
  | none =>
      rw [handle_unknown handles found]
      refine kept.congr fun name known => ?_
      split
      · rw [Function.update_of_ne]
        rintro rfl
        rw [found] at known
        cases known
      · rfl
  | some id =>
      have turn : ∀ family ∈ familysOf c e, c.need family = true →
          Ready c.env (familyTurn c e e.interface family (s family)) := by
        intro family _ needed
        by_cases own : family ∈ c.env.familyList e.interface
        · exact (familyTurn_tracks printed found needed own (tracks family needed)).ready
        · rw [familyTurn_idle fun both => own both.1]
          exact (tracks family needed).ready
      rw [handle_known handles found (fun family needed => (tracks family needed).ready) turn]
      by_cases touched : family ∈ familysOf c e
      · by_cases own : family ∈ c.env.familyList e.interface
        · rw [if_pos ⟨touched, own⟩]
          simp only [if_pos touched]
          exact familyTurn_tracks printed found needed own kept
        · rw [if_neg fun both => own both.2]
          simp only [if_pos touched]
          rw [familyTurn_idle fun both => own both.1]
          exact kept
      · rw [if_neg fun both => touched both.1]
        simp only [if_neg touched]
        exact kept

theorem runEvents_tracks {c : IfaceConfig} (printed : c.Printed) {events : List IfaceEvent}
    (handled : ∀ e ∈ events, c.Handles e) (family : Family) (needed : c.need family = true) :
    RulesTrack c.env (shownDevice c events family) (runEvents c events family) := by
  induction events using List.reverseRecOn generalizing family with
  | nil => exact started_tracks c needed
  | append_singleton events e ih =>
      have earlier : ∀ e ∈ events, c.Handles e := fun e member =>
        handled e (List.mem_append_left _ member)
      rw [runEvents, List.foldl_append]
      exact handle_tracks printed (handled e (by simp)) (fun family => ih earlier family) family needed

/-! ## Repeated events -/

section Repeat

variable {c : IfaceConfig} {e : IfaceEvent} {id : Nat} {family : Family}

/-- Whatever the text of the mask is, an interface that comes up keeps the rules of a start. -/
theorem familyTurn_ready (up : e.action.isUp = true) (found : c.env.ifaceId e.interface = some id)
    {fr : FamilyRules} (ready : Ready c.env fr) : Ready c.env (familyTurn c e e.interface family fr) := by
  by_cases applies : family ∈ c.env.familyList e.interface ∧ c.env.need family = true
  · obtain ⟨⟨jumps, held, holds⟩, blackhole, unreachable⟩ := ready
    obtain ⟨notBlackhole, notUnreachable⟩ := general_ne_iface found
    unfold familyTurn createIfaceRules
    rw [if_pos up, found]
    simp only [if_pos applies]
    exact ⟨⟨_, _, createIfaceIptables_holds holds found applies c.text e.device⟩,
      any_delIfacePrefs _ notBlackhole blackhole, any_delIfacePrefs _ notUnreachable unreachable⟩
  · rw [familyTurn_idle applies]
    exact ready

/-- Where the mask is not spelled as it is printed, an interface that comes up gets one more
jump. -/
theorem handle_up (printed : ¬c.Printed) (handles : c.Handles e) (up : e.action.isUp = true)
    (found : c.env.ifaceId e.interface = some id) (everyFamily : e.family = none)
    {s : Family → FamilyRules} (ready : ∀ family, c.need family = true → Ready c.env (s family))
    (needed : c.need family = true) (own : family ∈ c.env.familyList e.interface) {jumps : List String}
    {held : String → Option IfaceRule} (holds : Holds c.mask (s family).chains jumps held) :
    (∀ family, c.need family = true → Ready c.env (handle c s e family)) ∧
      ∃ held', Holds c.mask (handle c s e family).chains (jumps ++ [e.interface]) held' := by
  rw [handle_known handles found ready fun family _ needed => familyTurn_ready up found (ready family needed)]
  constructor
  · intro family needed
    by_cases touched : family ∈ familysOf c e
    · simp only [if_pos touched]
      exact familyTurn_ready up found (ready family needed)
    · simp only [if_neg touched]
      exact ready family needed
  · have touched : family ∈ familysOf c e := by
      rw [familysOf, everyFamily]
      exact own
    have written := createIfaceIptables_holds holds found (show _ ∧ c.env.need family = true from ⟨own, needed⟩) c.text e.device
    rw [if_neg fun both => printed both.2] at written
    simp only [if_pos touched, familyTurn, if_pos up]
    exact ⟨_, written⟩

end Repeat

/-- The rules are exact after all runs just when the interfaces that are served are within the
maximum and the mask is spelled as iptables prints it. -/
theorem runEvents_exact_iff (c : IfaceConfig) :
    (∀ events, (∀ e ∈ events, c.Handles e) → ∀ name family, c.Serves name family →
      RulesExact c.env name (lastDevice events name family) (runEvents c events family)) ↔
      ∀ name family, c.Serves name family → (c.env.ifaceId name).isSome ∧ c.Printed := by
  constructor
  · intro exact name family serves
    obtain ⟨enabled, own, needed⟩ := serves
    let up : IfaceEvent := ⟨.ifup, name, "eth0", none, false⟩
    have handles : c.Handles up := ⟨enabled, fun _ => (by decide : "eth0" ≠ "")⟩
    have concerns : up.concerns name family = true := by simp [up, IfaceEvent.concerns]
    have begun : ∀ family, c.need family = true → Ready c.env (started c family) :=
      fun family needed => (started_tracks c needed).ready
    obtain ⟨jumps, once, listed, holds⟩ := (started_tracks c needed).chains
    have fresh : name ∉ jumps := by
      rw [listed, shownDevice]
      simp [lastDevice]
    have known : (c.env.ifaceId name).isSome := by
      by_contra unknown
      have single := (exact [up] (by simp [handles]) name family ⟨enabled, own, needed⟩).jumps
      have same : runEvents c [up] = started c :=
        handle_unknown handles (Option.not_isSome_iff_eq_none.mp unknown)
      rw [same, holds.hook, Option.getD_some, countP_jumpsTo, List.count_eq_zero_of_not_mem fresh,
        ← List.nil_append [up], lastDevice_append, if_pos concerns] at single
      cases single
    refine ⟨known, ?_⟩
    by_contra printed
    obtain ⟨id, found⟩ := Option.isSome_iff_exists.mp known
    have double := (exact ([up] ++ [up]) (by simp [handles]) name family ⟨enabled, own, needed⟩).jumps
    obtain ⟨ready, held, second⟩ := handle_up printed handles rfl found rfl begun needed own holds
    obtain ⟨-, held', third⟩ := handle_up printed handles rfl found rfl ready needed own second
    have reached : runEvents c ([up] ++ [up]) = handle c (handle c (started c) up) up := rfl
    rw [reached, third.hook, Option.getD_some, countP_jumpsTo, lastDevice_append, if_pos concerns,
      List.count_append, List.count_append, List.count_eq_zero_of_not_mem fresh,
      List.count_singleton_self] at double
    cases double
  · intro fits events handled name family serves
    obtain ⟨known, printed⟩ := fits name family serves
    obtain ⟨id, found⟩ := Option.isSome_iff_exists.mp known
    have tracks := (runEvents_tracks printed handled family serves.2.2).exact found
    rw [shownDevice, if_pos serves.2.1] at tracks
    exact tracks

/-- One wan, and the default mask in decimal. -/
def decimalMask : IfaceConfig where
  sections := [⟨"wan", true, .ipv4⟩]
  maskText := "16128"
  mask := 16128
  noIpv6 := false
  distinct := List.nodup_singleton "wan"
  spelled := by decide
  bound := defaultMask_lt

def wanUp : IfaceEvent := ⟨.ifup, "wan", "eth0", none, false⟩

/-- A second `ifup` with a decimal mask adds a second jump. -/
theorem runEvents_repeats_jump :
    (∀ e ∈ [wanUp, wanUp], decimalMask.Handles e) ∧ decimalMask.Serves "wan" .ipv4 ∧
      ¬RulesExact decimalMask.env "wan" (lastDevice [wanUp, wanUp] "wan" .ipv4)
        (runEvents decimalMask [wanUp, wanUp] .ipv4) := by
  refine ⟨?_, ⟨by decide, by decide, by decide +kernel⟩, fun exact => ?_⟩
  · have handles : decimalMask.Handles wanUp := ⟨by decide, by decide⟩
    simpa using handles
  · have jumps : ((runEvents decimalMask [wanUp, wanUp] .ipv4).chains.lookup ifacesIn).getD [] =
        [.jump 16128 "mwan3_iface_in_wan", .jump 16128 "mwan3_iface_in_wan"] := by decide +kernel
    have single := exact.jumps
    rw [jumps] at single
    exact absurd single (by decide)

end XWrt.Mwan3
