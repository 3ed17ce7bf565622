import XWrt.Foundation.Transducer
import XWrt.Mwan3.MarkedRules

/-!
# One mask over a history of commands

`start`, `stop`, `restart` and `firewall_reload` of `usr/sbin/mwan3` with what
they install, while `globals.mmx_mask` is edited between them. A command reads
the mask once, from the file `mmx_mask` or the configuration; the handlers that
it starts for the interfaces read it again, and so do the route monitors that it
leaves behind.
-/

namespace XWrt.Mwan3

open XWrt.Foundation

/-! ## The configuration and the system -/

/-- A mask as it is spelled, with its value. -/
structure Spelling where
  text : String
  mask : Nat
  spelled : readMask text = some mask
  bound : mask < 2 ^ 32

/-- `tr 'A-F' 'a-f'` -/
def Spelling.lower (spelling : Spelling) : Spelling where
  text := trHex spelling.text
  mask := spelling.mask
  spelled := by rw [readMask_trHex, spelling.spelled]
  bound := spelling.bound

/-- The configuration without the mask. -/
structure MaskConfig where
  sections : List IfaceSection
  noIpv6 : Bool
  policies : List Policy
  rules : List UserRule
  distinct : (sections.map IfaceSection.name).Nodup

def MaskConfig.withMask (c : MaskConfig) (spelling : Spelling) : IfaceConfig where
  sections := c.sections
  maskText := spelling.text
  mask := spelling.mask
  noIpv6 := c.noIpv6
  distinct := c.distinct
  spelled := spelling.spelled
  bound := spelling.bound

/-- The mangle table and the ip rules of one family; `parents` says that both jumps to
`mwan3_hook` are there. -/
structure FamilyTables extends FamilyRules where
  marks : MarkTable
  policies : Table
  parents : Bool

structure MaskSystem where
  /-- `globals.mmx_mask` -/
  config : Spelling
  /-- the file `mmx_mask` -/
  file : Option Spelling
  enabled : Bool
  tables : Family → FamilyTables

/-- What a start finds: the devices of the interfaces that are up, the interfaces that have a
device, and the states of the interfaces. -/
structure Uplinks where
  device : String → Family → Option String
  found : String → Bool
  ifaceState : String → Family → Option String

namespace MaskSystem

/-- `$MMX_MASK` after `mwan3_init`; the other constants follow from it. -/
def mmxMask (s : MaskSystem) : Spelling := s.file.getD s.config

/-- The file that `mwan3_init` leaves. -/
def init (s : MaskSystem) : MaskSystem := { s with file := some (s.file.getD s.config.lower) }

end MaskSystem

/-! ## The commands -/

section Commands

variable (c : MaskConfig) (up : Uplinks)

/-- `hotplug_startup`: the handler in a process of its own. -/
def hotplugStartup (name device : String) (family : Family) (s : MaskSystem) : MaskSystem :=
  let config := c.withMask s.mmxMask
  let s := s.init
  if [Family.ipv4, .ipv6].all fun family =>
      !config.need family || ((s.tables family).marks "mwan3_hook").isSome then
    let after := handle config (fun family => (s.tables family).toFamilyRules)
      ⟨.ifup, name, device, some family, true⟩
    { s with tables := fun family => { s.tables family with toFamilyRules := after family } }
  else s

/-- `ifup` with `MWAN3_STARTUP = 1` -/
def ifup (s : MaskSystem) (name : String) : MaskSystem :=
  ((c.withMask s.config).env.familyList name).foldl (fun s family =>
    match up.device name family with
    | none => s
    | some device => if device = "" then s else hotplugStartup c name device family s) s

/-- `mwan3_set_general_rules` and `mwan3_set_general_iptables` -/
def setGeneralTables (env : Env) (s : MaskSystem) : MaskSystem :=
  { s with
    tables := fun family =>
      let t := s.tables family
      { chains := setGeneralIptables env family t.chains
        rules := setGeneralRules env family t.rules
        marks := setGeneralMarks env family t.marks
        policies := t.policies
        parents := t.parents || env.need family } }

/-- `mwan3_set_policies_iptables` and `mwan3_set_user_rules` -/
def setPoliciesAndRules (env : Env) (s : MaskSystem) : MaskSystem :=
  let policies := c.policies.foldl (fun tables policy => createPoliciesIptables env policy tables)
    fun family => (s.tables family).policies
  { s with
    tables := fun family =>
      let t := s.tables family
      let view : RuleView :=
        ⟨c.policies.map Policy.name, up.found, t.chains, t.marks, policies family⟩
      { t with
        marks := setUserRules env c.rules view family
        policies := policies family } }

/-- `start_locked` of a command with a mask and with the `NEED` flags. -/
def startLocked (spelling : Spelling) (need : Family → Bool) (s : MaskSystem) : MaskSystem :=
  let env := { (c.withMask spelling).env with need := need, ifaceState := up.ifaceState }
  let s := setGeneralTables env { s with enabled := true }
  setPoliciesAndRules c up env (c.sections.foldl (fun s iface => ifup c up s iface.name) s)

/-- The preferences `[1-3][0-9]{3}`. -/
def deletedPref (pref : Int) : Bool := 1000 ≤ pref && pref ≤ 3999

/-- `stop_locked`; without `ip6tables` there is nothing of mwan3 to remove for IPv6. -/
def stopLocked (s : MaskSystem) : MaskSystem :=
  { s with
    file := none
    enabled := false
    tables := fun family =>
      let rules := (s.tables family).rules
      { chains := ∅
        rules := ((rules.filter fun rule => deletedPref rule.pref).map IpRule.pref).foldl delPref rules
        marks := fun _ => none
        policies := fun _ => none
        parents := false } }

/-- `firewall_rules_present` -/
def firewallRulesPresent (need : Family → Bool) (s : MaskSystem) : Bool :=
  [Family.ipv4, .ipv6].all fun family =>
    !need family || (((s.tables family).marks "mwan3_hook").isSome && (s.tables family).parents)

/-- A route monitor that has been launched runs `mwan3_init` at some later time. -/
inductive MonitorState where
  | absent
  | launched
  | running
  deriving DecidableEq, Repr

/-- The system with the route monitors of the families. -/
structure MaskHistory where
  sys : MaskSystem
  monitors : Family → MonitorState

/-- `mwan3_rtmon` -/
def rtmon (need : Family → Bool) (monitors : Family → MonitorState) (family : Family) : MonitorState :=
  if need family && monitors family = .absent then .launched else monitors family

/-- The commands, the edits of the mask, a firewall that drops the mangle table, and a route monitor
that comes to its `mwan3_init`. -/
inductive MaskEvent where
  | edit (spelling : Spelling)
  | flush
  | start (up : Uplinks)
  | stop
  | restart (up : Uplinks)
  | firewallReload (up : Uplinks)
  | monitorInit (family : Family)

/-- `start` -/
def start (s : MaskHistory) : MaskHistory :=
  let spelling := s.sys.mmxMask
  let need := (c.withMask spelling).need
  ⟨startLocked c up spelling need s.sys.init, rtmon need s.monitors⟩

/-- `stop`; the route monitors are killed. -/
def stop (s : MaskHistory) : MaskHistory := ⟨stopLocked s.sys.init, fun _ => .absent⟩

/-- `restart`: one `mwan3_init` for both halves. -/
def restart (s : MaskHistory) : MaskHistory :=
  let spelling := s.sys.mmxMask
  let need := (c.withMask spelling).need
  let stopped := stop s
  ⟨startLocked c up spelling need stopped.sys, rtmon need stopped.monitors⟩

/-- `firewall_reload`; the `NEED` flags of both calls of `mwan3_init` add up. -/
def firewallReload (s : MaskHistory) : MaskHistory :=
  if s.sys.enabled then
    let need := (c.withMask s.sys.mmxMask).need
    if firewallRulesPresent need s.sys then { s with sys := s.sys.init }
    else
      let stopped := stop s
      let spelling := stopped.sys.mmxMask
      let need := fun family => need family || (c.withMask spelling).need family
      ⟨startLocked c up spelling need stopped.sys.init, rtmon need stopped.monitors⟩
  else s

/-- A firewall restart without mwan3. -/
def flushFirewall (s : MaskSystem) : MaskSystem :=
  { s with tables := fun family => ⟨⟨∅, (s.tables family).rules⟩, fun _ => none, fun _ => none, false⟩ }

end Commands

def MaskEvent.run (c : MaskConfig) (s : MaskHistory) : MaskEvent → MaskHistory
  | .edit spelling => { s with sys := { s.sys with config := spelling } }
  | .flush => { s with sys := flushFirewall s.sys }
  | .start up => Mwan3.start c up s
  | .stop => Mwan3.stop s
  | .restart up => Mwan3.restart c up s
  | .firewallReload up => Mwan3.firewallReload c up s
  | .monitorInit family =>
      if s.monitors family = .launched then ⟨s.sys.init, Function.update s.monitors family .running⟩ else s

/-- A history of events. -/
def maskSystem (c : MaskConfig) : Transducer MaskHistory MaskEvent Unit where
  step s event := (event.run c s, [])

/-- Before the first command. -/
def booted (spelling : Spelling) : MaskSystem where
  config := spelling
  file := none
  enabled := false
  tables := fun _ => ⟨⟨∅, [⟨0, .lookup "local"⟩, ⟨32766, .lookup "main"⟩, ⟨32767, .lookup "default"⟩]⟩,
    fun _ => none, fun _ => none, false⟩

def MaskHistory.begin (spelling : Spelling) : MaskHistory := ⟨booted spelling, fun _ => .absent⟩

/-! ## One mask -/

/-- Every mark and mask of the tables is computed from the mask of an environment. -/
structure FamilyTables.From (env : Env) (t : FamilyTables) : Prop where
  chains : IfaceChains.From env t.chains
  rules : ∀ rule ∈ t.rules, rule.From env.mask
  marks : t.marks.Every (MarkedRule.From env.mask)
  policies : ChainTable.Every (Rule.From env) t.policies

/-- One mask for all tables, and a policy sets for an interface the mark that the interface's ip
rule looks up. -/
structure OneMask (c : MaskConfig) (spelling : Spelling) (s : MaskSystem) : Prop where
  computed : ∀ family, (s.tables family).From (c.withMask spelling).env
  looked : ∀ family chain, ∀ rules ∈ (s.tables family).policies chain, ∀ rule ∈ rules,
    ∀ name weight total, rule.comment = .member name weight total →
      ∀ ipRule ∈ (s.tables family).rules, ∀ mark mask table, ipRule.action = .fwmark mark mask table →
        (c.withMask spelling).env.ifaceId name = some table → mark = rule.setMark ∧ mask = rule.mask

/-! ## When a command keeps one mask -/

def IpRule.masks (rule : IpRule) : List Nat :=
  match rule.action with
  | .iif .. => []
  | .fwmark _ mask _ => [mask]
  | .blackhole _ mask => [mask]
  | .unreachable _ mask => [mask]
  | .lookup _ => []

def IfaceRule.maskOf : IfaceRule → Nat
  | .jump mask _ => mask
  | .mark _ mask _ _ => mask

def MarkUse.maskOf : MarkUse → Nat
  | .value _ mask => mask
  | .bare mask => mask

/-- The only mask in the tables. -/
structure FamilyTables.OnlyMask (mask : Nat) (t : FamilyTables) : Prop where
  chains : ∀ chain, ∀ rules ∈ t.chains.lookup chain, ∀ rule ∈ rules, rule.maskOf = mask
  rules : ∀ rule ∈ t.rules, ∀ other ∈ rule.masks, other = mask
  marks : t.marks.Every fun rule => ∀ use ∈ rule.uses, use.maskOf = mask
  policies : ChainTable.Every (fun rule : Rule => rule.mask = mask) t.policies

/-- The only mask in the ip rules that a stop leaves. -/
def FamilyTables.LeavesMask (mask : Nat) (t : FamilyTables) : Prop :=
  ∀ rule ∈ t.rules, deletedPref rule.pref = false → ∀ other ∈ rule.masks, other = mask

/-- No handler is started. -/
def Uplinks.Idle (c : MaskConfig) (up : Uplinks) : Prop :=
  ∀ iface ∈ c.sections, ∀ family, ∀ device ∈ up.device iface.name family, device = ""

/-- Rules with chains of their own are written for the mask `0xfc00` only. -/
def MaskConfig.StickyFits (c : MaskConfig) (up : Uplinks) (need : Family → Bool) (mask : Nat) : Prop :=
  ∀ rule ∈ c.rules, ∀ family, rule.sticks up.found family = true → need family = true → mask = 0xfc00

/-- The event does not mix masks. -/
def Fits (c : MaskConfig) (history : MaskHistory) : MaskEvent → Prop
  | .edit _ => True
  | .flush => True
  | .stop => True
  | .monitorInit _ => True
  | .start up =>
      let s := history.sys
      (∀ family, (s.tables family).OnlyMask s.mmxMask.mask) ∧
        c.StickyFits up (c.withMask s.mmxMask).need s.mmxMask.mask
  | .restart up =>
      let s := history.sys
      (s.config.mask = s.mmxMask.mask ∨ up.Idle c) ∧
        (∀ family, (s.tables family).LeavesMask s.mmxMask.mask) ∧
        c.StickyFits up (c.withMask s.mmxMask).need s.mmxMask.mask
  | .firewallReload up =>
      let s := history.sys
      s.enabled = true → firewallRulesPresent (c.withMask s.mmxMask).need s = false →
        (∀ family, (s.tables family).LeavesMask s.config.mask) ∧
          c.StickyFits up (fun family => (c.withMask s.mmxMask).need family ||
            (c.withMask s.config).need family) s.config.mask

section Keeps

variable {c : MaskConfig} {up : Uplinks} {spelling : Spelling} {s : MaskSystem}

/-- The environment depends on the value of the mask only. -/
theorem env_congr (c : MaskConfig) {first second : Spelling} (same : first.mask = second.mask) :
    (c.withMask first).env = (c.withMask second).env := by
  obtain ⟨text, mask, spelled, bound⟩ := first
  obtain ⟨text', mask', spelled', bound'⟩ := second
  obtain rfl : mask = mask' := same
  rfl

/-- The constants of `mwan3_init` are those of the mask that the system reads. -/
theorem mmxMask_eq_mwan3Init (s : MaskSystem) (max : Option Int) :
    (mwan3Init ⟨s.file.map Spelling.mask, max⟩ s.config.mask).2.mmxMask = s.mmxMask.mask := by
  unfold MaskSystem.mmxMask
  cases s.file <;> rfl

theorem mmxMask_init (s : MaskSystem) : s.init.mmxMask.mask = s.mmxMask.mask := by
  unfold MaskSystem.mmxMask MaskSystem.init
  cases s.file <;> rfl

/-- A handler that runs at a start writes rules of its own mask. -/
theorem handle_from (config : IfaceConfig) (tables : Family → FamilyRules) {e : IfaceEvent}
    (up : e.action.isUp = true) (startup : e.startup = true)
    (every : ∀ family, IfaceChains.From config.env (tables family).chains ∧
      ∀ rule ∈ (tables family).rules, rule.From config.env.mask) (family : Family) :
    IfaceChains.From config.env (handle config tables e family).chains ∧
      ∀ rule ∈ (handle config tables e family).rules, rule.From config.env.mask := by
  have turn : ∀ (interface : String) (tables : Family → FamilyRules) (family : Family),
      (∀ family, IfaceChains.From config.env (tables family).chains ∧
        ∀ rule ∈ (tables family).rules, rule.From config.env.mask) →
        ∀ other, IfaceChains.From config.env (handleFamily config e interface tables family other).chains ∧
          ∀ rule ∈ (handleFamily config e interface tables family other).rules,
            rule.From config.env.mask := by
    intro interface tables family every other
    unfold handleFamily
    simp only [if_pos up, if_pos startup]
    by_cases same : other = family
    · subst same
      rw [Function.update_self]
      exact ⟨createIfaceIptables_from (every other).1 _ _ _ _,
        createIfaceRules_from (every other).2 _ _ _⟩
    · rw [Function.update_of_ne same]
      exact every other
  have loop : ∀ (interface : String) (familys : List Family),
      IfaceChains.From config.env (familys.foldl (handleFamily config e interface) tables family).chains ∧
        ∀ rule ∈ (familys.foldl (handleFamily config e interface) tables family).rules,
          rule.From config.env.mask :=
    fun interface familys => List.foldlRecOn familys _ (motive := fun tables : Family → FamilyRules =>
      ∀ family, IfaceChains.From config.env (tables family).chains ∧
        ∀ rule ∈ (tables family).rules, rule.From config.env.mask) every
      (fun tables every family _ => turn interface tables family every) family
  unfold handle
  split
  · exact every family
  simp only
  split
  · cases config.env.ifaceId (resolveInterface config e.interface e.family).1 with
    | none => exact every family
    | some id => exact loop _ _
  · exact every family

/-- The tables and the mask that the next process reads belong to one mask. -/
structure Reads (c : MaskConfig) (spelling : Spelling) (s : MaskSystem) : Prop where
  mask : s.mmxMask.mask = spelling.mask
  computed : ∀ family, (s.tables family).From (c.withMask spelling).env

theorem hotplugStartup_reads (reads : Reads c spelling s) (name device : String) (family : Family) :
    Reads c spelling (hotplugStartup c name device family s) := by
  have env := env_congr c reads.mask
  unfold hotplugStartup
  simp only
  split
  · refine ⟨(mmxMask_init s).trans reads.mask, fun other => ?_⟩
    obtain ⟨chains, rules, marks, policies⟩ := reads.computed other
    have handled := handle_from (c.withMask s.mmxMask) (fun family => (s.tables family).toFamilyRules)
      (e := ⟨.ifup, name, device, some family, true⟩) rfl rfl
      (fun other => env ▸ ⟨(reads.computed other).chains, (reads.computed other).rules⟩) other
    rw [env] at handled
    exact ⟨handled.1, handled.2, marks, policies⟩
  · exact ⟨(mmxMask_init s).trans reads.mask, reads.computed⟩

theorem ifup_reads (reads : Reads c spelling s) (up : Uplinks) (name : String) :
    Reads c spelling (ifup c up s name) := by
  refine List.foldlRecOn _ _ (motive := Reads c spelling) reads fun s reads family _ => ?_
  split
  · exact reads
  · split
    · exact reads
    · exact hotplugStartup_reads reads name _ family

/-- Where no interface is up, no handler runs. -/
theorem ifup_idle (idle : up.Idle c) {iface : IfaceSection} (listed : iface ∈ c.sections)
    (s : MaskSystem) : ifup c up s iface.name = s := by
  refine List.foldlRecOn _ _ (motive := fun after => after = s) rfl fun after same family _ => ?_
  subst same
  cases found : up.device iface.name family with
  | none => rfl
  | some device => exact if_pos (idle iface listed family device found)

theorem setGeneralTables_from (env : Env) (every : ∀ family, (s.tables family).From env)
    (family : Family) : ((setGeneralTables env s).tables family).From env :=
  ⟨setGeneralIptables_from (every family).chains family, setGeneralRules_from (every family).rules family,
    setGeneralMarks_from (every family).marks, (every family).policies⟩

theorem setPoliciesAndRules_from (env : Env) (bound : env.mask < 2 ^ 32)
    (fits : c.StickyFits up env.need env.mask) (every : ∀ family, (s.tables family).From env)
    (family : Family) : ((setPoliciesAndRules c up env s).tables family).From env := by
  have policies : ∀ family, ChainTable.Every (Rule.From env)
      (c.policies.foldl (fun tables policy => createPoliciesIptables env policy tables)
        (fun family => (s.tables family).policies) family) :=
    List.foldlRecOn _ _ (motive := fun tables : Family → Table =>
      ∀ family, ChainTable.Every (Rule.From env) (tables family))
      (fun family => (every family).policies)
      fun tables every policy _ => createPoliciesIptables_from policy every
  refine ⟨(every family).chains, (every family).rules, ?_, policies family⟩
  exact setUserRules_from (fun rule listed sticks needed => fits rule listed family sticks needed) bound
    (every family).marks

/-- A start on tables of its mask, whose handlers read its mask, installs rules of its mask. -/
theorem startLocked_from {need : Family → Bool} (fits : c.StickyFits up need spelling.mask)
    (every : ∀ family, (s.tables family).From (c.withMask spelling).env)
    (reads : s.mmxMask.mask = spelling.mask ∨ up.Idle c) (family : Family) :
    ((startLocked c up spelling need s).tables family).From (c.withMask spelling).env := by
  let env : Env := { (c.withMask spelling).env with need := need, ifaceState := up.ifaceState }
  let general := setGeneralTables env { s with enabled := true }
  have generalFrom : ∀ family, (general.tables family).From (c.withMask spelling).env := by
    intro family
    obtain ⟨chains, rules, marks, policies⟩ :=
      setGeneralTables_from env (s := { s with enabled := true })
        (fun family => ⟨(every family).chains, (every family).rules, (every family).marks,
          (every family).policies⟩) family
    exact ⟨chains, rules, marks, policies⟩
  have handled : ∀ family,
      ((c.sections.foldl (fun s iface => ifup c up s iface.name) general).tables family).From
        (c.withMask spelling).env := by
    rcases reads with same | idle
    · have start : Reads c spelling general := ⟨same, generalFrom⟩
      exact (List.foldlRecOn _ _ (motive := Reads c spelling) start
        fun s reads iface _ => ifup_reads reads up iface.name).computed
    · have unchanged : c.sections.foldl (fun s iface => ifup c up s iface.name) general = general :=
        List.foldlRecOn _ _ (motive := fun after => after = general) rfl fun after same iface listed => by
          rw [same, ifup_idle idle listed]
      rw [unchanged]
      exact generalFrom
  obtain ⟨chains, rules, marks, policies⟩ := setPoliciesAndRules_from env spelling.bound fits
    (fun family => ⟨(handled family).chains, (handled family).rules, (handled family).marks,
      (handled family).policies⟩) family
  exact ⟨chains, rules, marks, policies⟩

/-- Where a mask is the only one in the tables, they are computed from it. -/
theorem onlyMask_from {other : Spelling} {t : FamilyTables}
    (computed : t.From (c.withMask other).env) (only : t.OnlyMask spelling.mask) :
    t.From (c.withMask spelling).env := by
  have same : ∀ {mask : Nat}, mask = other.mask → mask = spelling.mask →
      (c.withMask other).env = (c.withMask spelling).env :=
    fun first second => env_congr c (first.symm.trans second)
  refine ⟨?_, ?_, ?_, ?_⟩
  · intro chain rules found rule member
    have own := computed.chains chain rules found rule member
    have mask := only.chains chain rules found rule member
    cases rule with
    | jump mask' target => exact same own mask ▸ own
    | mark device mask' name value => exact same own.1 mask ▸ own
  · intro rule member
    have own := computed.rules rule member
    have mask := only.rules rule member
    obtain ⟨pref, action⟩ := rule
    cases action with
    | iif device table => trivial
    | lookup table => trivial
    | fwmark mark mask' table => exact same own.1 (mask mask' (List.mem_singleton_self mask')) ▸ own
    | blackhole mark mask' => exact same own.1 (mask mask' (List.mem_singleton_self mask')) ▸ own
    | unreachable mark mask' => exact same own.1 (mask mask' (List.mem_singleton_self mask')) ▸ own
  · intro chain rules found rule member use inside
    have own := computed.marks chain rules found rule member use inside
    have mask := only.marks chain rules found rule member use inside
    cases use with
    | value mark mask' => exact same own.1 mask ▸ own
    | bare mask' => exact same own mask ▸ own
  · intro chain rules found rule member
    have own := computed.policies chain rules found rule member
    exact same own.1 (only.policies chain rules found rule member) ▸ own

theorem stopLocked_rules (s : MaskSystem) (family : Family) :
    ((stopLocked s).tables family).rules =
      (s.tables family).rules.filter fun rule => !deletedPref rule.pref :=
  foldl_delPref deletedPref (s.tables family).rules

theorem stopLocked_from {env : Env} (every : ∀ family, (s.tables family).From env) (family : Family) :
    ((stopLocked s).tables family).From env := by
  refine ⟨fun _ _ found => (nomatch found), fun rule member => ?_, fun _ _ found => (nomatch found),
    fun _ _ found => (nomatch found)⟩
  rw [stopLocked_rules] at member
  exact (every family).rules rule (List.mem_of_mem_filter member)

/-- After a stop only ip rules are left. -/
theorem stopLocked_onlyMask {mask : Nat} {family : Family} (leaves : (s.tables family).LeavesMask mask) :
    ((stopLocked s).tables family).OnlyMask mask := by
  refine ⟨fun _ _ found => (nomatch found), fun rule member => ?_, fun _ _ found => (nomatch found),
    fun _ _ found => (nomatch found)⟩
  rw [stopLocked_rules, List.mem_filter, Bool.not_eq_true'] at member
  exact leaves rule member.1 member.2

/-- One event keeps the tables on one mask. -/
theorem run_from {history : MaskHistory}
    (every : ∀ family, (history.sys.tables family).From (c.withMask spelling).env)
    (event : MaskEvent) (fits : Fits c history event) :
    ∃ spelling, ∀ family, ((event.run c history).sys.tables family).From (c.withMask spelling).env := by
  obtain ⟨s, monitors⟩ := history
  cases event with
  | edit other => exact ⟨spelling, every⟩
  | flush =>
      exact ⟨spelling, fun family => ⟨fun _ _ found => (nomatch found), (every family).rules,
        fun _ _ found => (nomatch found), fun _ _ found => (nomatch found)⟩⟩
  | monitorInit family =>
      refine ⟨spelling, ?_⟩
      by_cases launched : monitors family = .launched
      · simp only [MaskEvent.run, if_pos launched]
        exact every
      · simp only [MaskEvent.run, if_neg launched]
        exact every
  | start up =>
      refine ⟨s.mmxMask, startLocked_from fits.2 (fun family => ?_) (Or.inl (mmxMask_init s))⟩
      exact onlyMask_from (every family) (fits.1 family)
  | stop => exact ⟨spelling, stopLocked_from every⟩
  | restart up =>
      obtain ⟨read, leaves, sticky⟩ := fits
      refine ⟨s.mmxMask, startLocked_from sticky (fun family => ?_) read⟩
      exact onlyMask_from (stopLocked_from (s := s.init) every family)
        (stopLocked_onlyMask (leaves family))
  | firewallReload up =>
      show ∃ spelling, ∀ family, ((firewallReload c up ⟨s, monitors⟩).sys.tables family).From (c.withMask spelling).env
      unfold firewallReload
      split
      · rename_i enabled
        cases present : firewallRulesPresent (c.withMask s.mmxMask).need s with
        | true =>
            simp only [present, if_true]
            exact ⟨spelling, every⟩
        | false =>
            obtain ⟨leaves, sticky⟩ := fits enabled present
            simp only [present, Bool.false_eq_true, if_false]
            refine ⟨s.config, startLocked_from sticky (fun family => ?_) (Or.inl ?_)⟩
            · exact onlyMask_from (stopLocked_from (s := s.init) every family)
                (stopLocked_onlyMask (leaves family))
            · exact mmxMask_init (stopLocked s.init)
      · exact ⟨spelling, every⟩

theorem oneMask_of_from (every : ∀ family, (s.tables family).From (c.withMask spelling).env) :
    OneMask c spelling s := by
  refine ⟨every, ?_⟩
  intro family chain rules found rule member name weight total comment ipRule listed mark mask table
    action known
  obtain ⟨ofPolicy, marked⟩ := (every family).policies chain rules found rule member
  have ofRule := (every family).rules ipRule listed
  unfold IpRule.From at ofRule
  rw [action] at ofRule
  rw [comment] at marked
  obtain ⟨id, own, value⟩ := marked
  obtain rfl := Option.some.inj (known.symm.trans own)
  exact ⟨ofRule.2.trans value.symm, ofRule.1.trans ofPolicy.symm⟩

end Keeps

/-- In a history whose events do not mix masks, all marks and masks belong to one mask after every
event. -/
theorem commands_keep_one_mask (c : MaskConfig) (spelling : Spelling) {first second : List MaskEvent}
    (fits : (maskSystem c).AllSteps (Fits c) (.begin spelling) (first ++ second)) :
    ∃ mask, OneMask c mask ((maskSystem c).final (.begin spelling) first).sys := by
  have begun : ∃ mask, ∀ family, ((booted spelling).tables family).From (c.withMask mask).env := by
    refine ⟨spelling, fun family => ⟨fun _ _ found => (nomatch found), fun rule member => ?_,
      fun _ _ found => (nomatch found), fun _ _ found => (nomatch found)⟩⟩
    simp only [booted, List.mem_cons, List.not_mem_nil, or_false] at member
    rcases member with rfl | rfl | rfl <;> trivial
  have keeps : ∀ history event, (∃ mask, ∀ family, (history.sys.tables family).From (c.withMask mask).env) →
      Fits c history event →
        ∃ mask, ∀ family, (((maskSystem c).step history event).1.sys.tables family).From (c.withMask mask).env :=
    fun history event every fits => run_from every.choose_spec event fits
  obtain ⟨mask, every⟩ := (maskSystem c).final_invariant keeps begun
    (((maskSystem c).allSteps_append _ _ first second).mp fits).1
  exact ⟨mask, oneMask_of_from every⟩

/-- One wan that is a member of one policy. -/
def wanPolicy : MaskConfig where
  sections := [⟨"wan", true, .ipv4⟩]
  noIpv6 := false
  policies := [⟨"balanced", .unreachable, [⟨"wan", 1, 1⟩], by decide⟩]
  rules := []
  distinct := List.nodup_singleton "wan"

def wanUplink : Uplinks where
  device name family := if name = "wan" ∧ family = .ipv4 then some "eth0" else none
  found := fun _ => true
  ifaceState := fun _ _ => some "online"

def defaultMask : Spelling := ⟨"0x3F00", 0x3f00, readMask_default, defaultMask_lt⟩

def wideMask : Spelling := ⟨"0xff0000", 0xff0000, by decide, by decide⟩

/-- A start with its route monitor, and a stop after an edit. -/
theorem commands_keep_one_mask_stop :
    ∃ mask, OneMask wanPolicy mask
      ((maskSystem wanPolicy).final (.begin defaultMask) [.start wanUplink, .monitorInit .ipv4, .edit wideMask]).sys := by
  refine @commands_keep_one_mask wanPolicy defaultMask _ [.stop, .flush] ?_
  have fresh : ∀ family, ((booted defaultMask).tables family).OnlyMask 0x3f00 := by
    refine fun family => ⟨?_, ?_, ?_, ?_⟩
    · rintro _ _ ⟨⟩
    rotate_left
    · rintro _ _ ⟨⟩
    · rintro _ _ ⟨⟩
    exact (by decide : ∀ rule ∈ ((booted defaultMask).tables .ipv4).rules, ∀ other ∈ rule.masks, other = 0x3f00)
  simp only [List.cons_append, List.nil_append, Transducer.allSteps_cons, Transducer.allSteps_nil]
  exact ⟨⟨fresh, fun rule listed => absurd listed List.not_mem_nil⟩, trivial, trivial, trivial, trivial, trivial⟩

/-- A restart after an edit installs policies of the old mask and ip rules of the new one. -/
theorem restart_mixes_masks :
    ¬∃ mask, OneMask wanPolicy mask ((maskSystem wanPolicy).final (.begin defaultMask)
      [.start wanUplink, .monitorInit .ipv4, .edit wideMask, .restart wanUplink]).sys := by
  rintro ⟨mask, one⟩
  generalize reached : ((maskSystem wanPolicy).final (.begin defaultMask) _).sys = s at one
  have policy : (s.tables .ipv4).policies "mwan3_policy_balanced" =
      some [⟨0x3f00, none, .member "wan" 1 1, 0x100⟩] := by
    rw [← reached]
    decide +kernel
  have looked : ⟨2001, .fwmark 0x10000 0xff0000 1⟩ ∈ (s.tables .ipv4).rules := by
    rw [← reached]
    decide +kernel
  have old := ((one.computed .ipv4).policies _ _ policy _ (List.mem_singleton_self _)).1
  have new := ((one.computed .ipv4).rules _ looked).1
  exact absurd (old.trans new.symm) (by decide)

end XWrt.Mwan3
