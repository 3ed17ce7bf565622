import Mathlib.Logic.Function.Basic
import XWrt.Foundation.RuleChain
import XWrt.Mwan3.Marks

/-!
# Policy chains

`mwan3_create_policies_iptables` and `mwan3_set_policy` of `lib/mwan3/mwan3.sh`.
A policy chain starts with its last-resort rule. The members follow one after
the other: an online member with a lower metric flushes the chain, one with the
same metric is inserted ahead of the others with the probability weight /
running total.
-/

namespace XWrt.Mwan3

open XWrt.Foundation

inductive Family where
  | ipv4
  | ipv6
  deriving DecidableEq, Repr

/-- The `family` option of an interface section. -/
inductive FamilyOption where
  | any
  | ipv4
  | ipv6
  | other
  deriving DecidableEq, Repr

/-- An interface section of the mwan3 configuration. -/
structure Iface where
  name : String
  family : FamilyOption
  deriving DecidableEq, Repr

/-- A member section as `config_get` returns it; a missing interface is empty. -/
structure Member where
  interface : String
  metric : Nat
  weight : Nat
  deriving DecidableEq, Repr

/-- The `last_resort` option. -/
inductive LastResort where
  | blackhole
  | default
  | unreachable
  deriving DecidableEq, Repr

/-- A policy section with its `use_member` list. The shell counts in 64 bits with a sign, and
no sum of weights leaves them, not even a thousandfold. -/
structure Policy where
  name : String
  lastResort : LastResort
  members : List Member
  small : 1000 * (members.map Member.weight).sum < 2 ^ 63
  deriving DecidableEq, Repr

/-- What the policy functions read: `MMX_MASK`, the `NEED_IPV4` and `NEED_IPV6`
flags, the interface sections and the `iface_state` files. -/
structure Env where
  mask : Nat
  need : Family → Bool
  ifaces : List Iface
  ifaceState : String → Family → Option String

/-! ## iptables -/

inductive Comment where
  | member (interface : String) (weight total : Nat)
  | lastResort (action : LastResort)
  deriving DecidableEq, Repr

/-- A rule `-m mark --mark 0x0/mask -j MARK --set-xmark setMark/mask`, with a
statistic match when there is a probability. -/
structure Rule where
  mask : Nat
  probability : Option String
  comment : Comment
  setMark : Nat
  deriving DecidableEq, Repr

/-- The lines of an update. -/
inductive Command where
  | new (chain : String)
  | flush (chain : String)
  | append (chain : String) (rule : Rule)
  | insert (chain : String) (rule : Rule)
  deriving DecidableEq, Repr

/-- The chains of the mangle table. -/
abbrev Table := String → Option (List Rule)

def Table.set (table : Table) (chain : String) (rules : List Rule) : Table :=
  Function.update table chain (some rules)

def Command.run (table : Table) : Command → Option Table
  | .new chain => if (table chain).isSome then none else some (table.set chain [])
  | .flush chain => (table chain).map fun _ => table.set chain []
  | .append chain rule => (table chain).map fun rules => table.set chain (rules ++ [rule])
  | .insert chain rule => (table chain).map fun rules => table.set chain (rule :: rules)

/-- `iptables-restore`: all commands or, on an error, none. -/
def restore (table : Table) (update : List Command) : Table :=
  (update.foldlM Command.run table).getD table

/-! ## The policy functions -/

/-- `DEFAULT_LOWEST_METRIC`. -/
def defaultLowestMetric : Nat := 256

/-- `mwan3_get_iface_id`. -/
def Env.ifaceId (env : Env) (name : String) : Option Nat :=
  match env.ifaces.findIdx? fun iface => iface.name = name with
  | none => none
  | some index => if (index + 1 : Int) > interfaceMax env.mask then none else some (index + 1)

/-- `mwan3_get_iface_hotplug_state`. -/
def Env.ifaceHotplugState (env : Env) (name : String) (family : Family) : String :=
  (env.ifaceState name family).getD "offline"

/-- The families of `for family in $family_list`; other words are skipped. -/
def FamilyOption.list : FamilyOption → List Family
  | .any => [.ipv4, .ipv6]
  | .ipv4 => [.ipv4]
  | .ipv6 => [.ipv6]
  | .other => []

def Env.familyList (env : Env) (name : String) : List Family :=
  match env.ifaces.find? fun iface => iface.name = name with
  | some iface => iface.family.list
  | none => FamilyOption.any.list

def policyChain (policy : String) : String := "mwan3_policy_" ++ policy

/-- The text for a probability in thousandths. -/
def probabilityText (probability : Nat) : String :=
  if probability < 10 then "0.00" ++ toString probability
  else if probability < 100 then "0.0" ++ toString probability
  else if probability < 1000 then "0." ++ toString probability
  else "1"

def Env.memberRule (env : Env) (m : Member) (id total : Nat) (probability : Option String) : Rule :=
  ⟨env.mask, probability, .member m.interface m.weight total, id2mask id env.mask⟩

def LastResort.mark (mask : Nat) : LastResort → Nat
  | .blackhole => id2mask (mmBlackhole mask) mask
  | .default => id2mask (mmDefault mask) mask
  | .unreachable => id2mask (mmUnreachable mask) mask

def Env.lastResortRule (env : Env) (lastResort : LastResort) : Rule :=
  ⟨env.mask, none, .lastResort lastResort, lastResort.mark env.mask⟩

/-- The mangle table, `lowest_metric` and `total_weight` of one family. -/
structure FamilyState where
  table : Table
  lowestMetric : Nat
  totalWeight : Nat

/-- The body of the family loop of `mwan3_set_policy`. -/
def setPolicyFamily (env : Env) (policy : String) (m : Member) (id : Nat) (family : Family)
    (s : FamilyState) : FamilyState :=
  -- An offline member never gets past this test: the `-o "$device"` rule of the
  -- source is never written.
  if env.need family ∧ env.ifaceHotplugState m.interface family = "online" then
    if m.metric < s.lowestMetric then
      { table := restore s.table
          [.flush (policyChain policy),
            .append (policyChain policy) (env.memberRule m id m.weight none)]
        lowestMetric := m.metric
        totalWeight := m.weight }
    else if m.metric = s.lowestMetric then
      let total := s.totalWeight + m.weight
      let probability := probabilityText (m.weight * 1000 / total)
      { s with
        table := restore s.table
          [.insert (policyChain policy) (env.memberRule m id total (some probability))]
        totalWeight := total }
    else s
  else s

/-- `mwan3_set_policy`. -/
def setPolicy (env : Env) (policy : String) (s : Family → FamilyState) (m : Member) :
    Family → FamilyState :=
  if m.interface = "" then s
  else if defaultLowestMetric < m.metric then s
  else
    match env.ifaceId m.interface with
    | none => s
    | some id =>
        (env.familyList m.interface).foldl
          (fun s family => Function.update s family (setPolicyFamily env policy m id family (s family)))
          s

/-- The chain with its last-resort rule, before the members. -/
def startPolicy (env : Env) (policy : Policy) (family : Family) (table : Table) : Table :=
  let chain := policyChain policy.name
  if env.need family then
    restore table
      ((if (table chain).isSome then [] else [.new chain]) ++
        [.flush chain, .append chain (env.lastResortRule policy.lastResort)])
  else table

/-- `mwan3_create_policies_iptables`. -/
def createPoliciesIptables (env : Env) (policy : Policy) (tables : Family → Table) :
    Family → Table :=
  if policy.name.length > 15 then tables
  else
    let start := fun family =>
      ⟨startPolicy env policy family (tables family), defaultLowestMetric, 0⟩
    fun family => (policy.members.foldl (setPolicy env policy.name) start family).table

/-! ## Traffic -/

/-- `--set-xmark value/mask`. -/
def setXmark (value mask mark : Nat) : Nat := (mark ^^^ (mark &&& mask)) ^^^ value

/-- The fraction that a rule's comment records. -/
def Comment.fraction : Comment → ℚ
  | .member _ weight total => weight / total
  | .lastResort _ => 1

/-- A rule with its exact probability. -/
def Rule.exact (rule : Rule) : ChanceRule Nat where
  applies mark := mark &&& rule.mask = 0
  chance := if rule.probability.isSome then rule.comment.fraction else 1
  act := setXmark rule.setMark rule.mask

/-- The share of new connections with fwmark `mark` that leave the chain with the
bits of `value`. -/
def share (env : Env) (chain : List Rule) (mark value : Nat) : ℚ :=
  ChanceRule.leaves (chain.map Rule.exact) mark (setXmark value env.mask mark)

/-- An online member of a family: its interface serves the family and its state file
says online. -/
def Env.Online (env : Env) (family : Family) (m : Member) : Prop :=
  m.interface ≠ "" ∧ family ∈ env.familyList m.interface ∧
    env.ifaceHotplugState m.interface family = "online"

instance (env : Env) (family : Family) : DecidablePred (env.Online family) :=
  fun _ => inferInstanceAs (Decidable (_ ∧ _ ∧ _))

def Env.onlineMembers (env : Env) (family : Family) (members : List Member) : List Member :=
  members.filter (env.Online family)

/-- The online members with the smallest metric. -/
def Env.bestMembers (env : Env) (family : Family) (members : List Member) : List Member :=
  let online := env.onlineMembers family members
  online.filter fun m => ∀ other ∈ online, m.metric ≤ other.metric

/-! ## Updates of one chain -/

@[simp]
theorem Table.set_self (table : Table) (chain : String) (rules : List Rule) :
    table.set chain rules chain = some rules := by
  simp [Table.set]

theorem restore_flush_append {table : Table} {chain : String} {rules : List Rule} (rule : Rule)
    (present : table chain = some rules) :
    restore table [.flush chain, .append chain rule] chain = some [rule] := by
  simp [restore, Command.run, present]

theorem restore_insert {table : Table} {chain : String} {rules : List Rule} (rule : Rule)
    (present : table chain = some rules) :
    restore table [.insert chain rule] chain = some (rule :: rules) := by
  simp [restore, Command.run, present]

theorem startPolicy_chain {env : Env} (policy : Policy) {family : Family}
    (needed : env.need family = true) (table : Table) :
    startPolicy env policy family table (policyChain policy.name) =
      some [env.lastResortRule policy.lastResort] := by
  unfold startPolicy
  rw [if_pos needed]
  cases present : table (policyChain policy.name) with
  | none => simp [restore, Command.run, present]
  | some rules => simp [restore, Command.run, present]

/-! ## One member -/

theorem Env.familyList_nodup (env : Env) (name : String) : (env.familyList name).Nodup := by
  have nodup : ∀ option : FamilyOption, option.list.Nodup := by
    intro option
    cases option <;> decide
  unfold Env.familyList
  split
  · exact nodup _
  · exact nodup _

/-- The family loop treats each listed family once and leaves the others alone. -/
theorem foldl_update_at {families : List Family} (nodup : families.Nodup)
    (step : Family → FamilyState → FamilyState) (s : Family → FamilyState) (family : Family) :
    families.foldl (fun s family => Function.update s family (step family (s family))) s family =
      if family ∈ families then step family (s family) else s family := by
  induction families generalizing s with
  | nil => rfl
  | cons first rest ih =>
      rw [List.nodup_cons] at nodup
      rw [List.foldl_cons, ih nodup.2]
      by_cases here : family = first
      · subst here
        simp [nodup.1]
      · simp [here]

theorem setPolicy_of_not_online {env : Env} {family : Family} {m : Member} (policy : String)
    (s : Family → FamilyState) (offline : ¬ env.Online family m) :
    setPolicy env policy s m family = s family := by
  unfold setPolicy
  split
  · rfl
  rename_i named
  split
  · rfl
  cases env.ifaceId m.interface with
  | none => rfl
  | some id =>
      simp only
      rw [foldl_update_at (env.familyList_nodup _)
        (fun family => setPolicyFamily env policy m id family)]
      split
      · rename_i listed
        have notOnline : ¬ env.ifaceHotplugState m.interface family = "online" :=
          fun online => offline ⟨named, listed, online⟩
        simp [setPolicyFamily, notOnline]
      · rfl

theorem setPolicy_of_online {env : Env} {family : Family} {m : Member} {id : Nat} (policy : String)
    (s : Family → FamilyState) (online : env.Online family m)
    (metric : m.metric ≤ defaultLowestMetric) (found : env.ifaceId m.interface = some id) :
    setPolicy env policy s m family = setPolicyFamily env policy m id family (s family) := by
  unfold setPolicy
  rw [if_neg online.1, if_neg metric.not_gt, found]
  simp only
  rw [foldl_update_at (env.familyList_nodup _) (fun family => setPolicyFamily env policy m id family),
    if_pos online.2.1]

theorem setPolicyFamily_total_le (env : Env) (policy : String) (m : Member) (id : Nat) (family : Family)
    (s : FamilyState) :
    (setPolicyFamily env policy m id family s).totalWeight ≤ s.totalWeight + m.weight := by
  unfold setPolicyFamily
  split_ifs
  · exact Nat.le_add_left _ _
  · exact le_rfl
  · exact Nat.le_add_right _ _
  · exact Nat.le_add_right _ _

theorem setPolicy_total_le (env : Env) (policy : String) (s : Family → FamilyState) (m : Member)
    (family : Family) :
    (setPolicy env policy s m family).totalWeight ≤ (s family).totalWeight + m.weight := by
  unfold setPolicy
  split
  · exact Nat.le_add_right _ _
  split
  · exact Nat.le_add_right _ _
  cases env.ifaceId m.interface with
  | none => exact Nat.le_add_right _ _
  | some id =>
      simp only
      rw [foldl_update_at (env.familyList_nodup _)
        (fun family => setPolicyFamily env policy m id family)]
      split
      · exact setPolicyFamily_total_le env policy m id family (s family)
      · exact Nat.le_add_right _ _

/-- What the member loop computes with stays in 64 bits: each total, and the thousandfold of each
weight, which is part of the next total. -/
theorem totals_small (env : Env) (policy : Policy) {done : List Member} (part : done <+: policy.members)
    {start : Family → FamilyState} {family : Family} (none : (start family).totalWeight = 0) :
    1000 * (done.foldl (setPolicy env policy.name) start family).totalWeight < 2 ^ 63 := by
  have most : (done.foldl (setPolicy env policy.name) start family).totalWeight ≤
      (done.map Member.weight).sum := by
    clear part
    induction done using List.reverseRecOn with
    | nil => exact none.le
    | append_singleton done m ih =>
        rw [List.foldl_append, List.foldl_cons, List.foldl_nil, List.map_append, List.sum_append,
          List.map_singleton, List.sum_singleton]
        exact (setPolicy_total_le env policy.name _ m family).trans (Nat.add_le_add_right ih _)
  have whole : (done.map Member.weight).sum ≤ (policy.members.map Member.weight).sum :=
    (part.sublist.map Member.weight).sum_le_sum fun _ _ => Nat.zero_le _
  exact (Nat.mul_le_mul_left _ (most.trans whole)).trans_lt policy.small

/-! ## Marks of members -/

/-- The mark of an interface. -/
def Env.mark (env : Env) (name : String) : Nat := id2mask ((env.ifaceId name).getD 0) env.mask

theorem ifaceId_eq_some {env : Env} {name : String} {id : Nat} :
    env.ifaceId name = some id ↔ ∃ index,
      (env.ifaces.findIdx? fun iface => iface.name = name) = some index ∧
        (index + 1 : Int) ≤ interfaceMax env.mask ∧ index + 1 = id := by
  unfold Env.ifaceId
  cases env.ifaces.findIdx? fun iface => iface.name = name with
  | none => simp
  | some index =>
      simp only [Option.some.injEq, exists_eq_left']
      split
      · rename_i large
        simp [not_le.mpr large]
      · rename_i small
        simp [not_lt.mp small]

theorem ifaceId_bounds {env : Env} {name : String} {id : Nat}
    (found : env.ifaceId name = some id) : 0 < id ∧ (id : Int) ≤ mmDefault env.mask - 3 := by
  obtain ⟨index, -, small, rfl⟩ := ifaceId_eq_some.mp found
  exact ⟨Nat.succ_pos index, (small.trans (interfaceMax_le env.mask))⟩

theorem ifaceId_injective {env : Env} {first second : String} {id : Nat}
    (ofFirst : env.ifaceId first = some id) (ofSecond : env.ifaceId second = some id) :
    first = second := by
  obtain ⟨index, atFirst, -, rfl⟩ := ifaceId_eq_some.mp ofFirst
  obtain ⟨other, atSecond, -, same⟩ := ifaceId_eq_some.mp ofSecond
  obtain rfl := Nat.succ.inj same
  rw [List.findIdx?_eq_some_iff_getElem] at atFirst atSecond
  obtain ⟨inside, isFirst, -⟩ := atFirst
  obtain ⟨_, isSecond, -⟩ := atSecond
  rw [← of_decide_eq_true isFirst, of_decide_eq_true isSecond]

theorem mark_eq {env : Env} {name : String} {id : Nat} (found : env.ifaceId name = some id) :
    env.mark name = id2mask id env.mask := by
  rw [Env.mark, found]
  rfl

theorem mark_injective {env : Env} (bound : env.mask < 2 ^ 32) {first second : String}
    {id id' : Nat} (ofFirst : env.ifaceId first = some id) (ofSecond : env.ifaceId second = some id')
    (same : env.mark first = env.mark second) : first = second := by
  have firstSmall := (ifaceId_bounds ofFirst).2
  have secondSmall := (ifaceId_bounds ofSecond).2
  rw [mmDefault_cast] at firstSmall secondSmall
  rw [mark_eq ofFirst, mark_eq ofSecond] at same
  obtain rfl := id2mask_injective bound (by omega) (by omega) same
  exact ifaceId_injective ofFirst ofSecond

theorem mark_and_mask (env : Env) (name : String) : env.mark name &&& env.mask = env.mark name :=
  id2mask_and_mask _ _

theorem mark_ne_zero {env : Env} (bound : env.mask < 2 ^ 32) {name : String} {id : Nat}
    (found : env.ifaceId name = some id) : env.mark name ≠ 0 := by
  obtain ⟨positive, small⟩ := ifaceId_bounds found
  rw [mmDefault_cast] at small
  intro zero
  rw [mark_eq found, ← id2mask_zero env.mask] at zero
  exact positive.ne' (id2mask_injective bound (by omega) (Nat.two_pow_pos _) zero)

theorem mark_ne_lastResort {env : Env} (bound : env.mask < 2 ^ 32) {name : String} {id : Nat}
    (found : env.ifaceId name = some id) (lastResort : LastResort) :
    env.mark name ≠ lastResort.mark env.mask := by
  obtain ⟨positive, small⟩ := ifaceId_bounds found
  rw [mmDefault_cast] at small
  -- The last-resort ids are the three above every interface id.
  have distinct : ∀ other : Nat, id < other → other < 2 ^ countOneBits env.mask →
      id2mask (id : Int) env.mask ≠ id2mask (other : Int) env.mask := by
    intro other above fits same
    exact absurd (id2mask_injective bound (by omega) fits same) above.ne
  have blackhole : mmBlackhole env.mask = ((2 ^ countOneBits env.mask - 3 : Nat) : Int) := by
    rw [mmBlackhole, mmDefault_cast]
    omega
  have unreachable : mmUnreachable env.mask = ((2 ^ countOneBits env.mask - 2 : Nat) : Int) := by
    rw [mmUnreachable, mmDefault_cast]
    omega
  rw [mark_eq found]
  cases lastResort with
  | blackhole =>
      rw [LastResort.mark, blackhole]
      exact distinct _ (by omega) (by omega)
  | default =>
      rw [LastResort.mark, mmDefault_cast]
      exact distinct _ (by omega) (by omega)
  | unreachable =>
      rw [LastResort.mark, unreachable]
      exact distinct _ (by omega) (by omega)

theorem and_setXmark {mask mark value : Nat} (fresh : mark &&& mask = 0)
    (inside : value &&& mask = value) : setXmark value mask mark &&& mask = value := by
  rw [setXmark, fresh, Nat.xor_zero, Nat.and_xor_distrib_right, fresh, inside, Nat.zero_xor]

/-! ## The member loop -/

/-- The match `--mark 0x0/mask` of every rule of the chain. -/
def Env.unmarked (env : Env) (mark : Nat) : Bool := mark &&& env.mask = 0

/-- The exact rules of the members of one metric, the latest first. -/
def Env.balanced (env : Env) (members : List Member) : List (ChanceRule Nat) :=
  ChanceRule.balance Member.weight env.unmarked
    (fun m => setXmark (env.mark m.interface) env.mask) members.reverse

def Env.atMetric (env : Env) (family : Family) (members : List Member) (metric : Nat) :
    List Member :=
  (env.onlineMembers family members).filter fun m => m.metric = metric

/-- The last-resort rule stays until a metric below the default lowest flushes it. -/
def Env.remainder (env : Env) (policy : Policy) (lowest : Nat) : List (ChanceRule Nat) :=
  if lowest = defaultLowestMetric then [(env.lastResortRule policy.lastResort).exact] else []

/-- The state of a family after the members `done`. -/
structure Tracks (env : Env) (policy : Policy) (family : Family) (done : List Member)
    (s : FamilyState) : Prop where
  atMost : s.lowestMetric ≤ defaultLowestMetric
  least : ∀ m ∈ env.onlineMembers family done, s.lowestMetric ≤ m.metric
  attained : s.lowestMetric = defaultLowestMetric ∨ env.atMetric family done s.lowestMetric ≠ []
  total : s.totalWeight =
    ChanceRule.totalWeight Member.weight (env.atMetric family done s.lowestMetric)
  chain : ∃ chain, s.table (policyChain policy.name) = some chain ∧
    chain.map Rule.exact = env.balanced (env.atMetric family done s.lowestMetric) ++
      env.remainder policy s.lowestMetric

theorem onlineMembers_append_online {env : Env} {family : Family} {m : Member}
    (done : List Member) (online : env.Online family m) :
    env.onlineMembers family (done ++ [m]) = env.onlineMembers family done ++ [m] := by
  rw [Env.onlineMembers, List.filter_append, List.filter_singleton, decide_eq_true online]
  rfl

theorem onlineMembers_append_offline {env : Env} {family : Family} {m : Member}
    (done : List Member) (offline : ¬ env.Online family m) :
    env.onlineMembers family (done ++ [m]) = env.onlineMembers family done := by
  rw [Env.onlineMembers, List.filter_append, List.filter_singleton, decide_eq_false offline]
  exact List.append_nil _

theorem balanced_append (env : Env) (members : List Member) (m : Member) :
    env.balanced (members ++ [m]) =
      ⟨env.unmarked,
        (m.weight : ℚ) / (m.weight + ChanceRule.totalWeight Member.weight members : ℕ),
        setXmark (env.mark m.interface) env.mask⟩ :: env.balanced members := by
  have total : ChanceRule.totalWeight Member.weight members.reverse =
      ChanceRule.totalWeight Member.weight members := by
    simp [ChanceRule.totalWeight, List.sum_reverse]
  rw [Env.balanced, List.reverse_append, List.reverse_singleton, List.singleton_append,
    ChanceRule.balance, total]
  rfl

theorem memberRule_exact {env : Env} {m : Member} {id : Nat}
    (found : env.ifaceId m.interface = some id) (total : Nat) (probability : String) :
    (env.memberRule m id total (some probability)).exact =
      ⟨env.unmarked, (m.weight : ℚ) / (total : ℕ),
        setXmark (env.mark m.interface) env.mask⟩ := by
  rw [mark_eq found]
  rfl

theorem memberRule_exact_first {env : Env} {m : Member} {id : Nat}
    (found : env.ifaceId m.interface = some id) (positive : 0 < m.weight) :
    (env.memberRule m id m.weight none).exact =
      ⟨env.unmarked, (m.weight : ℚ) / (m.weight : ℕ),
        setXmark (env.mark m.interface) env.mask⟩ := by
  have weight : (m.weight : ℚ) ≠ 0 := Nat.cast_ne_zero.mpr positive.ne'
  rw [mark_eq found, div_self weight]
  rfl

section Loop

variable {env : Env} {policy : Policy} {family : Family} {done : List Member} {s : FamilyState}
  {m : Member}

theorem tracks_of_offline (tracks : Tracks env policy family done s)
    (offline : ¬ env.Online family m) : Tracks env policy family (done ++ [m]) s := by
  obtain ⟨atMost, least, attained, total, chain⟩ := tracks
  constructor
  · exact atMost
  · rwa [onlineMembers_append_offline done offline]
  · rwa [Env.atMetric, onlineMembers_append_offline done offline]
  · rwa [Env.atMetric, onlineMembers_append_offline done offline]
  · rwa [Env.atMetric, onlineMembers_append_offline done offline]

theorem atMetric_append_same (online : env.Online family m) :
    env.atMetric family (done ++ [m]) m.metric = env.atMetric family done m.metric ++ [m] := by
  rw [Env.atMetric, onlineMembers_append_online done online, List.filter_append,
    List.filter_singleton, decide_eq_true rfl]
  rfl

theorem atMetric_append_other {metric : Nat} (online : env.Online family m)
    (other : m.metric ≠ metric) :
    env.atMetric family (done ++ [m]) metric = env.atMetric family done metric := by
  rw [Env.atMetric, onlineMembers_append_online done online, List.filter_append,
    List.filter_singleton, decide_eq_false other]
  exact List.append_nil _

theorem least_append {metric : Nat} (online : env.Online family m)
    (least : ∀ other ∈ env.onlineMembers family done, metric ≤ other.metric)
    (here : metric ≤ m.metric) :
    ∀ other ∈ env.onlineMembers family (done ++ [m]), metric ≤ other.metric := by
  intro other member
  rw [onlineMembers_append_online done online] at member
  rcases List.mem_append.mp member with old | new
  · exact least other old
  · rwa [List.mem_singleton.mp new]

/-- The three cases of an online member: a lower metric starts a new balance, the
same metric joins it, a higher one is left out. -/
theorem tracks_of_online {id : Nat} (tracks : Tracks env policy family done s)
    (online : env.Online family m) (needed : env.need family = true)
    (found : env.ifaceId m.interface = some id) (positive : 0 < m.weight) :
    Tracks env policy family (done ++ [m]) (setPolicyFamily env policy.name m id family s) := by
  obtain ⟨atMost, least, attained, total, rules, present, exact_rules⟩ := tracks
  unfold setPolicyFamily
  rw [if_pos ⟨needed, online.2.2⟩]
  rcases lt_trichotomy m.metric s.lowestMetric with lower | equal | higher
  · rw [if_pos lower]
    have none_before : env.atMetric family done m.metric = [] := by
      refine List.filter_eq_nil_iff.mpr fun other member => ?_
      have := least other member
      simp
      omega
    constructor
    · exact (lower.trans_le atMost).le
    · exact least_append online (fun other member => lower.le.trans (least other member)) (le_refl _)
    · right
      simp [atMetric_append_same online]
    · simp [atMetric_append_same online, none_before, ChanceRule.totalWeight]
    · refine ⟨_, restore_flush_append _ present, ?_⟩
      have flushed : env.remainder policy m.metric = [] :=
        if_neg (lower.trans_le atMost).ne
      simp only [List.map_singleton, atMetric_append_same online, none_before, flushed,
        memberRule_exact_first found positive, balanced_append]
      rfl
  · rw [if_neg equal.not_lt, if_pos equal]
    have joined : env.atMetric family (done ++ [m]) s.lowestMetric =
        env.atMetric family done s.lowestMetric ++ [m] := by
      rw [← equal]
      exact atMetric_append_same online
    constructor
    · exact atMost
    · exact least_append online least equal.ge
    · right
      simp [joined]
    · simp only [joined, total]
      simp [ChanceRule.totalWeight]
    · refine ⟨_, restore_insert _ present, ?_⟩
      simp only [List.map_cons, exact_rules, joined, memberRule_exact found, balanced_append, total,
        List.cons_append, Nat.add_comm m.weight]
  · rw [if_neg higher.not_gt, if_neg higher.ne']
    constructor
    · exact atMost
    · exact least_append online least higher.le
    · rwa [atMetric_append_other online higher.ne']
    · rwa [atMetric_append_other online higher.ne']
    · refine ⟨rules, present, ?_⟩
      rwa [atMetric_append_other online higher.ne']

theorem tracks_members {states : Family → FamilyState} (needed : env.need family = true)
    (start : Tracks env policy family [] (states family))
    (positive : ∀ m ∈ done, 0 < m.weight) (metrics : ∀ m ∈ done, m.metric ≤ defaultLowestMetric)
    (ids : ∀ m ∈ done, env.Online family m → (env.ifaceId m.interface).isSome) :
    Tracks env policy family done (done.foldl (setPolicy env policy.name) states family) := by
  induction done using List.reverseRecOn with
  | nil => exact start
  | append_singleton done m ih =>
      rw [List.forall_mem_append, List.forall_mem_singleton] at positive metrics ids
      have tracks := ih positive.1 metrics.1 ids.1
      rw [List.foldl_append, List.foldl_cons, List.foldl_nil]
      by_cases online : env.Online family m
      · obtain ⟨id, found⟩ := Option.isSome_iff_exists.mp (ids.2 online)
        rw [setPolicy_of_online _ _ online metrics.2 found]
        exact tracks_of_online tracks online needed found positive.2
      · rw [setPolicy_of_not_online _ _ online]
        exact tracks_of_offline tracks online

end Loop

/-! ## The balance of a policy -/

/-- The loop ends with the metric of the best members. -/
theorem atMetric_eq_bestMembers {env : Env} {policy : Policy} {family : Family}
    {members : List Member} {s : FamilyState} (tracks : Tracks env policy family members s)
    (metrics : ∀ m ∈ members, m.metric ≤ defaultLowestMetric) :
    env.atMetric family members s.lowestMetric = env.bestMembers family members := by
  refine List.filter_congr fun m member => ?_
  rw [decide_eq_decide]
  constructor
  · intro equal other otherMember
    rw [equal]
    exact tracks.least other otherMember
  · intro smallest
    refine le_antisymm ?_ (tracks.least m member)
    rcases tracks.attained with default | nonempty
    · rw [default]
      exact metrics m (List.mem_of_mem_filter member)
    · obtain ⟨best, bestMember⟩ := List.exists_mem_of_ne_nil _ nonempty
      obtain ⟨isOnline, metric⟩ := List.mem_filter.mp bestMember
      rw [← of_decide_eq_true metric]
      exact smallest best isOnline

theorem setXmark_inj {mask mark value value' : Nat} :
    setXmark value mask mark = setXmark value' mask mark ↔ value = value' := by
  unfold setXmark
  exact Nat.xor_right_inj

section Shares

variable {env : Env} {policy : Policy} {chain : List Rule} {best : List Member} {mark : Nat}

/-- A chain without members applies its last-resort rule to every new connection. -/
theorem share_lastResort
    (exact_rules : chain.map Rule.exact = [(env.lastResortRule policy.lastResort).exact])
    (fresh : mark &&& env.mask = 0) (value : Nat) :
    share env chain mark value = if policy.lastResort.mark env.mask = value then 1 else 0 := by
  have applies : (env.lastResortRule policy.lastResort).exact.applies mark = true :=
    decide_eq_true fresh
  have chance : (env.lastResortRule policy.lastResort).exact.chance = 1 := rfl
  have act : (env.lastResortRule policy.lastResort).exact.act mark =
      setXmark (policy.lastResort.mark env.mask) env.mask mark := rfl
  rw [share, exact_rules, ChanceRule.leaves_cons, if_pos applies, chance, act,
    ChanceRule.leaves_nil, ChanceRule.leaves_nil, one_mul, sub_self, zero_mul, add_zero]
  simp only [setXmark_inj]

/-- A balanced chain sends to a mark the weight of the members with that mark. -/
theorem share_balanced {lowest : Nat}
    (exact_rules : chain.map Rule.exact = env.balanced best ++ env.remainder policy lowest)
    (bound : env.mask < 2 ^ 32) (nonempty : best ≠ []) (positive : ∀ m ∈ best, 0 < m.weight)
    (ids : ∀ m ∈ best, (env.ifaceId m.interface).isSome) (fresh : mark &&& env.mask = 0)
    (value : Nat) :
    share env chain mark value =
      (ChanceRule.totalWeight Member.weight
          (best.filter fun m => env.mark m.interface = value) : ℚ) /
        ChanceRule.totalWeight Member.weight best := by
  have unmarked : env.unmarked mark = true := decide_eq_true fresh
  have settles : ∀ m ∈ best.reverse,
      env.unmarked (setXmark (env.mark m.interface) env.mask mark) = false := by
    intro m member
    obtain ⟨id, found⟩ := Option.isSome_iff_exists.mp (ids m (List.mem_reverse.mp member))
    rw [Env.unmarked, and_setXmark fresh (mark_and_mask env m.interface)]
    exact decide_eq_false (mark_ne_zero bound found)
  have same : ∀ rule ∈ env.remainder policy lowest,
      rule.applies = env.unmarked := by
    intro rule member
    unfold Env.remainder at member
    split at member
    · rw [List.mem_singleton.mp member]
      rfl
    · exact absurd member List.not_mem_nil
  have reversed : ∀ members : List Member,
      ChanceRule.totalWeight Member.weight members.reverse =
        ChanceRule.totalWeight Member.weight members := by
    simp [ChanceRule.totalWeight, List.sum_reverse]
  rw [share, exact_rules, Env.balanced,
    ChanceRule.leaves_balance _ _ _ _ (fun m member => positive m (List.mem_reverse.mp member))
      (List.reverse_eq_nil_iff.not.mpr nonempty) unmarked settles same,
    ChanceRule.weightTo]
  simp only [setXmark_inj, List.filter_reverse, reversed]

end Shares

/-- The chain that a policy leaves behind balances new connections over its best
online members and falls through to the last resort when there are none. The
hotplug script sets an interface online only when it has an id. -/
theorem createPoliciesIptables_balances (env : Env) (policy : Policy) (tables : Family → Table)
    (family : Family) (mask : env.mask < 2 ^ 32) (needed : env.need family = true)
    (short : policy.name.length ≤ 15) (weights : ∀ m ∈ policy.members, 0 < m.weight)
    (metrics : ∀ m ∈ policy.members, m.metric ≤ defaultLowestMetric)
    (ids : ∀ m ∈ policy.members, env.Online family m → (env.ifaceId m.interface).isSome)
    (mark : Nat) (fresh : mark &&& env.mask = 0) :
    ∃ chain,
      createPoliciesIptables env policy tables family (policyChain policy.name) = some chain ∧
      (∀ interface, (env.ifaceId interface).isSome →
        share env chain mark (env.mark interface) =
          (((env.bestMembers family policy.members).filter fun m => m.interface = interface).map
              Member.weight).sum /
            ((env.bestMembers family policy.members).map Member.weight).sum) ∧
      share env chain mark (policy.lastResort.mark env.mask) =
        if env.bestMembers family policy.members = [] then 1 else 0 := by
  let states : Family → FamilyState := fun family =>
    ⟨startPolicy env policy family (tables family), defaultLowestMetric, 0⟩
  have start : Tracks env policy family [] (states family) := by
    constructor
    · exact le_refl _
    · simp [Env.onlineMembers]
    · exact .inl rfl
    · rfl
    · exact ⟨_, startPolicy_chain policy needed (tables family), rfl⟩
  have tracks := tracks_members needed start weights metrics ids
  have created : createPoliciesIptables env policy tables family =
      (policy.members.foldl (setPolicy env policy.name) states family).table :=
    congrFun (if_neg short.not_gt) family
  obtain ⟨chain, present, exact_rules⟩ := tracks.chain
  rw [← created] at present
  have attained := tracks.attained
  rw [atMetric_eq_bestMembers tracks metrics] at exact_rules attained
  have isOnline : ∀ m ∈ env.bestMembers family policy.members,
      m ∈ policy.members ∧ env.Online family m := by
    intro m member
    obtain ⟨inMembers, online⟩ := List.mem_filter.mp (List.mem_of_mem_filter member)
    exact ⟨inMembers, of_decide_eq_true online⟩
  have bestIds : ∀ m ∈ env.bestMembers family policy.members,
      (env.ifaceId m.interface).isSome :=
    fun m member => ids m (isOnline m member).1 (isOnline m member).2
  have bestWeights : ∀ m ∈ env.bestMembers family policy.members, 0 < m.weight :=
    fun m member => weights m (isOnline m member).1
  clear isOnline
  generalize env.bestMembers family policy.members = best at exact_rules attained bestIds bestWeights ⊢
  refine ⟨chain, present, ?_⟩
  by_cases empty : best = []
  · subst empty
    obtain lowest := attained.resolve_right (fun nonempty => nonempty rfl)
    have shares := share_lastResort
      (by rw [exact_rules, Env.remainder, if_pos lowest]; rfl) fresh
    constructor
    · intro interface known
      obtain ⟨id, found⟩ := Option.isSome_iff_exists.mp known
      rw [shares, if_neg (mark_ne_lastResort mask found _).symm]
      simp
    · rw [shares, if_pos rfl, if_pos rfl]
  · have shares := share_balanced exact_rules mask empty bestWeights bestIds fresh
    constructor
    · intro interface known
      obtain ⟨id, found⟩ := Option.isSome_iff_exists.mp known
      have sameMark : ∀ m ∈ best, env.mark m.interface = env.mark interface ↔
          m.interface = interface := by
        intro m member
        obtain ⟨other, foundOther⟩ := Option.isSome_iff_exists.mp (bestIds m member)
        exact ⟨mark_injective mask foundOther found, congrArg env.mark⟩
      rw [shares, List.filter_congr fun m member => decide_eq_decide.mpr (sameMark m member)]
      rfl
    · have noMark : ∀ m ∈ best, ¬ env.mark m.interface = policy.lastResort.mark env.mask := by
        intro m member
        obtain ⟨other, foundOther⟩ := Option.isSome_iff_exists.mp (bestIds m member)
        exact mark_ne_lastResort mask foundOther policy.lastResort
      rw [shares, if_neg empty, List.filter_eq_nil_iff.mpr (by simpa using noMark)]
      simp [ChanceRule.totalWeight]

/-- Two interfaces of equal metric, the second without IPv6. -/
def twoWans : Env where
  mask := 0x3F00
  need _ := true
  ifaces := [⟨"wan", .any⟩, ⟨"wanb", .ipv4⟩]
  ifaceState _ _ := some "online"

def balancedPolicy : Policy :=
  ⟨"balanced", .unreachable, [⟨"wanb", 1, 2⟩, ⟨"wan", 1, 3⟩], by decide⟩

theorem createPoliciesIptables_balances_two_wans :
    ∃ chain,
      createPoliciesIptables twoWans balancedPolicy (fun _ _ => none) .ipv4
        (policyChain "balanced") = some chain ∧
      share twoWans chain 0 (twoWans.mark "wan") = 3 / 5 ∧
      share twoWans chain 0 (twoWans.mark "wanb") = 2 / 5 := by
  obtain ⟨chain, present, shares, -⟩ := createPoliciesIptables_balances twoWans balancedPolicy
    (fun _ _ => none) .ipv4 (by decide) rfl (by decide) (by decide) (by decide)
    (by decide +kernel) 0 (by decide)
  have best : twoWans.bestMembers .ipv4 balancedPolicy.members = balancedPolicy.members := by
    decide
  refine ⟨chain, present, ?_, ?_⟩
  · rw [shares "wan" (by decide +kernel), best]
    decide +kernel
  · rw [shares "wanb" (by decide +kernel), best]
    decide +kernel

end XWrt.Mwan3
