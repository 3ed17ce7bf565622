import Mathlib.Data.Finset.Insert
import XWrt.Mwan3.Sticky

/-!
# Runs of a sticky rule

The set of a sticky rule over connections, while its entries expire, the states
of the interfaces change and the policies and the user rules are set again.
-/

namespace XWrt.Mwan3

open XWrt.Foundation

/-! ## What a policy picks -/

section Picks

variable {env : Env} {policy : Policy} {family : Family} {flushed : Bool} {members : List Member} {mark t : Nat}

theorem mem_writtenRules {rule : Rule} (member : rule ∈ env.writtenRules flushed members) :
    ∃ m ∈ members, ∃ total probability, (∀ text ∈ probability, ∃ n ≤ 1000, text = probabilityText n) ∧
      rule = env.memberRule m ((env.ifaceId m.interface).getD 0) total probability := by
  induction members with
  | nil => exact absurd member List.not_mem_nil
  | cons m earlier ih =>
      rcases List.mem_cons.mp member with own | later
      · refine ⟨m, List.mem_cons_self, _, _, ?_, own⟩
        split
        · intro text none
          cases none
        · intro text some
          obtain rfl := Option.some.inj some
          refine ⟨_, Nat.div_le_of_le_mul ?_, rfl⟩
          rw [Nat.add_mul]
          exact Nat.le_add_right _ _
      · obtain ⟨other, inside, shape⟩ := ih later
        exact ⟨other, List.mem_cons_of_mem _ inside, shape⟩

/-- Every rule of a policy marks for an offered member or for the last resort. -/
theorem mem_policyRules {rule : Rule} (member : rule ∈ env.policyRules policy family) :
    rule.mask = env.mask ∧ (0 ≤ rule.written.chance ∧ rule.written.chance ≤ 1) ∧
      ((∃ m ∈ env.offered family policy.members, rule.setMark = env.mark m.interface) ∨
        rule.setMark = policy.lastResort.mark env.mask) := by
  rcases List.mem_append.mp member with offered | last
  · obtain ⟨m, inside, total, probability, texts, rfl⟩ := mem_writtenRules offered
    refine ⟨rfl, ?_, .inl ⟨m, List.mem_reverse.mp inside, rfl⟩⟩
    cases probability with
    | none => exact ⟨zero_le_one, le_rfl⟩
    | some text =>
        obtain ⟨n, most, rfl⟩ := texts text rfl
        have chance : (env.memberRule m ((env.ifaceId m.interface).getD 0) total (some (probabilityText n))).written.chance =
            n / 1000 := readProbability_probabilityText most
        rw [chance]
        constructor
        · positivity
        · rw [div_le_one (by norm_num)]
          exact_mod_cast most
  · split at last
    · cases last
    · obtain rfl := List.mem_singleton.mp last
      exact ⟨rfl, ⟨zero_le_one, le_rfl⟩, .inr rfl⟩

theorem exists_memberRule {m : Member} (inside : m ∈ members) :
    ∃ rule ∈ env.writtenRules flushed members, ∃ weight total, rule.comment = .member m.interface weight total := by
  induction members with
  | nil => exact absurd inside List.not_mem_nil
  | cons first earlier ih =>
      rcases List.mem_cons.mp inside with rfl | later
      · exact ⟨_, List.mem_cons_self, _, _, rfl⟩
      · obtain ⟨rule, member, comment⟩ := ih later
        exact ⟨rule, List.mem_cons_of_mem _ member, comment⟩

/-- The first member's rule always acts where its metric has flushed the chain. -/
theorem writtenRules_last (some : members ≠ []) :
    ∃ front last, env.writtenRules true members = front ++ [last] ∧ last.written.chance = 1 := by
  induction members with
  | nil => exact absurd rfl some
  | cons m earlier ih =>
      by_cases alone : earlier = []
      · subst alone
        exact ⟨[], _, rfl, rfl⟩
      · obtain ⟨front, last, rules, certain⟩ := ih alone
        exact ⟨_ :: front, last, congrArg (List.cons _) rules, certain⟩

/-- The last rule of a policy always acts, and those ahead of it are rules of members. -/
theorem policyRules_last (env : Env) (policy : Policy) (family : Family) :
    ∃ front last, env.policyRules policy family = front ++ [last] ∧ last.written.chance = 1 ∧
      ∀ rule ∈ front, ∃ m ∈ env.offered family policy.members, rule.setMark = env.mark m.interface := by
  have ofMember : ∀ {flushed rule}, rule ∈ env.writtenRules flushed (env.offered family policy.members).reverse →
      ∃ m ∈ env.offered family policy.members, rule.setMark = env.mark m.interface := by
    intro flushed rule member
    obtain ⟨m, inside, total, probability, -, rfl⟩ := mem_writtenRules member
    exact ⟨m, List.mem_reverse.mp inside, rfl⟩
  unfold Env.policyRules
  simp only
  split
  · rename_i flushed
    obtain ⟨m, member, -⟩ := List.any_eq_true.mp flushed
    have some : (env.offered family policy.members).reverse ≠ [] := by
      rw [Ne, List.reverse_eq_nil_iff]
      exact List.ne_nil_of_mem member
    rw [flushed, List.append_nil]
    obtain ⟨front, last, rules, certain⟩ := @writtenRules_last env _ some
    exact ⟨front, last, rules, certain, fun rule inside =>
      ofMember (rules ▸ List.mem_append_left _ inside)⟩
  · exact ⟨_, _, rfl, rfl, fun rule inside => ofMember inside⟩

theorem offered_isSome {m : Member} (offered : m ∈ env.offered family members) :
    (env.ifaceId m.interface).isSome = true := by
  have counted := List.mem_of_mem_filter offered
  exact (of_decide_eq_true (List.mem_filter.mp counted).2).2.2

/-- The comments of a policy name the offered interfaces. -/
theorem mem_comments_iff {name : String} :
    (∃ rule ∈ env.policyRules policy family, ∃ weight total, rule.comment = .member name weight total) ↔
      ∃ m ∈ env.offered family policy.members, m.interface = name := by
  constructor
  · rintro ⟨rule, member, weight, total, comment⟩
    rcases List.mem_append.mp member with offered | last
    · obtain ⟨m, inside, total, probability, -, rfl⟩ := mem_writtenRules offered
      exact ⟨m, List.mem_reverse.mp inside, (Comment.member.inj comment).1⟩
    · split at last
      · cases last
      · obtain rfl := List.mem_singleton.mp last
        cases comment
  · rintro ⟨m, inside, rfl⟩
    obtain ⟨rule, member, comment⟩ := @exists_memberRule env _ _ _ (List.mem_reverse.mpr inside)
    exact ⟨rule, List.mem_append_left _ member, comment⟩

/-- Whatever comes out of a policy was marked by one of its rules. -/
theorem marked_of_leaves (bound : env.mask < 2 ^ 32) (fresh : mark &&& env.mask = 0)
    (reached : 0 < ChanceRule.leaves ((env.policyRules policy family).map Rule.written) mark t) :
    (∃ m ∈ env.offered family policy.members, t = setXmark (env.mark m.interface) env.mask mark) ∨
      t = setXmark (policy.lastResort.mark env.mask) env.mask mark := by
  obtain ⟨front, last, rules, certain, members⟩ := policyRules_last env policy family
  have every : ∀ rule ∈ front ++ [last], rule.mask = env.mask ∧ (0 ≤ rule.written.chance ∧ rule.written.chance ≤ 1) ∧
      ((∃ m ∈ env.offered family policy.members, rule.setMark = env.mark m.interface) ∨
        rule.setMark = policy.lastResort.mark env.mask) := fun rule member => mem_policyRules (rules ▸ member)
  have lastMask := (every last (List.mem_append_right _ (List.mem_singleton_self _))).1
  rw [rules, List.map_append, List.map_singleton] at reached
  have acted := ChanceRule.exists_act_of_leaves_pos (m := mark) (t := t) ?_ ?_ ?_ certain reached
  · obtain ⟨other, member, act⟩ := acted
    rw [← List.map_singleton, ← List.map_append] at member
    obtain ⟨rule, inside, rfl⟩ := List.mem_map.mp member
    obtain ⟨mask, -, value⟩ := every rule inside
    have made : t = setXmark rule.setMark env.mask mark := by
      rw [← act, ← mask]
      rfl
    rw [made]
    rcases value with ⟨m, offered, own⟩ | own
    · exact .inl ⟨m, offered, by rw [own]⟩
    · exact .inr (by rw [own])
  · rw [← List.map_singleton, ← List.map_append]
    exact List.forall_mem_map.mpr fun rule member => (every rule member).2.1
  · intro other member later behind
    obtain ⟨rule, inside, rfl⟩ := List.mem_map.mp member
    rw [← List.map_singleton, ← List.map_append] at behind
    obtain ⟨next, nextMember, rfl⟩ := List.mem_map.mp behind
    obtain ⟨m, offered, own⟩ := members rule inside
    obtain ⟨id, found⟩ := Option.isSome_iff_exists.mp (offered_isSome offered)
    have ruleMask := (every rule (List.mem_append_left _ inside)).1
    have under : setXmark rule.setMark rule.mask mark &&& next.mask = env.mark m.interface := by
      rw [(every next nextMember).1, ruleMask, own]
      exact and_setXmark fresh (mark_and_mask env m.interface)
    exact decide_eq_false fun settled => mark_ne_zero bound found (under.symm.trans settled)
  · refine decide_eq_true ?_
    rw [lastMask]
    exact fresh

theorem exists_leaves (env : Env) (policy : Policy) (family : Family) (mark : Nat) :
    ∃ t, 0 < ChanceRule.leaves ((env.policyRules policy family).map Rule.written) mark t := by
  refine ChanceRule.exists_leaves_pos ?_ mark
  exact List.forall_mem_map.mpr fun rule member => (mem_policyRules member).2.1

end Picks

/-! ## The machine -/

/-- The state files of the interfaces. -/
abbrev IfaceStates := String → Family → Option String

/-- A configuration with one of its sticky rules, for one family. -/
structure StickyConfig where
  mask : Nat
  need : Family → Bool
  ifaces : List Iface
  policies : List Policy
  rule : UserRule
  family : Family

structure StickyState where
  /-- the states that the policies were set for -/
  states : IfaceStates
  tables : Family → Table
  /-- what the last `mwan3_set_user_rules` saw, and the states that the policies were set for then -/
  view : RuleView
  ruleStates : IfaceStates
  entries : Finset (Nat × Nat)

inductive StickyEvent where
  | setPolicies (states : IfaceStates)
  | setUserRules (found : String → Bool) (chains : IfaceChains) (table : MarkTable)
  | expire (gone : Finset (Nat × Nat))
  /-- A connection from `source` with fwmark `fwmark`, which the policy would give the mark `picked`. -/
  | connect (source fwmark picked : Nat)

namespace StickyConfig

variable (c : StickyConfig)

def env (states : IfaceStates) : Env := ⟨c.mask, c.need, c.ifaces, states⟩

def chain (s : StickyState) : List StickyRule := stickyChain (c.env s.states) s.view c.rule

/-- The connection after the chain. -/
def pass (s : StickyState) (source fwmark picked : Nat) : StickyPacket :=
  passChain c.mask source picked (c.chain s) ⟨fwmark, s.entries⟩

def setPolicies (states : IfaceStates) (tables : Family → Table) : Family → Table :=
  setPoliciesIptables (c.env states) c.policies tables

def viewOf (found : String → Bool) (chains : IfaceChains) (table : MarkTable) (tables : Family → Table) : RuleView :=
  ⟨c.policies.map Policy.name, found, chains, table, tables c.family⟩

def run (s : StickyState) : StickyEvent → StickyState
  | .setPolicies states => { s with states := states, tables := c.setPolicies states s.tables }
  | .setUserRules found chains table =>
      if c.rule.sticks found c.family then
        { s with view := c.viewOf found chains table s.tables, ruleStates := s.states }
      else s
  | .expire gone => { s with entries := s.entries \ gone }
  | .connect source fwmark picked => { s with entries := (c.pass s source fwmark picked).entries }

def machine : Transducer StickyState StickyEvent Unit where
  step s event := (c.run s event, [])

/-- After the first start, with any entries. -/
def begin (states : IfaceStates) (found : String → Bool) (chains : IfaceChains) (table : MarkTable)
    (entries : Finset (Nat × Nat)) : StickyState :=
  let tables := c.setPolicies states fun _ _ => none
  ⟨states, tables, c.viewOf found chains table tables, states, entries⟩

/-- The policy can give a connection with fwmark `fwmark` the mark `t`. -/
def Picks (s : StickyState) (fwmark t : Nat) : Prop :=
  0 < ChanceRule.leaves (((s.tables c.family (policyChain c.rule.usePolicy)).getD []).map Rule.written) fwmark t

/-- Only connections without a mark reach the chain, and the policy treats them as it can. -/
def Possible (s : StickyState) : StickyEvent → Prop
  | .connect _ fwmark picked => fwmark &&& c.mask = 0 ∧ c.Picks s fwmark picked
  | _ => True

/-- The rule's policy, as `mwan3_create_policies_iptables` accepts it. -/
structure Follows (policy : Policy) : Prop where
  listed : policy ∈ c.policies
  named : policy.name = c.rule.usePolicy
  short : policy.name.length ≤ 15
  distinct : (c.policies.map Policy.name).Nodup
  needed : c.need c.family = true
  bound : c.mask < 2 ^ 32

/-- The members that the policy offers now. -/
def offers (policy : Policy) (s : StickyState) : List Member :=
  (c.env s.states).offered c.family policy.members

/-- The mark of an interface; it does not depend on the states. -/
def mark (name : String) : Nat := (c.env fun _ _ => none).mark name

/-- The interfaces that the chain tries. -/
def tries (s : StickyState) : List String := s.view.tried (c.env s.states) c.rule

/-- The connection gets the mark of an offered interface or of the last resort, and where its source
has an entry for an offered interface, the mark of such an interface. -/
def SentWithin (policy : Policy) (s : StickyState) (source fwmark picked : Nat) : Prop :=
  let left := (c.pass s source fwmark picked).mark &&& c.mask
  ((∃ m ∈ c.offers policy s, left = c.mark m.interface) ∨ left = policy.lastResort.mark c.mask) ∧
    ((∃ m ∈ c.offers policy s, (source, c.mark m.interface) ∈ s.entries) →
      ∃ m ∈ c.offers policy s, (source, c.mark m.interface) ∈ s.entries ∧ left = c.mark m.interface)

/-- When the rules were last set, the interface had a chain and was offered by a policy whose name
starts like that of the rule's policy. -/
def Seen (s : StickyState) (name : String) : Prop :=
  ∃ other ∈ c.policies, other.name.length ≤ 15 ∧ c.rule.usePolicy.toList <+: other.name.toList ∧
    (∃ m ∈ (c.env s.ruleStates).offered c.family other.members, m.interface = name) ∧
    ifaceChain name ∈ s.view.chains

/-- The seen interfaces are offered by the rule's policy, and they are all that it offers unless it
picks nothing else. -/
def SeesOffered (policy : Policy) (s : StickyState) (fwmark : Nat) : Prop :=
  (∀ name, c.Seen s name → ∃ m ∈ c.offers policy s, m.interface = name) ∧
    ∀ m ∈ c.offers policy s, c.Seen s m.interface ∨
      ∀ t, c.Picks s fwmark t → t &&& c.mask = c.mark m.interface

/-- The mark of an interface. -/
def IfaceMark (mark : Nat) : Prop :=
  ∃ name, ((c.env fun _ _ => none).ifaceId name).isSome = true ∧ mark = c.mark name

/-- The set holds marks of interfaces after the connection, and the connection's own if it has one. -/
def Remembers (s : StickyState) (source fwmark picked : Nat) : Prop :=
  let after := c.pass s source fwmark picked
  (∀ entry ∈ after.entries, c.IfaceMark entry.2) ∧
    (c.IfaceMark (after.mark &&& c.mask) → (source, after.mark &&& c.mask) ∈ after.entries)

/-- The match `! --mark 0xfc00/0xfc00` after `--set-xmark mark/$MMX_MASK`. -/
def Written (fwmark mark : Nat) : Prop := setXmark mark c.mask fwmark &&& 0xfc00 ≠ 0xfc00

/-- Of the marks that the policy can pick, the fixed match passes those of interfaces and stops the
last resort's. -/
def Separates (policy : Policy) (s : StickyState) (fwmark : Nat) : Prop :=
  (∀ m ∈ c.offers policy s, c.Picks s fwmark (setXmark (c.mark m.interface) c.mask fwmark) →
    c.Written fwmark (c.mark m.interface)) ∧
  (c.Picks s fwmark (setXmark (policy.lastResort.mark c.mask) c.mask fwmark) →
    ¬ c.Written fwmark (policy.lastResort.mark c.mask))

end StickyConfig

/-! ## One connection -/

section Connection

variable {c : StickyConfig} {policy : Policy} {s : StickyState} {source fwmark picked : Nat}

theorem mem_tries {name : String} (tried : name ∈ c.tries s) : ((c.env s.states).ifaceId name).isSome = true := by
  obtain ⟨iface, -, inside⟩ := List.mem_flatMap.mp tried
  exact (of_decide_eq_true (List.mem_filter.mp inside).2).2.1

theorem mark_and (c : StickyConfig) (name : String) : c.mark name &&& c.mask = c.mark name := mark_and_mask _ _

theorem tries_inside (bound : c.mask < 2 ^ 32) :
    ∀ mark ∈ (c.tries s).reverse.map c.mark, mark &&& c.mask = mark ∧ mark ≠ 0 := by
  intro mark member
  obtain ⟨name, tried, rfl⟩ := List.mem_map.mp member
  obtain ⟨id, found⟩ := Option.isSome_iff_exists.mp (mem_tries (List.mem_reverse.mp tried))
  exact ⟨mark_and c name, mark_ne_zero bound found⟩

/-- The mark under which the chain tries first an interface with an entry. -/
def StickyConfig.kept (c : StickyConfig) (s : StickyState) (source : Nat) : Option Nat :=
  ((c.tries s).reverse.map c.mark).find? fun mark => (source, mark) ∈ s.entries

theorem pass_eq (bound : c.mask < 2 ^ 32) (fresh : fwmark &&& c.mask = 0) :
    let left := ((c.kept s source).map (setXmark · c.mask fwmark)).getD picked
    c.pass s source fwmark picked = ⟨left, stickyEntries c.mask source left s.entries⟩ := by
  have rules : c.chain s = (((c.tries s).reverse.map c.mark).flatMap fun mark => [.attempt mark, .release mark]) ++
      [.policy, .delete, .add] := by
    rw [List.flatMap_map]
    rfl
  rw [StickyConfig.pass, rules]
  exact pass_stickyRules fresh (tries_inside bound)

theorem pass_mark (bound : c.mask < 2 ^ 32) (fresh : fwmark &&& c.mask = 0) :
    (c.pass s source fwmark picked).mark &&& c.mask = (c.kept s source).getD (picked &&& c.mask) := by
  rw [pass_eq bound fresh]
  cases found : c.kept s source with
  | none => rfl
  | some mark => exact and_setXmark fresh (tries_inside bound mark (List.mem_of_find?_eq_some found)).1

theorem kept_eq_some {mark : Nat} (found : c.kept s source = some mark) :
    (∃ name ∈ c.tries s, c.mark name = mark) ∧ (source, mark) ∈ s.entries := by
  obtain ⟨name, tried, own⟩ := List.mem_map.mp (List.mem_of_find?_eq_some found)
  have entry := List.find?_some found
  exact ⟨⟨name, List.mem_reverse.mp tried, own⟩, of_decide_eq_true entry⟩

theorem kept_eq_none (none : c.kept s source = none) {name : String} (tried : name ∈ c.tries s) :
    (source, c.mark name) ∉ s.entries := by
  have every := List.find?_eq_none.mp none (c.mark name) (List.mem_map_of_mem (List.mem_reverse.mpr tried))
  exact fun entry => every (decide_eq_true entry)

/-- The chains of the policies are those of the states, in the table and as the rules saw them. -/
structure StickyConfig.Installed (c : StickyConfig) (s : StickyState) : Prop where
  policies : ∀ other ∈ c.policies, other.name.length ≤ 15 →
    s.tables c.family (policyChain other.name) = some ((c.env s.states).policyRules other c.family)
  long : ∀ other ∈ c.policies, 15 < other.name.length → s.tables c.family (policyChain other.name) = none
  names : s.view.policies = c.policies.map Policy.name
  seen : ∀ other ∈ c.policies, other.name.length ≤ 15 →
    s.view.policyTable (policyChain other.name) = some ((c.env s.ruleStates).policyRules other c.family)
  unseen : ∀ other ∈ c.policies, 15 < other.name.length → s.view.policyTable (policyChain other.name) = none

theorem picks_iff (installed : c.Installed s) (follows : c.Follows policy) (t : Nat) :
    c.Picks s fwmark t ↔
      0 < ChanceRule.leaves (((c.env s.states).policyRules policy c.family).map Rule.written) fwmark t := by
  rw [StickyConfig.Picks, ← follows.named, installed.policies policy follows.listed follows.short]
  rfl

/-- The chain tries the interfaces that the rules saw. -/
theorem mem_tries_iff (installed : c.Installed s) (name : String) : name ∈ c.tries s ↔ c.Seen s name := by
  have members : name ∈ s.view.members c.rule ↔ ∃ other ∈ c.policies, other.name.length ≤ 15 ∧
      c.rule.usePolicy.toList <+: other.name.toList ∧
      ∃ m ∈ (c.env s.ruleStates).offered c.family other.members, m.interface = name := by
    unfold RuleView.members
    rw [installed.names]
    simp only [List.mem_flatMap, List.mem_filter, List.mem_map, List.isPrefixOf_iff_prefix, List.mem_filterMap]
    constructor
    · rintro ⟨_, ⟨⟨other, listed, rfl⟩, pre⟩, rule, inside, comment⟩
      by_cases short : other.name.length ≤ 15
      · rw [installed.seen other listed short, Option.getD_some] at inside
        refine ⟨other, listed, short, pre, mem_comments_iff.mp ⟨rule, inside, ?_⟩⟩
        split at comment
        · rename_i interface weight total own
          obtain rfl := Option.some.inj comment
          exact ⟨weight, total, own⟩
        · cases comment
      · rw [installed.unseen other listed (not_le.mp short)] at inside
        cases inside
    · rintro ⟨other, listed, short, pre, offered⟩
      obtain ⟨rule, inside, weight, total, comment⟩ := mem_comments_iff.mpr offered
      refine ⟨_, ⟨⟨other, listed, rfl⟩, pre⟩, rule, ?_, by rw [comment]⟩
      rwa [installed.seen other listed short]
  constructor
  · intro tried
    obtain ⟨iface, -, inside⟩ := List.mem_flatMap.mp tried
    obtain ⟨member, kept⟩ := List.mem_filter.mp inside
    obtain ⟨other, listed, short, pre, offered⟩ := members.mp member
    exact ⟨other, listed, short, pre, offered, (of_decide_eq_true kept).2.2⟩
  · rintro ⟨other, listed, short, pre, offered, present⟩
    have some : ((c.env s.states).ifaceId name).isSome = true := by
      obtain ⟨m, member, rfl⟩ := offered
      exact @offered_isSome (c.env s.ruleStates) _ _ _ member
    obtain ⟨id, found⟩ := Option.isSome_iff_exists.mp some
    obtain ⟨index, at_, -, -⟩ := ifaceId_eq_some.mp found
    rw [List.findIdx?_eq_some_iff_getElem] at at_
    obtain ⟨bound, own, -⟩ := at_
    refine List.mem_flatMap.mpr ⟨_, List.getElem_mem bound, List.mem_filter.mpr ⟨?_, ?_⟩⟩
    · exact members.mpr ⟨other, listed, short, pre, offered⟩
    · exact decide_eq_true ⟨(of_decide_eq_true own).symm, some, present⟩

/-- What the policy picks is the mark of an offered interface or of the last resort. -/
theorem picked_marks (installed : c.Installed s) (follows : c.Follows policy) (fresh : fwmark &&& c.mask = 0)
    (picks : c.Picks s fwmark picked) :
    (∃ m ∈ c.offers policy s, picked = setXmark (c.mark m.interface) c.mask fwmark) ∨
      picked = setXmark (policy.lastResort.mark c.mask) c.mask fwmark :=
  @marked_of_leaves (c.env s.states) _ _ _ _ follows.bound fresh ((picks_iff installed follows picked).mp picks)

theorem lastResort_and (lastResort : LastResort) (mask : Nat) :
    lastResort.mark mask &&& mask = lastResort.mark mask := by
  cases lastResort with
  | blackhole => exact id2mask_inside (mmBlackhole mask) mask
  | default => exact id2mask_inside (mmDefault mask) mask
  | unreachable => exact id2mask_inside (mmUnreachable mask) mask

theorem sentWithin_of_seesOffered (installed : c.Installed s) (follows : c.Follows policy)
    (fresh : fwmark &&& c.mask = 0) (picks : c.Picks s fwmark picked) (sees : c.SeesOffered policy s fwmark) :
    c.SentWithin policy s source fwmark picked := by
  obtain ⟨onlyOffered, allOffered⟩ := sees
  unfold StickyConfig.SentWithin
  rw [pass_mark follows.bound fresh]
  cases found : c.kept s source with
  | some mark =>
      obtain ⟨⟨name, tried, rfl⟩, entry⟩ := kept_eq_some found
      obtain ⟨m, offered, rfl⟩ := onlyOffered name ((mem_tries_iff installed name).mp tried)
      exact ⟨.inl ⟨m, offered, rfl⟩, fun _ => ⟨m, offered, entry, rfl⟩⟩
  | none =>
      constructor
      · rcases picked_marks installed follows fresh picks with ⟨m, offered, rfl⟩ | rfl
        · exact .inl ⟨m, offered, and_setXmark fresh (mark_and c _)⟩
        · exact .inr (and_setXmark fresh (lastResort_and _ _))
      · rintro ⟨m, offered, entry⟩
        rcases allOffered m offered with seen | only
        · exact absurd entry (kept_eq_none found ((mem_tries_iff installed _).mpr seen))
        · exact ⟨m, offered, entry, only picked picks⟩

/-- The condition is exact: where it fails, some entries send a connection elsewhere. -/
theorem seesOffered_of_sentWithin (installed : c.Installed s) (follows : c.Follows policy)
    (fresh : fwmark &&& c.mask = 0)
    (sent : ∀ entries picked, c.Picks s fwmark picked →
      c.SentWithin policy { s with entries := entries } source fwmark picked) :
    c.SeesOffered policy s fwmark := by
  -- A client with one entry, for the interface in question.
  have single : ∀ (name : String) {picked : Nat}, c.Picks s fwmark picked →
      c.SentWithin policy { s with entries := {(source, c.mark name)} } source fwmark picked :=
    fun _ _ picks => sent _ _ picks
  have same : ∀ {name other : String}, ((c.env s.states).ifaceId name).isSome = true →
      ((c.env s.states).ifaceId other).isSome = true → c.mark name = c.mark other → name = other := by
    intro name other ofName ofOther equal
    obtain ⟨id, found⟩ := Option.isSome_iff_exists.mp ofName
    obtain ⟨id', found'⟩ := Option.isSome_iff_exists.mp ofOther
    exact @mark_injective (c.env s.states) follows.bound _ _ _ _ found found' equal
  constructor
  · intro name seen
    have tried := (mem_tries_iff installed name).mpr seen
    obtain ⟨picked, picks⟩ := exists_leaves (c.env s.states) policy c.family fwmark
    have here := (single name ((picks_iff installed follows picked).mpr picks)).1
    have kept : c.kept { s with entries := {(source, c.mark name)} } source = some (c.mark name) := by
      cases found : c.kept { s with entries := {(source, c.mark name)} } source with
      | none => exact absurd (Finset.mem_singleton_self _) (kept_eq_none found tried)
      | some mark =>
          have entry := Finset.mem_singleton.mp (kept_eq_some found).2
          exact congrArg some (Prod.mk.inj entry).2
    rw [pass_mark follows.bound fresh, kept, Option.getD_some] at here
    obtain ⟨id, found⟩ := Option.isSome_iff_exists.mp (mem_tries tried)
    rcases here with ⟨m, offered, equal⟩ | last
    · exact ⟨m, offered, (same (mem_tries tried) (offered_isSome offered) equal).symm⟩
    · exact absurd last (@mark_ne_lastResort (c.env s.states) follows.bound _ _ found policy.lastResort)
  · intro m offered
    by_cases tried : m.interface ∈ c.tries s
    · exact .inl ((mem_tries_iff installed _).mp tried)
    · refine .inr fun t picks => ?_
      have here := (single m.interface picks).2 ⟨m, offered, Finset.mem_singleton_self _⟩
      have none : c.kept { s with entries := {(source, c.mark m.interface)} } source = none := by
        cases found : c.kept { s with entries := {(source, c.mark m.interface)} } source with
        | none => rfl
        | some mark =>
            obtain ⟨⟨name, inside, own⟩, entry⟩ := kept_eq_some found
            rw [← own] at entry
            have equal := (Prod.mk.inj (Finset.mem_singleton.mp entry)).2
            exact absurd (same (mem_tries inside) (offered_isSome offered) equal ▸ inside) tried
      rw [pass_mark follows.bound fresh, none, Option.getD_none] at here
      obtain ⟨other, -, entry, left⟩ := here
      rw [left]
      exact (Prod.mk.inj (Finset.mem_singleton.mp entry)).2

theorem ifaceMark_of_offered {m : Member} (offered : m ∈ c.offers policy s) : c.IfaceMark (c.mark m.interface) :=
  ⟨m.interface, @offered_isSome (c.env s.states) _ _ _ offered, rfl⟩

theorem lastResort_not_ifaceMark (bound : c.mask < 2 ^ 32) (lastResort : LastResort) :
    ¬ c.IfaceMark (lastResort.mark c.mask) := by
  rintro ⟨name, some, same⟩
  obtain ⟨id, found⟩ := Option.isSome_iff_exists.mp some
  exact @mark_ne_lastResort (c.env fun _ _ => none) bound _ _ found lastResort same.symm

theorem kept_eq_none_of_empty : c.kept { s with entries := ∅ } source = none :=
  List.find?_eq_none.mpr fun _ _ => by simp

theorem remembers_of_separates (installed : c.Installed s) (follows : c.Follows policy)
    (fresh : fwmark &&& c.mask = 0) (picks : c.Picks s fwmark picked) (separates : c.Separates policy s fwmark)
    (clean : ∀ entry ∈ s.entries, c.IfaceMark entry.2) : c.Remembers s source fwmark picked := by
  obtain ⟨interfaces, last⟩ := separates
  unfold StickyConfig.Remembers
  rw [pass_eq follows.bound fresh]
  simp only
  cases found : c.kept s source with
  | some mark =>
      -- The entry is there already, whether or not it is written again.
      obtain ⟨-, entry⟩ := kept_eq_some found
      have under : setXmark mark c.mask fwmark &&& c.mask = mark :=
        and_setXmark fresh (tries_inside follows.bound mark (List.mem_of_find?_eq_some found)).1
      simp only [Option.map_some, Option.getD_some, under, stickyEntries]
      split
      · rw [Finset.insert_eq_self.mpr entry]
        exact ⟨clean, fun _ => entry⟩
      · exact ⟨clean, fun _ => entry⟩
  | none =>
      simp only [Option.map_none, Option.getD_none, stickyEntries]
      rcases picked_marks installed follows fresh picks with ⟨m, offered, rfl⟩ | rfl
      · have written : setXmark (c.mark m.interface) c.mask fwmark &&& 0xfc00 ≠ 0xfc00 := interfaces m offered picks
        rw [if_pos written, and_setXmark fresh (mark_and c _)]
        refine ⟨fun entry member => ?_, fun _ => Finset.mem_insert_self _ _⟩
        rcases Finset.mem_insert.mp member with rfl | before
        · exact ifaceMark_of_offered offered
        · exact clean entry before
      · have stopped : ¬ setXmark (policy.lastResort.mark c.mask) c.mask fwmark &&& 0xfc00 ≠ 0xfc00 := last picks
        rw [if_neg stopped, and_setXmark fresh (lastResort_and _ _)]
        exact ⟨clean, fun own => absurd own (lastResort_not_ifaceMark follows.bound _)⟩

/-- The condition is exact: where it fails, a connection leaves the empty set wrong. -/
theorem separates_of_remembers (follows : c.Follows policy) (fresh : fwmark &&& c.mask = 0)
    (remembers : ∀ picked, c.Picks s fwmark picked → c.Remembers { s with entries := ∅ } source fwmark picked) :
    c.Separates policy s fwmark := by
  have picked : ∀ {picked}, c.Picks s fwmark picked →
      (∀ entry ∈ stickyEntries c.mask source picked ∅, c.IfaceMark entry.2) ∧
        (c.IfaceMark (picked &&& c.mask) → (source, picked &&& c.mask) ∈ stickyEntries c.mask source picked ∅) := by
    intro picked picks
    have here := remembers picked picks
    unfold StickyConfig.Remembers at here
    rw [pass_eq follows.bound fresh, kept_eq_none_of_empty] at here
    exact here
  constructor
  · intro m offered picks stopped
    obtain ⟨-, own⟩ := picked picks
    rw [and_setXmark fresh (mark_and c _), stickyEntries, if_neg (not_not_intro stopped)] at own
    exact absurd (own (ifaceMark_of_offered offered)) (Finset.notMem_empty _)
  · intro picks written
    obtain ⟨clean, -⟩ := picked picks
    have passes : setXmark (policy.lastResort.mark c.mask) c.mask fwmark &&& 0xfc00 ≠ 0xfc00 := written
    rw [stickyEntries, if_pos passes, and_setXmark fresh (lastResort_and _ _)] at clean
    exact lastResort_not_ifaceMark follows.bound _ (clean _ (Finset.mem_insert_self _ _))

end Connection

/-! ## Runs -/

section Runs

variable {c : StickyConfig} {policy : Policy}

theorem setPolicies_short (follows : c.Follows policy) (states : IfaceStates) (tables : Family → Table)
    {other : Policy} (listed : other ∈ c.policies) (short : other.name.length ≤ 15) :
    c.setPolicies states tables c.family (policyChain other.name) =
      some ((c.env states).policyRules other c.family) :=
  @setPoliciesIptables_chain (c.env states) _ _ _ follows.needed follows.distinct listed short tables

theorem setPolicies_long (follows : c.Follows policy) (states : IfaceStates) (tables : Family → Table)
    {other : Policy} (long : 15 < other.name.length) :
    c.setPolicies states tables c.family (policyChain other.name) = tables c.family (policyChain other.name) :=
  @setPoliciesIptables_long (c.env states) _ _ follows.needed long c.policies tables

/-- Every event keeps the chains those of the states. -/
theorem run_installed (follows : c.Follows policy) {s : StickyState} (installed : c.Installed s) (event : StickyEvent) :
    c.Installed (c.run s event) := by
  obtain ⟨policies, long, names, seen, unseen⟩ := installed
  cases event with
  | setPolicies states =>
      exact ⟨fun other listed short => setPolicies_short follows states s.tables listed short,
        fun other listed above => (setPolicies_long follows states s.tables above).trans (long other listed above),
        names, seen, unseen⟩
  | setUserRules found chains table =>
      unfold StickyConfig.run
      simp only
      split
      · exact ⟨policies, long, rfl, policies, long⟩
      · exact ⟨policies, long, names, seen, unseen⟩
  | expire gone => exact ⟨policies, long, names, seen, unseen⟩
  | connect source fwmark picked => exact ⟨policies, long, names, seen, unseen⟩

theorem begin_installed (follows : c.Follows policy) (states : IfaceStates) (found : String → Bool)
    (chains : IfaceChains) (table : MarkTable) (entries : Finset (Nat × Nat)) :
    c.Installed (c.begin states found chains table entries) := by
  have short : ∀ other ∈ c.policies, other.name.length ≤ 15 → _ :=
    fun other listed short => setPolicies_short follows states (fun _ _ => none) listed short
  have long : ∀ other ∈ c.policies, 15 < other.name.length → _ :=
    fun other _ above => setPolicies_long follows states (fun _ _ => none) above
  exact ⟨short, long, rfl, short, long⟩

theorem trace_installed (follows : c.Follows policy) {s : StickyState} (installed : c.Installed s)
    (events : List StickyEvent) : ∀ e ∈ c.machine.trace s events, c.Installed e.before := by
  induction events generalizing s with
  | nil => exact List.forall_mem_nil _
  | cons event events ih => exact List.forall_mem_cons.mpr ⟨installed, ih (run_installed follows installed event)⟩

/-- In every run in which, at each connection, the interfaces that the rules saw are those that the
policy offers, the connections stay within the policy. -/
theorem sticky_sentWithin (c : StickyConfig) (policy : Policy) (follows : c.Follows policy) (states : IfaceStates)
    (found : String → Bool) (chains : IfaceChains) (table : MarkTable) (entries : Finset (Nat × Nat))
    (events : List StickyEvent)
    (possible : c.machine.AllSteps c.Possible (c.begin states found chains table entries) events)
    (sees : c.machine.AllSteps (fun s event => ∀ source fwmark picked, event = .connect source fwmark picked →
      c.SeesOffered policy s fwmark) (c.begin states found chains table entries) events) :
    ∀ e ∈ c.machine.trace (c.begin states found chains table entries) events,
      ∀ source fwmark picked, e.input = .connect source fwmark picked →
        c.SentWithin policy e.before source fwmark picked := by
  intro e member source fwmark picked connect
  have installed := trace_installed follows (begin_installed follows states found chains table entries) events e member
  have can := possible e member
  rw [connect] at can
  exact sentWithin_of_seesOffered installed follows can.1 can.2 (sees e member source fwmark picked connect)

/-- Two uplinks, the second one for when the first is down, and a policy with a longer name. -/
def failover : StickyConfig where
  mask := 0x3F00
  need _ := true
  ifaces := [⟨"wan", .any⟩, ⟨"wanb", .any⟩]
  policies := [⟨"balanced", .unreachable, [⟨"wan", 1, 1⟩, ⟨"wanb", 2, 1⟩], by decide⟩,
    ⟨"balanced_wanb", .unreachable, [⟨"wanb", 1, 1⟩], by decide⟩]
  rule := ⟨"web", "balanced", true, none, .any, false⟩
  family := .ipv4

def failoverPolicy : Policy := ⟨"balanced", .unreachable, [⟨"wan", 1, 1⟩, ⟨"wanb", 2, 1⟩], by decide⟩

/-- The files while the listed interfaces are up. -/
def upStates (up : List String) : IfaceStates := fun name _ =>
  if name ∈ up then some "online" else some "offline"

def bothChains : IfaceChains := AList.insert (ifaceChain "wan") [] (AList.insert (ifaceChain "wanb") [] ∅)

def failoverBegin (up : List String) : StickyState :=
  failover.begin (upStates up) (fun _ => true) bothChains (fun _ => none) ∅

theorem failover_follows : failover.Follows failoverPolicy := ⟨by decide, rfl, by decide, by decide, rfl, by decide⟩

/-- The second uplink serves a client, then the first one takes over, and the client comes twice more. -/
def failsOver : List StickyEvent :=
  [.connect 7 0 0x200, .setPolicies (upStates ["wan"]), .setUserRules (fun _ => true) bothChains (fun _ => none),
    .connect 7 0 0x100, .connect 7 0 0x100]

/-- The second uplink is up, and another client has an entry from before. -/
def remembering : StickyState := failover.begin (upStates ["wanb"]) (fun _ => true) bothChains (fun _ => none) {(9, 0x100)}

theorem failsOver_possible : failover.machine.AllSteps failover.Possible remembering failsOver := by
  have picks : failover.Picks remembering 0 0x200 ∧ failover.Picks (failover.machine.final remembering (failsOver.take 3)) 0 0x100 ∧
      failover.Picks (failover.machine.final remembering (failsOver.take 4)) 0 0x100 := by
    unfold StickyConfig.Picks
    decide +kernel
  simp only [failsOver, Transducer.allSteps_cons, Transducer.allSteps_nil, and_true]
  exact ⟨⟨rfl, picks.1⟩, trivial, trivial, ⟨rfl, picks.2.1⟩, rfl, picks.2.2⟩

theorem seesOffered_of_tries {s : StickyState} (installed : failover.Installed s)
    (offered : ∀ name ∈ failover.tries s, ∃ m ∈ failover.offers failoverPolicy s, m.interface = name)
    (tried : ∀ m ∈ failover.offers failoverPolicy s, m.interface ∈ failover.tries s) (fwmark : Nat) :
    failover.SeesOffered failoverPolicy s fwmark :=
  ⟨fun name seen => offered name ((mem_tries_iff installed name).mpr seen),
    fun m member => .inl ((mem_tries_iff installed _).mp (tried m member))⟩

theorem sticky_sentWithin_failover :
    failover.machine.AllSteps failover.Possible remembering failsOver ∧
      ∀ e ∈ failover.machine.trace remembering failsOver, ∀ source fwmark picked, e.input = .connect source fwmark picked →
        failover.SentWithin failoverPolicy e.before source fwmark picked := by
  refine ⟨failsOver_possible, sticky_sentWithin failover failoverPolicy failover_follows (upStates ["wanb"]) (fun _ => true)
    bothChains (fun _ => none) {(9, 0x100)} failsOver failsOver_possible ?_⟩
  have begins := begin_installed failover_follows (upStates ["wanb"]) (fun _ => true) bothChains (fun _ => none) {(9, 0x100)}
  have served := run_installed failover_follows begins (.connect 7 0 0x200)
  have moved := run_installed failover_follows served (.setPolicies (upStates ["wan"]))
  have switched := run_installed failover_follows moved (.setUserRules (fun _ => true) bothChains (fun _ => none))
  have again := run_installed failover_follows switched (.connect 7 0 0x100)
  simp only [failsOver, Transducer.allSteps_cons, Transducer.allSteps_nil, and_true]
  refine ⟨?_, ?_, ?_, ?_, ?_⟩
  · exact fun _ fwmark _ _ => seesOffered_of_tries begins (by decide +kernel) (by decide +kernel) fwmark
  · rintro _ _ _ ⟨⟩
  · rintro _ _ _ ⟨⟩
  · exact fun _ fwmark _ _ => seesOffered_of_tries switched (by decide +kernel) (by decide +kernel) fwmark
  · exact fun _ fwmark _ _ => seesOffered_of_tries again (by decide +kernel) (by decide +kernel) fwmark

/-- A client comes while the second uplink serves it, and again when the first is back. -/
def comesAgain : List StickyEvent :=
  [.connect 7 0 0x200, .setPolicies (upStates ["wan", "wanb"]), .setUserRules (fun _ => true) bothChains (fun _ => none),
    .connect 7 0 0x100]

/-- The second connection goes to an interface of the other policy. -/
theorem sticky_follows_other_policy :
    failover.Follows failoverPolicy ∧
      failover.machine.AllSteps failover.Possible (failoverBegin ["wanb"]) comesAgain ∧
      ¬ ∀ e ∈ failover.machine.trace (failoverBegin ["wanb"]) comesAgain,
        ∀ source fwmark picked, e.input = .connect source fwmark picked →
          failover.SentWithin failoverPolicy e.before source fwmark picked := by
  refine ⟨failover_follows, ?_, fun every => ?_⟩
  · have first : failover.Picks (failoverBegin ["wanb"]) 0 0x200 := by
      unfold StickyConfig.Picks
      decide +kernel
    have second : failover.Picks (failover.machine.final (failoverBegin ["wanb"]) (comesAgain.take 3)) 0 0x100 := by
      unfold StickyConfig.Picks
      decide +kernel
    simp only [comesAgain, Transducer.allSteps_cons, Transducer.allSteps_nil, and_true]
    exact ⟨⟨rfl, first⟩, trivial, trivial, rfl, second⟩
  · have sent := (every (failover.machine.entry (failover.machine.final (failoverBegin ["wanb"]) (comesAgain.take 3))
      (.connect 7 0 0x100)) (by simp [comesAgain]) 7 0 0x100 rfl).1
    revert sent
    decide +kernel

/-- Expired entries and connections leave marks of interfaces. -/
theorem run_clean (follows : c.Follows policy) {s : StickyState} (installed : c.Installed s) {event : StickyEvent}
    (possible : c.Possible s event)
    (separates : ∀ source fwmark picked, event = .connect source fwmark picked → c.Separates policy s fwmark)
    (clean : ∀ entry ∈ s.entries, c.IfaceMark entry.2) : ∀ entry ∈ (c.run s event).entries, c.IfaceMark entry.2 := by
  cases event with
  | setPolicies states => exact clean
  | setUserRules found chains table =>
      unfold StickyConfig.run
      simp only
      split
      · exact clean
      · exact clean
  | expire gone => exact fun entry member => clean entry (Finset.mem_sdiff.mp member).1
  | connect source fwmark picked =>
      exact (@remembers_of_separates _ _ _ source _ _ installed follows possible.1 possible.2
        (separates source fwmark picked rfl) clean).1

/-- In every run in which the fixed match separates the marks that the policy can pick, the set
remembers the choices of interfaces and nothing else. -/
theorem sticky_remembers (c : StickyConfig) (policy : Policy) (follows : c.Follows policy) (states : IfaceStates)
    (found : String → Bool) (chains : IfaceChains) (table : MarkTable) (entries : Finset (Nat × Nat))
    (clean : ∀ entry ∈ entries, c.IfaceMark entry.2) (events : List StickyEvent)
    (possible : c.machine.AllSteps c.Possible (c.begin states found chains table entries) events)
    (separates : c.machine.AllSteps (fun s event => ∀ source fwmark picked, event = .connect source fwmark picked →
      c.Separates policy s fwmark) (c.begin states found chains table entries) events) :
    ∀ e ∈ c.machine.trace (c.begin states found chains table entries) events,
      ∀ source fwmark picked, e.input = .connect source fwmark picked →
        c.Remembers e.before source fwmark picked := by
  have installed := begin_installed follows states found chains table entries
  have start : ∀ entry ∈ (c.begin states found chains table entries).entries, c.IfaceMark entry.2 := clean
  generalize c.begin states found chains table entries = s at possible separates installed start
  induction events generalizing s with
  | nil => exact List.forall_mem_nil _
  | cons event events ih =>
      rw [Transducer.allSteps_cons] at possible separates
      rw [Transducer.trace_cons, List.forall_mem_cons]
      constructor
      · rintro source fwmark picked rfl
        exact remembers_of_separates installed follows possible.1.1 possible.1.2
          (separates.1 source fwmark picked rfl) start
      · exact ih _ possible.2 separates.2 (run_installed follows installed event)
          (run_clean follows installed possible.1 separates.1 start)

/-- Where no member's mark is one that the fixed match overlooks, and the last resort is not picked, the marks are separated. -/
theorem separates_of_offers {s : StickyState} (written : ∀ m ∈ failover.offers failoverPolicy s, failover.Written 0 (failover.mark m.interface))
    (never : ¬ failover.Picks s 0 (setXmark (failoverPolicy.lastResort.mark failover.mask) failover.mask 0)) :
    failover.Separates failoverPolicy s 0 :=
  ⟨fun m offered _ => written m offered, fun picks => absurd picks never⟩

theorem sticky_remembers_failover :
    failover.machine.AllSteps failover.Possible remembering failsOver ∧
      ∀ e ∈ failover.machine.trace remembering failsOver, ∀ source fwmark picked, e.input = .connect source fwmark picked →
        failover.Remembers e.before source fwmark picked := by
  refine ⟨failsOver_possible, sticky_remembers failover failoverPolicy failover_follows (upStates ["wanb"]) (fun _ => true)
    bothChains (fun _ => none) {(9, 0x100)} ?_ failsOver failsOver_possible ?_⟩
  · intro entry member
    rw [Finset.mem_singleton.mp member]
    exact ⟨"wan", by decide +kernel, by decide +kernel⟩
  have separates : ∀ n ∈ [0, 3, 4], let s := failover.machine.final remembering (failsOver.take n)
      (∀ m ∈ failover.offers failoverPolicy s, failover.Written 0 (failover.mark m.interface)) ∧
        ¬ failover.Picks s 0 (setXmark (failoverPolicy.lastResort.mark failover.mask) failover.mask 0) := by
    unfold StickyConfig.Picks StickyConfig.Written
    decide +kernel
  simp only [List.forall_mem_cons] at separates
  obtain ⟨first, second, third, -⟩ := separates
  simp only [failsOver, Transducer.allSteps_cons, Transducer.allSteps_nil, and_true]
  refine ⟨?_, ?_, ?_, ?_, ?_⟩
  · rintro _ _ _ ⟨⟩
    exact separates_of_offers first.1 first.2
  · rintro _ _ _ ⟨⟩
  · rintro _ _ _ ⟨⟩
  · rintro _ _ _ ⟨⟩
    exact separates_of_offers second.1 second.2
  · rintro _ _ _ ⟨⟩
    exact separates_of_offers third.1 third.2

/-- With both uplinks down the mark of the last resort is remembered. -/
theorem sticky_remembers_unreachable :
    failover.Follows failoverPolicy ∧
      failover.machine.AllSteps failover.Possible (failoverBegin []) [.connect 7 0 0x3E00] ∧
      failoverPolicy.lastResort.mark failover.mask = 0x3E00 ∧
      (7, 0x3E00) ∈ (failover.pass (failoverBegin []) 7 0 0x3E00).entries ∧
      ¬ failover.Remembers (failoverBegin []) 7 0 0x3E00 := by
  have picks : failover.Picks (failoverBegin []) 0 0x3E00 := by
    unfold StickyConfig.Picks
    decide +kernel
  have mark : failoverPolicy.lastResort.mark failover.mask = 0x3E00 := by decide +kernel
  have entry : (7, 0x3E00) ∈ (failover.pass (failoverBegin []) 7 0 0x3E00).entries := by decide +kernel
  refine ⟨failover_follows, ?_, mark, entry, fun remembers => ?_⟩
  · exact (Transducer.allSteps_cons _ _ _ _ _).mpr ⟨⟨rfl, picks⟩, Transducer.allSteps_nil _ _ _⟩
  · have own := remembers.1 _ entry
    rw [← mark] at own
    exact lastResort_not_ifaceMark (c := failover) (by decide) failoverPolicy.lastResort own

end Runs

end XWrt.Mwan3
