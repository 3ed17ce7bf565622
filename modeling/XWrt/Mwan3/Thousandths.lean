import XWrt.Foundation.Numerals
import XWrt.Mwan3.IfaceChains
import XWrt.Mwan3.PolicyRules

/-!
# Shares in thousandths

The shares of the members of a policy when every rule has the probability that
its text spells. The text is cut to thousandths, so the shares of n members are
off by at most n / 1000. A member whose weight is below a thousandth of the
running total gets the probability 0.000 and no connection at all.
-/

namespace XWrt.Mwan3

open XWrt.Foundation
open XWrt.Foundation.Numerals

/-! ## The probability that a text spells -/

/-- The value of a decimal fraction. -/
def readProbability (text : String) : ℚ :=
  let whole := text.toList.takeWhile Char.isDigit
  let fraction := text.toList.drop (whole.length + 1)
  ((readDigits 10 whole).getD 0 : ℕ) + ((readDigits 10 fraction).getD 0 : ℕ) / 10 ^ fraction.length

/-- A rule with its probability as it is written. -/
def Rule.written (rule : Rule) : ChanceRule Nat where
  applies mark := mark &&& rule.mask = 0
  chance := rule.probability.elim 1 readProbability
  act := setXmark rule.setMark rule.mask

theorem foldlM_fixedDigits (width n : Nat) :
    (fixedDigits 10 width n).foldlM (fun n char =>
      (digitValue char).bind fun digit => if digit < 10 then some (n * 10 + digit) else none) 0 =
      some (n % 10 ^ width) := by
  induction width generalizing n with
  | zero => simp [fixedDigits, Nat.mod_one]
  | succ width ih =>
      have split : n / 10 % 10 ^ width * 10 + n % 10 = n % 10 ^ (width + 1) := by
        rw [Nat.pow_succ', Nat.mod_mul, Nat.add_comm, Nat.mul_comm]
      rw [fixedDigits, foldlM_digits_concat _ (Nat.mod_lt _ (by decide)), ih, Option.map_some, split]

theorem readDigits_fixedDigits (width n : Nat) :
    readDigits 10 (fixedDigits 10 (width + 1) n) = some (n % 10 ^ (width + 1)) := by
  have some : fixedDigits 10 (width + 1) n ≠ [] := by simp [fixedDigits]
  rw [readDigits, if_neg some, foldlM_fixedDigits]

theorem length_fixedDigits (base width n : Nat) : (fixedDigits base width n).length = width := by
  induction width generalizing n with
  | zero => rfl
  | succ width ih => rw [fixedDigits, List.length_append, ih, List.length_singleton]

theorem probabilityText_toList {probability : Nat} (small : probability < 1000) :
    (probabilityText probability).toList = '0' :: '.' :: fixedDigits 10 3 probability := by
  rw [← leftpad_toDigits (by decide) 2 small]
  unfold probabilityText
  have large : (10 : Nat) > 1 := by decide
  split
  · rename_i below
    simp [Nat.toDigits_of_lt_base below, List.leftpad, List.replicate]
  split
  · rename_i above below
    have upper : probability / 10 < 10 := by omega
    simp [Nat.toDigits_of_base_le large (not_lt.mp above), Nat.toDigits_of_lt_base upper, List.leftpad]
  · rename_i above' above
    have upper : 10 ≤ probability / 10 := by omega
    have high : probability / 10 / 10 < 10 := by omega
    simp [Nat.toDigits_of_base_le large (not_lt.mp above'), Nat.toDigits_of_base_le large upper,
      Nat.toDigits_of_lt_base high, List.leftpad]

/-- The text of a probability spells its thousandths. -/
theorem readProbability_probabilityText {probability : Nat} (most : probability ≤ 1000) :
    readProbability (probabilityText probability) = probability / 1000 := by
  rcases Nat.lt_or_eq_of_le most with small | rfl
  · unfold readProbability
    rw [probabilityText_toList small]
    have whole : ('0' :: '.' :: fixedDigits 10 3 probability).takeWhile Char.isDigit = ['0'] := by
      rw [List.takeWhile_cons_of_pos (by decide), List.takeWhile_cons_of_neg (by decide)]
    have zero : readDigits 10 ['0'] = some 0 := by decide
    have thousandths : readDigits 10 (fixedDigits 10 3 probability) = some probability := by
      rw [readDigits_fixedDigits 2, Nat.mod_eq_of_lt (show probability < 10 ^ (2 + 1) from small)]
    simp only [whole, zero, thousandths, List.length_singleton, List.drop_succ_cons, List.drop_zero,
      length_fixedDigits, Option.getD_some]
    norm_num
  · decide +kernel

/-! ## The rules of a balance -/

section Balance

variable {env : Env} {flushed : Bool} {members earlier : List Member} {m : Member}

/-- The chance of a member's rule, with `earlier` the members ahead of it in the policy. -/
def writtenChance (flushed : Bool) (m : Member) (earlier : List Member) : ℚ :=
  if flushed ∧ earlier = [] then 1
  else
    (m.weight * 1000 / (m.weight + ChanceRule.totalWeight Member.weight earlier) : ℕ) / 1000

theorem written_memberRule :
    let total := m.weight + ChanceRule.totalWeight Member.weight earlier
    let probability :=
      if flushed ∧ earlier = [] then none else some (probabilityText (m.weight * 1000 / total))
    (env.memberRule m ((env.ifaceId m.interface).getD 0) total probability).written =
      ⟨env.unmarked, writtenChance flushed m earlier, setXmark (env.mark m.interface) env.mask⟩ := by
  simp only
  have most : m.weight * 1000 / (m.weight + ChanceRule.totalWeight Member.weight earlier) ≤ 1000 := by
    refine Nat.div_le_of_le_mul ?_
    rw [Nat.add_mul]
    exact Nat.le_add_right _ _
  unfold writtenChance
  split
  · rfl
  · rw [← readProbability_probabilityText most]
    rfl

/-- A probability is cut to thousandths. -/
theorem cut_le {weight total : Nat} (positive : 0 < total) :
    ((weight * 1000 / total : ℕ) : ℚ) / 1000 ≤ weight / total ∧
      (weight / total : ℚ) - 1 / 1000 ≤ ((weight * 1000 / total : ℕ) : ℚ) / 1000 := by
  have some : (0 : ℚ) < total := Nat.cast_pos.mpr positive
  have low : ((weight * 1000 / total : ℕ) : ℚ) * total ≤ weight * 1000 := by
    exact_mod_cast Nat.div_mul_le_self (weight * 1000) total
  have high : (weight * 1000 : ℚ) ≤ ((weight * 1000 / total : ℕ) + 1) * total := by
    have next : weight * 1000 < (weight * 1000 / total + 1) * total := by
      rw [Nat.mul_comm _ total]
      exact Nat.lt_mul_div_succ _ positive
    exact_mod_cast next.le
  constructor
  · rw [div_le_div_iff₀ (by norm_num) some]
    exact low
  · rw [sub_le_iff_le_add, ← add_div, div_le_div_iff₀ some (by norm_num)]
    exact high

theorem writtenRules_cons :
    (env.writtenRules flushed (m :: earlier)).map Rule.written =
      ⟨env.unmarked, writtenChance flushed m earlier, setXmark (env.mark m.interface) env.mask⟩ ::
        (env.writtenRules flushed earlier).map Rule.written := by
  rw [Env.writtenRules, List.map_cons, written_memberRule]

/-- The written chances are short of the exact ones by at most a thousandth. -/
theorem writtenRules_short (positive : ∀ m ∈ members, 0 < m.weight) :
    List.Forall₂ (ChanceRule.Short (1 / 1000)) ((env.writtenRules flushed members).map Rule.written)
      (ChanceRule.balance Member.weight env.unmarked (fun m => setXmark (env.mark m.interface) env.mask) members) := by
  induction members with
  | nil => exact List.Forall₂.nil
  | cons m earlier ih =>
      rw [List.forall_mem_cons] at positive
      have total : 0 < m.weight + ChanceRule.totalWeight Member.weight earlier := Nat.add_pos_left positive.1 _
      have some : (0 : ℚ) < (m.weight + ChanceRule.totalWeight Member.weight earlier : ℕ) := Nat.cast_pos.mpr total
      have unit : (m.weight : ℚ) / (m.weight + ChanceRule.totalWeight Member.weight earlier : ℕ) ≤ 1 := by
        rw [div_le_one some]
        exact_mod_cast Nat.le_add_right _ _
      obtain ⟨most, least⟩ := @cut_le m.weight _ total
      rw [writtenRules_cons, ChanceRule.balance]
      refine List.Forall₂.cons ?_ (ih positive.2)
      by_cases first : flushed ∧ earlier = []
      · have alone := first.2
        subst alone
        have own : (m.weight : ℚ) ≠ 0 := Nat.cast_ne_zero.mpr positive.1.ne'
        have exact : (m.weight : ℚ) / (m.weight + ChanceRule.totalWeight Member.weight [] : ℕ) = 1 := by
          simp [ChanceRule.totalWeight, own]
        have whole : writtenChance flushed m [] = 1 := if_pos first
        rw [whole, exact]
        exact ⟨rfl, le_rfl, by norm_num, zero_le_one, le_rfl⟩
      · have cut : writtenChance flushed m earlier =
            (m.weight * 1000 / (m.weight + ChanceRule.totalWeight Member.weight earlier) : ℕ) / 1000 := if_neg first
        rw [cut]
        exact ⟨rfl, most, least, by positivity, unit⟩

/-- A member behind others leaves something to them. -/
theorem writtenChance_lt_one (some : earlier ≠ []) (positive : ∀ m ∈ earlier, 0 < m.weight) :
    writtenChance flushed m earlier < 1 := by
  have others := ChanceRule.totalWeight_pos Member.weight positive some
  have cut : writtenChance flushed m earlier =
      (m.weight * 1000 / (m.weight + ChanceRule.totalWeight Member.weight earlier) : ℕ) / 1000 :=
    if_neg fun first => some first.2
  have small : m.weight * 1000 / (m.weight + ChanceRule.totalWeight Member.weight earlier) < 1000 := by
    refine Nat.div_lt_of_lt_mul ?_
    omega
  rw [cut, div_lt_one (by norm_num)]
  exact_mod_cast small

theorem writtenChance_pos_iff (own : 0 < m.weight) :
    0 < writtenChance flushed m earlier ↔
      (earlier ≠ [] → m.weight + ChanceRule.totalWeight Member.weight earlier ≤ 1000 * m.weight) := by
  have total : 0 < m.weight + ChanceRule.totalWeight Member.weight earlier := Nat.add_pos_left own _
  have cut : 0 < ((m.weight * 1000 / (m.weight + ChanceRule.totalWeight Member.weight earlier) : ℕ) : ℚ) / 1000 ↔
      m.weight + ChanceRule.totalWeight Member.weight earlier ≤ 1000 * m.weight := by
    rw [div_pos_iff_of_pos_right (by norm_num), Nat.cast_pos, Nat.div_pos_iff, Nat.mul_comm]
    exact ⟨And.right, fun le => ⟨total, le⟩⟩
  unfold writtenChance
  split
  · rename_i first
    exact iff_of_true zero_lt_one fun some => absurd first.2 some
  · rw [cut]
    refine ⟨fun le _ => le, fun le => ?_⟩
    by_cases alone : earlier = []
    · subst alone
      simp only [ChanceRule.totalWeight, List.map_nil, List.sum_nil]
      omega
    · exact le alone

/-- What stands ahead of a member's rule. -/
theorem exists_writtenRules_append {after : List Member}
    (positive : ∀ other ∈ after ++ m :: earlier, 0 < other.weight) :
    ∃ front : List (ChanceRule Nat), front.length = after.length ∧
      (∀ rule ∈ front, rule.applies = env.unmarked ∧ rule.chance < 1) ∧
      (env.writtenRules flushed (after ++ m :: earlier)).map Rule.written =
        front ++ ⟨env.unmarked, writtenChance flushed m earlier, setXmark (env.mark m.interface) env.mask⟩ ::
          (env.writtenRules flushed earlier).map Rule.written := by
  induction after with
  | nil => exact ⟨[], rfl, List.forall_mem_nil _, writtenRules_cons⟩
  | cons other after ih =>
      rw [List.cons_append, List.forall_mem_cons] at positive
      obtain ⟨front, length, passing, rules⟩ := ih positive.2
      let own : ChanceRule Nat := ⟨env.unmarked, writtenChance flushed other (after ++ m :: earlier),
        setXmark (env.mark other.interface) env.mask⟩
      refine ⟨own :: front, congrArg Nat.succ length, List.forall_mem_cons.mpr ⟨⟨rfl, ?_⟩, passing⟩, ?_⟩
      · exact writtenChance_lt_one (by simp) positive.2
      · rw [List.cons_append, writtenRules_cons, rules, List.cons_append]

end Balance

/-! ## The shares of the members -/

section Shares

variable {env : Env} {policy : Policy} {family : Family} {mark : Nat}

/-- Behind the first member, no weight is below a thousandth of the running total. -/
def Resolved (members : List Member) : Prop :=
  ∀ before m after, members = before ++ m :: after → before ≠ [] →
    ChanceRule.totalWeight Member.weight (before ++ [m]) ≤ 1000 * m.weight

/-- The share of new connections that a rule of a chain takes. -/
def ruleShare (chain : List Rule) (mark index : Nat) : ℚ := ChanceRule.pick (chain.map Rule.written) mark index

theorem totalWeight_reverse (members : List Member) :
    ChanceRule.totalWeight Member.weight members.reverse = ChanceRule.totalWeight Member.weight members := by
  simp [ChanceRule.totalWeight, List.sum_reverse]

/-- The rule of an offered member stands behind those of the members after it. -/
theorem offered_share {before after : List Member} {m : Member}
    (offers : env.offered family policy.members = before ++ m :: after)
    (positive : ∀ other ∈ env.offered family policy.members, 0 < other.weight)
    (fresh : mark &&& env.mask = 0) :
    let share := ruleShare (env.policyRules policy family) mark after.length
    (0 < share ↔ (before ≠ [] → ChanceRule.totalWeight Member.weight (before ++ [m]) ≤ 1000 * m.weight)) ∧
      |share - (m.weight : ℚ) / ChanceRule.totalWeight Member.weight (env.offered family policy.members)| ≤
        (env.offered family policy.members).length / 1000 := by
  simp only
  rw [offers] at positive ⊢
  have unmarked : env.unmarked mark = true := decide_eq_true fresh
  have reversed : (before ++ m :: after).reverse = after.reverse ++ m :: before.reverse := by simp
  have positive' : ∀ other ∈ after.reverse ++ m :: before.reverse, 0 < other.weight := by
    intro other member
    rw [← reversed, List.mem_reverse] at member
    exact positive other member
  have length : after.length = after.reverse.length := List.length_reverse.symm
  obtain ⟨flushed, rules⟩ : ∃ flushed : Bool, env.policyRules policy family =
      env.writtenRules flushed (env.offered family policy.members).reverse ++
        if flushed then [] else [env.lastResortRule policy.lastResort] := ⟨_, rfl⟩
  unfold ruleShare
  rw [rules, offers, reversed, List.map_append, length]
  have certain : ∀ rule ∈ (if flushed then [] else [env.lastResortRule policy.lastResort]).map Rule.written,
      rule.chance = 1 := by
    split
    · exact List.forall_mem_nil _
    · exact List.forall_mem_singleton.mpr rfl
  generalize (if flushed then [] else [env.lastResortRule policy.lastResort]).map Rule.written = rest at certain ⊢
  constructor
  · obtain ⟨front, ahead, passing, written⟩ := @exists_writtenRules_append env flushed before.reverse m
      after.reverse positive'
    rw [written, List.append_assoc, List.cons_append, ← ahead, ChanceRule.pick_pos_iff,
      writtenChance_pos_iff (positive m (by simp))]
    · rw [Ne, List.reverse_eq_nil_iff, totalWeight_reverse]
      simp only [ChanceRule.totalWeight, List.map_append, List.sum_append, List.map_singleton, List.sum_singleton,
        Nat.add_comm]
    · exact fun rule member => (passing rule member).1 ▸ unmarked
    · exact unmarked
    · exact fun rule member => (passing rule member).2
  · have itself : List.Forall₂ (ChanceRule.Short (1 / 1000)) rest rest := by
      refine List.forall₂_same.mpr fun rule member => ?_
      have one := certain rule member
      exact ⟨rfl, le_rfl, by rw [one]; norm_num, by rw [one]; exact zero_le_one, one.le⟩
    have short := List.rel_append (@writtenRules_short env flushed _ positive') itself
    have exact := ChanceRule.pick_balance Member.weight env.unmarked
      (fun m => setXmark (env.mark m.interface) env.mask) rest unmarked positive'
    have error := ChanceRule.pick_error short (by norm_num) mark after.reverse.length
    rw [exact, ← reversed, totalWeight_reverse, List.length_reverse] at error
    rw [← reversed, List.length_reverse]
    refine error.trans ?_
    rw [List.length_append, List.length_cons, mul_one_div, div_le_div_iff_of_pos_right (by norm_num)]
    push_cast
    have : (0 : ℚ) ≤ before.length := Nat.cast_nonneg _
    linarith

/-- Online members of one metric are all offered. -/
theorem offered_eq_self {members : List Member} {metric : Nat} (online : ∀ m ∈ members, env.Online family m)
    (ids : ∀ m ∈ members, (env.ifaceId m.interface).isSome = true) (bound : metric ≤ defaultLowestMetric)
    (equal : ∀ m ∈ members, m.metric = metric) : env.offered family members = members := by
  have counted : env.counted family members = members := by
    refine List.filter_eq_self.mpr fun m member => decide_eq_true ?_
    exact ⟨online m member, (equal m member).trans_le bound, ids m member⟩
  unfold Env.offered
  rw [counted]
  refine List.filter_eq_self.mpr fun m member => decide_eq_true fun other otherMember => ?_
  rw [equal m member, equal other otherMember]

/-- The shares of online members of one metric, with the probabilities as they are written. They
are never off by more than n / 1000; a member without a share is one with a small weight. -/
theorem writtenShares_iff (env : Env) (policy : Policy) (tables : Family → Table) (family : Family)
    (needed : env.need family = true) (short : policy.name.length ≤ 15)
    (weights : ∀ m ∈ policy.members, 0 < m.weight) (online : ∀ m ∈ policy.members, env.Online family m)
    (ids : ∀ m ∈ policy.members, (env.ifaceId m.interface).isSome = true) (metric : Nat)
    (bound : metric ≤ defaultLowestMetric) (equal : ∀ m ∈ policy.members, m.metric = metric)
    (mark : Nat) (fresh : mark &&& env.mask = 0) :
    ∃ chain, createPoliciesIptables env policy tables family (policyChain policy.name) = some chain ∧
      ((∀ before m after, policy.members = before ++ m :: after →
        0 < ruleShare chain mark after.length ∧
          |ruleShare chain mark after.length - (m.weight : ℚ) / (policy.members.map Member.weight).sum| ≤
            policy.members.length / 1000) ↔ Resolved policy.members) := by
  refine ⟨env.policyRules policy family, ?_, ?_⟩
  · rw [createPoliciesIptables_eq policy tables needed short]
    exact Table.set_self _ _ _
  · have offers := offered_eq_self online ids bound equal
    have positive : ∀ m ∈ env.offered family policy.members, 0 < m.weight := by
      rwa [offers]
    have share : ∀ {before m after}, policy.members = before ++ m :: after → _ :=
      fun split => offered_share (offers.trans split) positive fresh
    constructor
    · intro every before m after split
      exact (share split).1.mp (every before m after split).1
    · intro resolved before m after split
      refine ⟨(share split).1.mpr (resolved before m after split), ?_⟩
      have error := (share split).2
      rwa [offers] at error

theorem writtenShares_two_wans :
    ∃ chain, createPoliciesIptables twoWans balancedPolicy (fun _ _ => none) .ipv4 (policyChain "balanced") = some chain ∧
      0 < ruleShare chain 0 0 ∧ |ruleShare chain 0 0 - 3 / 5| ≤ 2 / 1000 := by
  obtain ⟨chain, present, shares⟩ := writtenShares_iff twoWans balancedPolicy (fun _ _ => none) .ipv4
    (by decide) (by decide) (by decide) (by decide) (by decide +kernel) 1 (by decide) (by decide) 0 (by decide)
  have resolved : Resolved balancedPolicy.members := by
    intro before m after split behind
    rcases before with - | ⟨first, - | ⟨second, more⟩⟩
    · exact absurd rfl behind
    · obtain ⟨rfl, rfl, rfl⟩ : first = ⟨"wanb", 1, 2⟩ ∧ m = ⟨"wan", 1, 3⟩ ∧ after = [] := by
        simpa [balancedPolicy, eq_comm] using split
      decide
    · simp [balancedPolicy] at split
  obtain ⟨positive, error⟩ := shares.mpr resolved [⟨"wanb", 1, 2⟩] ⟨"wan", 1, 3⟩ [] rfl
  have exact : ((3 : ℕ) : ℚ) / (balancedPolicy.members.map Member.weight).sum = 3 / 5 := by decide +kernel
  rw [exact] at error
  exact ⟨chain, present, positive, error⟩

/-- A weight below a thousandth of the other. -/
def lightPolicy : Policy := ⟨"light", .unreachable, [⟨"wan", 1, 1000⟩, ⟨"wanb", 1, 1⟩], by decide⟩

theorem light_member_starves :
    (∀ m ∈ lightPolicy.members, twoWans.Online .ipv4 m ∧ m.metric = 1 ∧ 0 < m.weight) ∧
      ∃ chain, createPoliciesIptables twoWans lightPolicy (fun _ _ => none) .ipv4 (policyChain "light") = some chain ∧
        ¬ ∀ before m after, lightPolicy.members = before ++ m :: after → 0 < ruleShare chain 0 after.length := by
  refine ⟨by decide, twoWans.policyRules lightPolicy .ipv4, ?_, fun every => ?_⟩
  · rw [createPoliciesIptables_eq lightPolicy _ (by decide) (by decide)]
    exact Table.set_self _ _ _
  · have none : ruleShare (twoWans.policyRules lightPolicy .ipv4) 0 0 = 0 := by decide +kernel
    have some := every [⟨"wan", 1, 1000⟩] ⟨"wanb", 1, 1⟩ [] rfl
    exact some.ne' none

end Shares

end XWrt.Mwan3
