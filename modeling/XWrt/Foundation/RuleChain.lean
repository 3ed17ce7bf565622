import Mathlib.Algebra.BigOperators.Group.List.Basic
import Mathlib.Algebra.Order.Field.Rat
import Mathlib.Algebra.Order.BigOperators.GroupWithZero.List
import Mathlib.Tactic.FieldSimp
import Mathlib.Tactic.Linarith
import Mathlib.Tactic.Positivity
import Mathlib.Tactic.Ring

/-!
# Chains of chance rules

A packet passes a list of rules in order. A rule that applies to its mark acts
with a given chance and otherwise lets it pass unchanged. Rules that all apply
to the entering mark, settle it by acting, and have the chances weight / running
total, the latest weight first, pick each of them with the share that its weight
has in the total. Chances that are short of these by little change the shares by
little.
-/

namespace XWrt.Foundation

/-- A rule over marks of type `μ`. -/
structure ChanceRule (μ : Type*) where
  applies : μ → Bool
  chance : ℚ
  act : μ → μ

namespace ChanceRule

variable {μ : Type*} [DecidableEq μ]

/-- The probability that a packet entering with mark `m` leaves with mark `t`. -/
def leaves : List (ChanceRule μ) → μ → μ → ℚ
  | [], m, t => if m = t then 1 else 0
  | rule :: rest, m, t =>
      if rule.applies m then
        rule.chance * leaves rest (rule.act m) t + (1 - rule.chance) * leaves rest m t
      else leaves rest m t

theorem leaves_nil (m t : μ) : leaves [] m t = if m = t then 1 else 0 := rfl

theorem leaves_cons (rule : ChanceRule μ) (rest : List (ChanceRule μ)) (m t : μ) :
    leaves (rule :: rest) m t =
      if rule.applies m then
        rule.chance * leaves rest (rule.act m) t + (1 - rule.chance) * leaves rest m t
      else leaves rest m t := rfl

/-- A mark to which no rule applies stays. -/
theorem leaves_of_settled {rules : List (ChanceRule μ)} {m : μ} (t : μ)
    (settled : ∀ rule ∈ rules, rule.applies m = false) :
    leaves rules m t = if m = t then 1 else 0 := by
  induction rules with
  | nil => rfl
  | cons rule rest ih =>
      rw [List.forall_mem_cons] at settled
      rw [leaves_cons, settled.1, if_neg Bool.false_ne_true, ih settled.2]

section Certain

variable {rules front rest : List (ChanceRule μ)} {rule : ChanceRule μ} {m : μ}

theorem leaves_nonneg (chances : ∀ rule ∈ rules, 0 ≤ rule.chance ∧ rule.chance ≤ 1) (m t : μ) : 0 ≤ leaves rules m t := by
  induction rules generalizing m with
  | nil =>
      rw [leaves_nil]
      split
      · exact zero_le_one
      · exact le_rfl
  | cons rule rest ih =>
      rw [List.forall_mem_cons] at chances
      rw [leaves_cons]
      split
      · exact add_nonneg (mul_nonneg chances.1.1 (ih chances.2 _))
          (mul_nonneg (sub_nonneg.mpr chances.1.2) (ih chances.2 _))
      · exact ih chances.2 _

/-- Some mark comes out. -/
theorem exists_leaves_pos (chances : ∀ rule ∈ rules, 0 ≤ rule.chance ∧ rule.chance ≤ 1) (m : μ) :
    ∃ t, 0 < leaves rules m t := by
  induction rules generalizing m with
  | nil => exact ⟨m, by rw [leaves_nil, if_pos rfl]; exact zero_lt_one⟩
  | cons rule rest ih =>
      rw [List.forall_mem_cons] at chances
      have nonneg := fun m t => leaves_nonneg chances.2 m t
      simp only [leaves_cons]
      split
      · rcases chances.1.1.eq_or_lt with never | positive
        · obtain ⟨t, later⟩ := ih chances.2 m
          exact ⟨t, by rw [← never]; simpa using later⟩
        · obtain ⟨t, later⟩ := ih chances.2 (rule.act m)
          exact ⟨t, add_pos_of_pos_of_nonneg (mul_pos positive later)
            (mul_nonneg (sub_nonneg.mpr chances.1.2) (nonneg m t))⟩
      · exact ih chances.2 m

/-- A chain that ends with a rule that always acts leaves a mark that one of its rules makes. -/
theorem exists_act_of_leaves_pos {t : μ} (chances : ∀ other ∈ front ++ [rule], 0 ≤ other.chance ∧ other.chance ≤ 1)
    (settles : ∀ other ∈ front, ∀ later ∈ front ++ [rule], later.applies (other.act m) = false)
    (own : rule.applies m = true) (certain : rule.chance = 1) (reached : 0 < leaves (front ++ [rule]) m t) :
    ∃ other ∈ front ++ [rule], other.act m = t := by
  have only : ∀ {other : ChanceRule μ} {behind : List (ChanceRule μ)},
      (∀ later ∈ behind, later.applies (other.act m) = false) → 0 < leaves behind (other.act m) t → other.act m = t := by
    intro other behind settled positive
    rw [leaves_of_settled t settled] at positive
    by_contra differs
    rw [if_neg differs] at positive
    exact lt_irrefl _ positive
  induction front with
  | nil =>
      rw [List.nil_append, leaves_cons, if_pos own, certain, one_mul, sub_self, zero_mul, add_zero] at reached
      exact ⟨rule, List.mem_singleton_self _, only (List.forall_mem_nil _) reached⟩
  | cons first front ih =>
      rw [List.cons_append, List.forall_mem_cons] at chances
      rw [List.cons_append] at settles
      have later := ih chances.2 fun other member behind inside =>
        settles other (List.mem_cons_of_mem _ member) behind (List.mem_cons_of_mem _ inside)
      rw [List.cons_append, leaves_cons] at reached
      split at reached
      · by_cases taken : 0 < leaves (front ++ [rule]) (first.act m) t
        · refine ⟨first, List.mem_cons_self, only (fun behind inside => ?_) taken⟩
          exact settles first List.mem_cons_self behind (List.mem_cons_of_mem _ inside)
        · have none : leaves (front ++ [rule]) (first.act m) t = 0 :=
            le_antisymm (not_lt.mp taken) (leaves_nonneg chances.2 _ _)
          rw [none, mul_zero, zero_add] at reached
          obtain ⟨other, member, act⟩ := later (pos_of_mul_pos_right reached (sub_nonneg.mpr chances.1.2))
          exact ⟨other, List.mem_cons_of_mem _ member, act⟩
      · obtain ⟨other, member, act⟩ := later reached
        exact ⟨other, List.mem_cons_of_mem _ member, act⟩

end Certain

section Balance

variable {ι : Type*} (weight : ι → ℕ) (applies : μ → Bool) (act : ι → μ → μ)

def totalWeight (items : List ι) : ℕ := (items.map weight).sum

/-- Rules inserted one ahead of the other, each with its weight over the total so far. -/
def balance : List ι → List (ChanceRule μ)
  | [] => []
  | item :: earlier =>
      ⟨applies, (weight item : ℚ) / (weight item + totalWeight weight earlier : ℕ), act item⟩ ::
        balance earlier

omit [DecidableEq μ] in
theorem balance_applies {items : List ι} {rule : ChanceRule μ}
    (member : rule ∈ balance weight applies act items) : rule.applies = applies := by
  induction items with
  | nil => exact absurd member List.not_mem_nil
  | cons item earlier ih =>
      rcases List.mem_cons.mp member with rfl | later
      · rfl
      · exact ih later

theorem totalWeight_cons (item : ι) (items : List ι) :
    totalWeight weight (item :: items) = weight item + totalWeight weight items :=
  List.sum_cons

theorem totalWeight_pos {items : List ι} (positive : ∀ item ∈ items, 0 < weight item)
    (nonempty : items ≠ []) : 0 < totalWeight weight items := by
  obtain ⟨item, rest, rfl⟩ := List.exists_cons_of_ne_nil nonempty
  rw [totalWeight_cons]
  exact Nat.add_pos_left (positive item List.mem_cons_self) _

/-- The weight of the items that send `m` to `t`. -/
def weightTo (m t : μ) (items : List ι) : ℕ :=
  totalWeight weight (items.filter fun item => act item m = t)

theorem weightTo_cons (m t : μ) (item : ι) (items : List ι) :
    weightTo weight act m t (item :: items) =
      (if act item m = t then weight item else 0) + weightTo weight act m t items := by
  unfold weightTo
  by_cases hit : act item m = t
  · rw [List.filter_cons, if_pos (decide_eq_true hit), totalWeight_cons, if_pos hit]
  · rw [List.filter_cons, if_neg (by simpa using hit), if_neg hit, Nat.zero_add]

/-- The shares of a balanced chain: the conditional chances telescope, whatever the
order of the items, and nothing reaches the rules after it. -/
theorem leaves_balance {items : List ι} {rest : List (ChanceRule μ)} {m : μ} (t : μ)
    (positive : ∀ item ∈ items, 0 < weight item) (nonempty : items ≠ []) (fresh : applies m = true)
    (settles : ∀ item ∈ items, applies (act item m) = false)
    (same : ∀ rule ∈ rest, rule.applies = applies) :
    leaves (balance weight applies act items ++ rest) m t =
      (weightTo weight act m t items : ℚ) / totalWeight weight items := by
  induction items with
  | nil => exact absurd rfl nonempty
  | cons item earlier ih =>
      rw [List.forall_mem_cons] at positive settles
      have settled : ∀ rule ∈ balance weight applies act earlier ++ rest,
          rule.applies (act item m) = false := by
        intro rule member
        rcases List.mem_append.mp member with inside | after
        · rw [balance_applies weight applies act inside]
          exact settles.1
        · rw [same rule after]
          exact settles.1
      have own : (0 : ℚ) < weight item := Nat.cast_pos.mpr positive.1
      rw [balance, List.cons_append, leaves_cons, if_pos fresh, leaves_of_settled t settled,
        weightTo_cons, totalWeight_cons]
      by_cases last : earlier = []
      · -- The first rule inserted has the chance one.
        subst last
        have certain : (weight item : ℚ) / (weight item + totalWeight weight [] : ℕ) = 1 :=
          div_self own.ne'
        rw [certain]
        simp [weightTo, totalWeight, own.ne', ite_div]
      · have others : (0 : ℚ) < totalWeight weight earlier :=
          Nat.cast_pos.mpr (totalWeight_pos weight positive.2 last)
        rw [ih positive.2 last settles.2]
        push_cast
        have sum : (weight item + totalWeight weight earlier : ℚ) ≠ 0 := by positivity
        field_simp
        split
        · ring
        · ring

end Balance

/-! ## Which rule acts -/

section Pick

omit [DecidableEq μ]

/-- The probability that the rule at an index is the first that acts on `m`. -/
def pick : List (ChanceRule μ) → μ → Nat → ℚ
  | [], _, _ => 0
  | rule :: _, m, 0 => if rule.applies m then rule.chance else 0
  | rule :: rest, m, index + 1 => (if rule.applies m then 1 - rule.chance else 1) * pick rest m index

variable {m : μ}

/-- The chance of a rule after rules that all apply. -/
theorem pick_append {front : List (ChanceRule μ)} {rule : ChanceRule μ} (rest : List (ChanceRule μ))
    (apply : ∀ other ∈ front, other.applies m = true) (own : rule.applies m = true) :
    pick (front ++ rule :: rest) m front.length =
      (front.map fun other => 1 - other.chance).prod * rule.chance := by
  induction front with
  | nil => simp [pick, own]
  | cons other front ih =>
      rw [List.forall_mem_cons] at apply
      rw [List.cons_append, List.length_cons, pick, if_pos apply.1, ih apply.2, List.map_cons,
        List.prod_cons, mul_assoc]

/-- Every rule that applies is reached and acts if the rules ahead of it let something pass. -/
theorem pick_pos_iff {front : List (ChanceRule μ)} {rule : ChanceRule μ} (rest : List (ChanceRule μ))
    (apply : ∀ other ∈ front, other.applies m = true) (own : rule.applies m = true)
    (pass : ∀ other ∈ front, other.chance < 1) :
    0 < pick (front ++ rule :: rest) m front.length ↔ 0 < rule.chance := by
  have positive : 0 < (front.map fun other => 1 - other.chance).prod :=
    List.prod_pos (List.forall_mem_map.mpr fun other member => sub_pos.mpr (pass other member))
  rw [pick_append rest apply own, mul_pos_iff_of_pos_left positive]

/-- The rule acts on the same marks, and its chance is short by at most `error`. -/
structure Short (error : ℚ) (rule exact : ChanceRule μ) : Prop where
  applies : rule.applies = exact.applies
  most : rule.chance ≤ exact.chance
  least : exact.chance - error ≤ rule.chance
  nonneg : 0 ≤ rule.chance
  le_one : exact.chance ≤ 1

theorem pick_mem_unit {rules : List (ChanceRule μ)} (chances : ∀ rule ∈ rules, 0 ≤ rule.chance ∧ rule.chance ≤ 1)
    (m : μ) (index : Nat) : 0 ≤ pick rules m index ∧ pick rules m index ≤ 1 := by
  induction rules generalizing index with
  | nil => exact ⟨le_rfl, zero_le_one⟩
  | cons rule rest ih =>
      rw [List.forall_mem_cons] at chances
      cases index with
      | zero =>
          unfold pick
          split
          · exact chances.1
          · exact ⟨le_rfl, zero_le_one⟩
      | succ index =>
          obtain ⟨low, high⟩ := ih chances.2 index
          have factor : 0 ≤ (if rule.applies m then 1 - rule.chance else 1) ∧
              (if rule.applies m then 1 - rule.chance else 1) ≤ 1 := by
            split
            · exact ⟨sub_nonneg.mpr chances.1.2, sub_le_self _ chances.1.1⟩
            · exact ⟨zero_le_one, le_rfl⟩
          exact ⟨mul_nonneg factor.1 low, mul_le_one₀ factor.2 low high⟩

theorem Short.chances {error : ℚ} {rules exact : List (ChanceRule μ)}
    (short : List.Forall₂ (Short error) rules exact) :
    ∀ rule ∈ exact, 0 ≤ rule.chance ∧ rule.chance ≤ 1 := by
  induction short with
  | nil => exact List.forall_mem_nil _
  | cons own _ ih => exact List.forall_mem_cons.mpr ⟨⟨own.nonneg.trans own.most, own.le_one⟩, ih⟩

/-- Short chances add up: a rule behind `index` others is off by at most `index + 1` errors. -/
theorem pick_error {error : ℚ} {rules exact : List (ChanceRule μ)} (short : List.Forall₂ (Short error) rules exact)
    (nonneg : 0 ≤ error) (m : μ) (index : Nat) :
    |pick rules m index - pick exact m index| ≤ (index + 1) * error := by
  induction short generalizing index with
  | nil =>
      rw [pick, sub_self, abs_zero]
      positivity
  | @cons rule ideal rules exact own later ih =>
      cases index with
      | zero =>
          rw [pick, pick, own.applies, Nat.cast_zero, zero_add, one_mul]
          split
          · have := own.most
            have := own.least
            rw [abs_le]
            constructor <;> linarith
          · rwa [sub_self, abs_zero]
      | succ index =>
          have behind := ih index
          obtain ⟨low, high⟩ := pick_mem_unit (Short.chances later) m index
          rw [pick, pick, own.applies]
          split
          · -- The part that passes is off by the error of this rule and those behind it.
            have split : (1 - rule.chance) * pick rules m index - (1 - ideal.chance) * pick exact m index =
                (1 - rule.chance) * (pick rules m index - pick exact m index) +
                  (ideal.chance - rule.chance) * pick exact m index := by ring
            have pass : |(1 - rule.chance) * (pick rules m index - pick exact m index)| ≤ (index + 1) * error := by
              have unit : 0 ≤ 1 - rule.chance := sub_nonneg.mpr (own.most.trans own.le_one)
              rw [abs_mul, abs_of_nonneg unit]
              exact (mul_le_of_le_one_left (abs_nonneg _) (sub_le_self _ own.nonneg)).trans behind
            have taken : |(ideal.chance - rule.chance) * pick exact m index| ≤ error := by
              have gap : 0 ≤ ideal.chance - rule.chance := sub_nonneg.mpr own.most
              rw [abs_of_nonneg (mul_nonneg gap low)]
              have := own.least
              exact (mul_le_of_le_one_right gap high).trans (by linarith)
            rw [split]
            refine (abs_add_le _ _).trans ?_
            push_cast
            linarith
          · rw [one_mul, one_mul]
            push_cast
            linarith

/-- A balanced chain picks an item with the share that its weight has in the total. -/
theorem pick_balance {ι : Type*} (weight : ι → ℕ) (applies : μ → Bool) (act : ι → μ → μ) {after earlier : List ι}
    {item : ι} (rest : List (ChanceRule μ)) (fresh : applies m = true)
    (positive : ∀ other ∈ after ++ item :: earlier, 0 < weight other) :
    pick (balance weight applies act (after ++ item :: earlier) ++ rest) m after.length =
      (weight item : ℚ) / totalWeight weight (after ++ item :: earlier) := by
  induction after with
  | nil =>
      rw [List.nil_append, balance, List.cons_append, List.length_nil, pick, if_pos fresh, totalWeight_cons]
  | cons other after ih =>
      rw [List.cons_append, List.forall_mem_cons] at positive
      rw [List.cons_append, balance, List.cons_append, List.length_cons, pick, if_pos fresh, ih positive.2,
        totalWeight_cons]
      have others : (0 : ℚ) < totalWeight weight (after ++ item :: earlier) :=
        Nat.cast_pos.mpr (totalWeight_pos weight positive.2 (by simp))
      have own : (0 : ℚ) < weight other := Nat.cast_pos.mpr positive.1
      push_cast
      field_simp
      ring

end Pick

end ChanceRule

end XWrt.Foundation
