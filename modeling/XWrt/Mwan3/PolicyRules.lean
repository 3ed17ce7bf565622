import XWrt.Mwan3.Policy

/-!
# The rules of a policy chain

What `mwan3_create_policies_iptables` leaves in the chain of a policy, without
the updates that build it: the rules of the members that the policy offers, the
latest first, and the last-resort rule where nothing has flushed it. The other
chains of the table stay as they are.
-/

namespace XWrt.Mwan3

open XWrt.Foundation

/-- A member that `mwan3_set_policy` gives a rule of a family: it is online, its metric is not
above the default and its interface has an id. -/
def Env.Counts (env : Env) (family : Family) (m : Member) : Prop :=
  env.Online family m ∧ m.metric ≤ defaultLowestMetric ∧ (env.ifaceId m.interface).isSome = true

instance (env : Env) (family : Family) : DecidablePred (env.Counts family) :=
  fun _ => inferInstanceAs (Decidable (_ ∧ _ ∧ _))

def Env.counted (env : Env) (family : Family) (members : List Member) : List Member :=
  members.filter (env.Counts family)

/-- The members that a policy offers: those that count with the smallest metric. -/
def Env.offered (env : Env) (family : Family) (members : List Member) : List Member :=
  let counted := env.counted family members
  counted.filter fun m => ∀ other ∈ counted, m.metric ≤ other.metric

/-- The rules of members of one metric, the latest first. The first member of all has no
probability when its metric has flushed the chain. -/
def Env.writtenRules (env : Env) (flushed : Bool) : List Member → List Rule
  | [] => []
  | m :: earlier =>
      let total := m.weight + ChanceRule.totalWeight Member.weight earlier
      let probability :=
        if flushed ∧ earlier = [] then none else some (probabilityText (m.weight * 1000 / total))
      env.memberRule m ((env.ifaceId m.interface).getD 0) total probability ::
        env.writtenRules flushed earlier

/-- The chain of a policy. -/
def Env.policyRules (env : Env) (policy : Policy) (family : Family) : List Rule :=
  let offered := env.offered family policy.members
  let flushed := offered.any fun m => m.metric < defaultLowestMetric
  env.writtenRules flushed offered.reverse ++
    if flushed then [] else [env.lastResortRule policy.lastResort]

/-! ## The member loop -/

section Loop

variable {env : Env} {policy : Policy} {family : Family} {base : Table} {done : List Member}
  {s : FamilyState} {m : Member}

/-- The members that count with a given metric. -/
def Env.countedAt (env : Env) (family : Family) (members : List Member) (metric : Nat) : List Member :=
  (env.counted family members).filter fun m => m.metric = metric

/-- The chain while the lowest metric is `lowest`. -/
def Env.rulesAt (env : Env) (policy : Policy) (family : Family) (done : List Member) (lowest : Nat) :
    List Rule :=
  env.writtenRules (lowest < defaultLowestMetric) (env.countedAt family done lowest).reverse ++
    if lowest < defaultLowestMetric then [] else [env.lastResortRule policy.lastResort]

/-- The state of a family after the members `done`, over a table `base`. -/
structure Writes (env : Env) (policy : Policy) (family : Family) (base : Table) (done : List Member)
    (s : FamilyState) : Prop where
  atMost : s.lowestMetric ≤ defaultLowestMetric
  least : ∀ m ∈ env.counted family done, s.lowestMetric ≤ m.metric
  attained : s.lowestMetric = defaultLowestMetric ∨ env.countedAt family done s.lowestMetric ≠ []
  total : s.totalWeight =
    ChanceRule.totalWeight Member.weight (env.countedAt family done s.lowestMetric)
  table : s.table =
    base.set (policyChain policy.name) (env.rulesAt policy family done s.lowestMetric)

theorem counted_append_of_counts (done : List Member) (counts : env.Counts family m) :
    env.counted family (done ++ [m]) = env.counted family done ++ [m] := by
  rw [Env.counted, List.filter_append, List.filter_singleton, decide_eq_true counts]
  rfl

theorem counted_append_of_not (done : List Member) (not : ¬ env.Counts family m) :
    env.counted family (done ++ [m]) = env.counted family done := by
  rw [Env.counted, List.filter_append, List.filter_singleton, decide_eq_false not]
  exact List.append_nil _

theorem countedAt_append_same (counts : env.Counts family m) :
    env.countedAt family (done ++ [m]) m.metric = env.countedAt family done m.metric ++ [m] := by
  rw [Env.countedAt, counted_append_of_counts done counts, List.filter_append, List.filter_singleton,
    decide_eq_true rfl]
  rfl

theorem countedAt_append_other {metric : Nat} (counts : env.Counts family m) (other : m.metric ≠ metric) :
    env.countedAt family (done ++ [m]) metric = env.countedAt family done metric := by
  rw [Env.countedAt, counted_append_of_counts done counts, List.filter_append, List.filter_singleton,
    decide_eq_false other]
  exact List.append_nil _

theorem set_set (table : Table) (chain : String) (first second : List Rule) :
    (table.set chain first).set chain second = table.set chain second :=
  Function.update_idem _ _ _

theorem restore_flush_append_set (table : Table) (chain : String) (rules : List Rule) (rule : Rule) :
    restore (table.set chain rules) [.flush chain, .append chain rule] = table.set chain [rule] := by
  simp [restore, Command.run, set_set]

theorem restore_insert_set (table : Table) (chain : String) (rules : List Rule) (rule : Rule) :
    restore (table.set chain rules) [.insert chain rule] = table.set chain (rule :: rules) := by
  simp [restore, Command.run, set_set]

/-- A member that does not count leaves its family alone. -/
theorem setPolicy_of_not_counts (name : String) (states : Family → FamilyState)
    (not : ¬ env.Counts family m) : setPolicy env name states m family = states family := by
  by_cases online : env.Online family m
  · unfold setPolicy
    split
    · rfl
    split
    · rfl
    rename_i metric
    cases found : env.ifaceId m.interface with
    | none => rfl
    | some id => exact absurd ⟨online, not_lt.mp metric, by rw [found]; rfl⟩ not
  · exact setPolicy_of_not_online name states online

theorem Writes.skip (writes : Writes env policy family base done s) (not : ¬ env.Counts family m) :
    Writes env policy family base (done ++ [m]) s := by
  have counted := counted_append_of_not done not
  have same : ∀ metric, env.countedAt family (done ++ [m]) metric = env.countedAt family done metric := by
    intro metric
    rw [Env.countedAt, counted]
    rfl
  obtain ⟨atMost, least, attained, total, table⟩ := writes
  refine ⟨atMost, ?_, ?_, ?_, ?_⟩
  · rwa [counted]
  · rwa [same]
  · rwa [same]
  · rwa [Env.rulesAt, same]

/-- The three cases of a member that counts, as in the balance of the chain. -/
theorem Writes.step {id : Nat} (writes : Writes env policy family base done s)
    (needed : env.need family = true) (counts : env.Counts family m)
    (found : env.ifaceId m.interface = some id) :
    Writes env policy family base (done ++ [m]) (setPolicyFamily env policy.name m id family s) := by
  obtain ⟨atMost, least, attained, total, table⟩ := writes
  have idOf : (env.ifaceId m.interface).getD 0 = id := by rw [found]; rfl
  have leastOf : ∀ {metric}, (∀ other ∈ env.counted family done, metric ≤ other.metric) →
      metric ≤ m.metric → ∀ other ∈ env.counted family (done ++ [m]), metric ≤ other.metric := by
    intro metric before here
    rw [counted_append_of_counts done counts]
    exact List.forall_mem_append.mpr ⟨before, List.forall_mem_singleton.mpr here⟩
  unfold setPolicyFamily
  rw [if_pos ⟨needed, counts.1.2.2⟩]
  rcases lt_trichotomy m.metric s.lowestMetric with lower | equal | higher
  · rw [if_pos lower]
    have below : m.metric < defaultLowestMetric := lower.trans_le atMost
    have none_before : env.countedAt family done m.metric = [] := by
      refine List.filter_eq_nil_iff.mpr fun other member => ?_
      have := least other member
      simp
      omega
    have only := @countedAt_append_same _ _ done _ counts
    rw [none_before, List.nil_append] at only
    refine ⟨below.le, leastOf (fun other member => lower.le.trans (least other member)) le_rfl, ?_, ?_, ?_⟩
    · right
      simp [only]
    · simp [only, ChanceRule.totalWeight]
    · simp only [table, restore_flush_append_set, Env.rulesAt, only, if_pos below, List.append_nil]
      simp [Env.writtenRules, below, idOf, ChanceRule.totalWeight]
  · rw [if_neg equal.not_lt, if_pos equal]
    have joined : env.countedAt family (done ++ [m]) s.lowestMetric =
        env.countedAt family done s.lowestMetric ++ [m] := by
      rw [← equal]
      exact countedAt_append_same counts
    refine ⟨atMost, leastOf least equal.ge, ?_, ?_, ?_⟩
    · right
      simp [joined]
    · simp only [joined, total]
      simp [ChanceRule.totalWeight]
    · have notFirst : ¬(s.lowestMetric < defaultLowestMetric ∧
          (env.countedAt family done s.lowestMetric).reverse = []) := by
        rintro ⟨below, empty⟩
        exact attained.elim below.ne fun some => some (List.reverse_eq_nil_iff.mp empty)
      have sum : ChanceRule.totalWeight Member.weight (env.countedAt family done s.lowestMetric).reverse =
          s.totalWeight := by
        rw [total]
        simp [ChanceRule.totalWeight, List.sum_reverse]
      simp only [table, restore_insert_set, Env.rulesAt, joined, List.reverse_concat',
        Env.writtenRules, decide_eq_true_eq, if_neg notFirst,
        idOf, sum, List.cons_append, Nat.add_comm m.weight]
  · rw [if_neg higher.not_gt, if_neg higher.ne']
    have same := @countedAt_append_other _ _ done _ _ counts higher.ne'
    refine ⟨atMost, leastOf least higher.le, ?_, ?_, ?_⟩
    · rwa [same]
    · rwa [same]
    · rwa [Env.rulesAt, same]

theorem writes_members {states : Family → FamilyState} (needed : env.need family = true)
    (start : Writes env policy family base [] (states family)) :
    Writes env policy family base done (done.foldl (setPolicy env policy.name) states family) := by
  induction done using List.reverseRecOn with
  | nil => exact start
  | append_singleton done m ih =>
      rw [List.foldl_append, List.foldl_cons, List.foldl_nil]
      by_cases counts : env.Counts family m
      · obtain ⟨id, found⟩ := Option.isSome_iff_exists.mp counts.2.2
        rw [setPolicy_of_online _ _ counts.1 counts.2.1 found]
        exact ih.step needed counts found
      · rw [setPolicy_of_not_counts _ _ counts]
        exact ih.skip counts

/-- The loop ends with the members that the policy offers. -/
theorem Writes.countedAt_eq_offered (writes : Writes env policy family base done s) :
    env.countedAt family done s.lowestMetric = env.offered family done := by
  refine List.filter_congr fun m member => ?_
  rw [decide_eq_decide]
  constructor
  · intro equal other otherMember
    rw [equal]
    exact writes.least other otherMember
  · intro smallest
    refine le_antisymm ?_ (writes.least m member)
    rcases writes.attained with default | nonempty
    · rw [default]
      exact (of_decide_eq_true (List.mem_filter.mp member).2).2.1
    · obtain ⟨best, bestMember⟩ := List.exists_mem_of_ne_nil _ nonempty
      obtain ⟨inside, metric⟩ := List.mem_filter.mp bestMember
      rw [← of_decide_eq_true metric]
      exact smallest best inside

theorem Writes.rulesAt_eq (writes : Writes env policy family base policy.members s) :
    env.rulesAt policy family policy.members s.lowestMetric = env.policyRules policy family := by
  have flushed : ((env.offered family policy.members).any fun m => m.metric < defaultLowestMetric) =
      decide (s.lowestMetric < defaultLowestMetric) := by
    rw [← writes.countedAt_eq_offered, Bool.eq_iff_iff, List.any_eq_true, decide_eq_true_eq]
    constructor
    · rintro ⟨m, member, below⟩
      rw [← of_decide_eq_true (List.mem_filter.mp member).2]
      exact of_decide_eq_true below
    · intro below
      obtain ⟨m, member⟩ := List.exists_mem_of_ne_nil _ (writes.attained.resolve_left below.ne)
      refine ⟨m, member, decide_eq_true ?_⟩
      rwa [of_decide_eq_true (List.mem_filter.mp member).2]
  unfold Env.rulesAt Env.policyRules
  simp only [writes.countedAt_eq_offered, flushed, decide_eq_true_eq]

end Loop

/-! ## The chain of a policy -/

theorem startPolicy_eq {env : Env} (policy : Policy) {family : Family} (needed : env.need family = true)
    (table : Table) :
    startPolicy env policy family table =
      table.set (policyChain policy.name) [env.lastResortRule policy.lastResort] := by
  unfold startPolicy
  rw [if_pos needed]
  cases present : table (policyChain policy.name) with
  | none => simp [restore, Command.run, present, set_set]
  | some rules => simp [restore, Command.run, present, set_set]

theorem createPoliciesIptables_eq {env : Env} (policy : Policy) (tables : Family → Table) {family : Family}
    (needed : env.need family = true) (short : policy.name.length ≤ 15) :
    createPoliciesIptables env policy tables family =
      (tables family).set (policyChain policy.name) (env.policyRules policy family) := by
  let states : Family → FamilyState := fun family =>
    ⟨startPolicy env policy family (tables family), defaultLowestMetric, 0⟩
  have start : Writes env policy family (tables family) [] (states family) :=
    ⟨le_refl _, List.forall_mem_nil _, .inl rfl, rfl, startPolicy_eq policy needed (tables family)⟩
  have writes := @writes_members _ _ _ _ policy.members _ needed start
  have created : createPoliciesIptables env policy tables family =
      (policy.members.foldl (setPolicy env policy.name) states family).table :=
    congrFun (if_neg short.not_gt) family
  rw [created, writes.table, writes.rulesAt_eq]

/-! ## The policies of a configuration -/

/-- `mwan3_set_policies_iptables` -/
def setPoliciesIptables (env : Env) (policies : List Policy) (tables : Family → Table) : Family → Table :=
  policies.foldl (fun tables policy => createPoliciesIptables env policy tables) tables

section Policies

variable {env : Env} {policies : List Policy} {policy : Policy} {family : Family}

theorem policyChain_injective {first second : String} (same : policyChain first = policyChain second) :
    first = second :=
  (String.append_right_inj "mwan3_policy_").mp same

theorem createPoliciesIptables_other {other : Policy} (needed : env.need family = true)
    (differs : other.name ≠ policy.name) (tables : Family → Table) :
    createPoliciesIptables env other tables family (policyChain policy.name) =
      tables family (policyChain policy.name) := by
  by_cases short : other.name.length ≤ 15
  · rw [createPoliciesIptables_eq other tables needed short]
    exact Function.update_of_ne (fun same => differs (policyChain_injective same).symm) _ _
  · unfold createPoliciesIptables
    rw [if_pos (not_le.mp short)]

/-- A policy with a long name is never written. -/
theorem setPoliciesIptables_long (needed : env.need family = true) (long : 15 < policy.name.length)
    (policies : List Policy) (tables : Family → Table) :
    setPoliciesIptables env policies tables family (policyChain policy.name) =
      tables family (policyChain policy.name) := by
  induction policies generalizing tables with
  | nil => rfl
  | cons other others ih =>
      refine (ih _).trans ?_
      by_cases same : other.name = policy.name
      · simp only
        unfold createPoliciesIptables
        rw [if_pos (same ▸ long)]
      · exact createPoliciesIptables_other needed same tables

/-- Whatever the tables were, each policy has its rules afterwards. -/
theorem setPoliciesIptables_chain (needed : env.need family = true) (distinct : (policies.map Policy.name).Nodup)
    (listed : policy ∈ policies) (short : policy.name.length ≤ 15) (tables : Family → Table) :
    setPoliciesIptables env policies tables family (policyChain policy.name) =
      some (env.policyRules policy family) := by
  have kept : ∀ (others : List Policy) (tables : Family → Table), (∀ other ∈ others, other.name ≠ policy.name) →
      setPoliciesIptables env others tables family (policyChain policy.name) = tables family (policyChain policy.name) := by
    intro others
    induction others with
    | nil => exact fun _ _ => rfl
    | cons other others ih =>
        intro tables differ
        rw [List.forall_mem_cons] at differ
        exact (ih _ differ.2).trans (createPoliciesIptables_other needed differ.1 tables)
  induction policies generalizing tables with
  | nil => exact absurd listed List.not_mem_nil
  | cons first rest ih =>
      rw [List.map_cons, List.nodup_cons] at distinct
      rcases List.mem_cons.mp listed with rfl | later
      · have differ : ∀ other ∈ rest, other.name ≠ policy.name :=
          fun other member same => distinct.1 (same ▸ List.mem_map_of_mem member)
        refine (kept rest _ differ).trans ?_
        simp only
        rw [createPoliciesIptables_eq policy tables needed short]
        exact Table.set_self _ _ _
      · exact ih distinct.2 later _

/-- The policy has a chain for the family. -/
def Env.Writes (env : Env) (policy : Policy) (family : Family) (chain : String) : Prop :=
  env.need family = true ∧ policy.name.length ≤ 15 ∧ policyChain policy.name = chain

theorem createPoliciesIptables_not_needed (unneeded : env.need family = false) (tables : Family → Table) :
    createPoliciesIptables env policy tables family = tables family := by
  have idle : ∀ (m : Member) (s : Family → FamilyState), setPolicy env policy.name s m family = s family := by
    intro m s
    unfold setPolicy
    split
    · rfl
    split
    · rfl
    cases env.ifaceId m.interface with
    | none => rfl
    | some id =>
        simp only
        rw [foldl_update_at (env.familyList_nodup _) (fun family => setPolicyFamily env policy.name m id family)]
        simp [setPolicyFamily, unneeded]
  have members : ∀ (members : List Member) (s : Family → FamilyState),
      members.foldl (setPolicy env policy.name) s family = s family := by
    intro members
    induction members with
    | nil => exact fun _ => rfl
    | cons m members ih => exact fun s => (ih _).trans (idle m s)
  unfold createPoliciesIptables
  split
  · rfl
  · simp only
    rw [members]
    simp [startPolicy, unneeded]

/-- A chain that no policy has stays as it is. -/
theorem setPoliciesIptables_outside {chain : String} (outside : ∀ policy ∈ policies, ¬ env.Writes policy family chain)
    (tables : Family → Table) : setPoliciesIptables env policies tables family chain = tables family chain := by
  induction policies generalizing tables with
  | nil => rfl
  | cons first rest ih =>
      rw [List.forall_mem_cons] at outside
      refine (ih outside.2 _).trans ?_
      simp only
      cases needed : env.need family with
      | false => rw [createPoliciesIptables_not_needed needed]
      | true =>
          by_cases short : first.name.length ≤ 15
          · rw [createPoliciesIptables_eq first tables needed short]
            exact Function.update_of_ne (fun same => outside.1 ⟨needed, short, same.symm⟩) _ _
          · unfold createPoliciesIptables
            rw [if_pos (not_le.mp short)]

/-- A chain that a policy has does not depend on the tables before. -/
theorem setPoliciesIptables_inside {chain : String} (inside : ∃ policy ∈ policies, env.Writes policy family chain)
    (tables tables' : Family → Table) :
    setPoliciesIptables env policies tables family chain = setPoliciesIptables env policies tables' family chain := by
  induction policies using List.reverseRecOn with
  | nil =>
      obtain ⟨policy, member, -⟩ := inside
      exact absurd member List.not_mem_nil
  | append_singleton rest last ih =>
      unfold setPoliciesIptables at ih ⊢
      simp only [List.foldl_append, List.foldl_cons, List.foldl_nil]
      by_cases writes : env.Writes last family chain
      · obtain ⟨needed, short, rfl⟩ := writes
        rw [createPoliciesIptables_eq last _ needed short, createPoliciesIptables_eq last _ needed short,
          Table.set_self, Table.set_self]
      · obtain ⟨policy, member, own⟩ := inside
        have earlier : policy ∈ rest := by
          rcases List.mem_append.mp member with before | here
          · exact before
          · exact absurd (List.mem_singleton.mp here ▸ own) writes
        have kept := fun tables => @setPoliciesIptables_outside env [last] family chain
          (List.forall_mem_singleton.mpr writes) tables
        exact (kept _).trans ((ih ⟨policy, earlier, own⟩).trans (kept _).symm)

/-- The policies for later states replace those for earlier ones. -/
theorem setPoliciesIptables_absorbs {mask : Nat} {need : Family → Bool} {ifaces : List Iface}
    (first second : String → Family → Option String) (policies : List Policy) (tables : Family → Table) :
    setPoliciesIptables ⟨mask, need, ifaces, second⟩ policies
        (setPoliciesIptables ⟨mask, need, ifaces, first⟩ policies tables) =
      setPoliciesIptables ⟨mask, need, ifaces, second⟩ policies tables := by
  funext family chain
  by_cases inside : ∃ policy ∈ policies, (⟨mask, need, ifaces, second⟩ : Env).Writes policy family chain
  · exact setPoliciesIptables_inside inside _ _
  · have outside : ∀ policy ∈ policies, ¬ (⟨mask, need, ifaces, second⟩ : Env).Writes policy family chain :=
      fun policy member writes => inside ⟨policy, member, writes⟩
    rw [setPoliciesIptables_outside outside, setPoliciesIptables_outside outside]
    exact @setPoliciesIptables_outside ⟨mask, need, ifaces, first⟩ _ _ _ outside tables

end Policies

end XWrt.Mwan3
