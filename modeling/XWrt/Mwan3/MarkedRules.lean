import XWrt.Foundation.ChainTable
import XWrt.Mwan3.IfaceEvents

/-!
# Rules that carry marks

The chains of `mwan3_set_general_iptables` and of `mwan3_set_user_rules`, as far
as their rules hold marks and masks, and what it means that a rule is computed
from a mask: one lemma for each function that installs rules.
-/

namespace XWrt.Mwan3

open XWrt.Foundation

/-! ## Rules -/

/-- A place of a rule that holds a mask. -/
inductive MarkUse where
  /-- `--mark value/mask`, `--set-xmark value/mask` -/
  | value (value mask : Nat)
  /-- `--nfmask mask`, `--ctmask mask` -/
  | bare (mask : Nat)
  deriving DecidableEq, Repr

/-- The marks of a rule and the word after `-j`; its other matches hold no marks. -/
structure MarkedRule where
  uses : List MarkUse
  target : String
  deriving DecidableEq, Repr

/-- The chains of the mangle table other than those of the interfaces and the policies. -/
abbrev MarkTable := ChainTable String MarkedRule

abbrev MarkCommand := ChainCommand String MarkedRule

/-- `id/$MMX_MASK` -/
def Env.markOf (env : Env) (id : Int) : MarkUse := .value (id2mask id env.mask) env.mask

/-- `0x0/$MMX_MASK` -/
def Env.noMark (env : Env) : MarkUse := .value 0 env.mask

/-- `-j MARK --set-xmark $MMX_DEFAULT/$MMX_MASK` after other marks. -/
def Env.toDefault (env : Env) (uses : List MarkUse) : MarkedRule :=
  ⟨uses ++ [env.markOf (mmDefault env.mask)], "MARK"⟩

/-- The rules of `mwan3_hook`. -/
def hookRules (env : Env) (family : Family) : List MarkedRule :=
  (if family = .ipv6 then List.replicate 5 ⟨[], "RETURN"⟩ else []) ++
    [⟨[env.noMark, .bare env.mask, .bare env.mask], "CONNMARK"⟩,
      ⟨[env.noMark], "mwan3_ifaces_in"⟩,
      ⟨[env.noMark], "mwan3_local"⟩] ++
    (if family = .ipv6 then [env.toDefault [env.noMark]] else []) ++
    [⟨[env.noMark], "mwan3_rules"⟩,
      ⟨[], "mwan3_connected"⟩,
      ⟨[.bare env.mask, .bare env.mask], "CONNMARK"⟩]

/-- The chains of `mwan3_set_general_iptables`; each is written when it is missing. -/
def generalCommands (env : Env) (family : Family) (table : MarkTable) : List MarkCommand :=
  table.writeMissing "mwan3_local" [env.toDefault []] ++
    table.writeMissing "mwan3_connected"
      [env.toDefault [env.markOf (mmBlackhole env.mask)],
        env.toDefault [env.markOf (mmUnreachable env.mask)],
        env.toDefault [env.noMark]] ++
    table.writeMissing "mwan3_rules" [] ++
    table.writeMissing "mwan3_hook" (hookRules env family)

/-- `mwan3_set_general_iptables` for one family. -/
def setGeneralMarks (env : Env) (family : Family) (table : MarkTable) : MarkTable :=
  if env.need family then table.restore (generalCommands env family table) else table

/-! ## User rules -/

/-- A rule section. -/
structure UserRule where
  name : String
  usePolicy : String
  sticky : Bool
  srcIface : Option String
  family : FamilyOption
  logging : Bool
  deriving DecidableEq, Repr

namespace UserRule

/-- The checks of `mwan3_set_user_iptables_rule`; `found` are the interfaces that have a device. -/
def written (rule : UserRule) (found : String → Bool) (ipv : Family) : Bool :=
  rule.srcIface.all found && rule.name.length ≤ 15 && rule.usePolicy != "" &&
    !(rule.family = .ipv4 && ipv = .ipv6) && !(rule.family = .ipv6 && ipv = .ipv4)

/-- `rule_policy = 1` -/
def rulePolicy (rule : UserRule) : Bool :=
  rule.usePolicy != "default" && rule.usePolicy != "unreachable" && rule.usePolicy != "blackhole"

/-- The rule gets a chain of its own. -/
def sticks (rule : UserRule) (found : String → Bool) (ipv : Family) : Bool :=
  rule.written found ipv && rule.rulePolicy && rule.sticky

def chain (rule : UserRule) : String := "mwan3_rule_" ++ rule.name

end UserRule

/-- What the functions for user rules see of one family. -/
structure RuleView where
  /-- the names of the policy sections -/
  policies : List String
  found : String → Bool
  chains : IfaceChains
  table : MarkTable
  policyTable : Table

/-- The interfaces in the comments of the chains that start like the rule's policy. -/
def RuleView.members (view : RuleView) (rule : UserRule) : List String :=
  (view.policies.filter fun policy => rule.usePolicy.toList.isPrefixOf policy.toList).flatMap fun policy =>
    ((view.policyTable (policyChain policy)).getD []).filterMap fun rule =>
      match rule.comment with
      | .member interface _ _ => some interface
      | .lastResort _ => none

/-- `mwan3_set_sticky_iptables` -/
def setStickyIptables (env : Env) (view : RuleView) (rule : UserRule) (name : String) :
    List MarkCommand :=
  (view.members rule).flatMap fun iface =>
    if iface = name then
      match env.ifaceId name with
      | none => []
      | some id =>
          if ifaceChain name ∈ view.chains then
            [.insert rule.chain ⟨[env.markOf id, env.noMark], "MARK"⟩,
              .insert rule.chain ⟨[env.noMark, env.markOf id], "MARK"⟩]
          else []
    else []

/-- The target of a rule in `mwan3_rules`, with its marks. -/
def UserRule.jump (env : Env) (rule : UserRule) : MarkedRule :=
  if rule.usePolicy = "default" then ⟨[env.markOf (mmDefault env.mask)], "MARK"⟩
  else if rule.usePolicy = "unreachable" then ⟨[env.markOf (mmUnreachable env.mask)], "MARK"⟩
  else if rule.usePolicy = "blackhole" then ⟨[env.markOf (mmBlackhole env.mask)], "MARK"⟩
  else if rule.sticky then ⟨[], rule.chain⟩
  else ⟨[], policyChain rule.usePolicy⟩

/-- `mwan3_set_user_iptables_rule` -/
def setUserIptablesRule (env : Env) (view : RuleView) (ipv : Family) (rule : UserRule) :
    List MarkCommand :=
  if rule.written view.found ipv then
    let policy := policyChain rule.usePolicy
    (if rule.rulePolicy ∧ ¬((view.policyTable policy).isSome ∨ (view.table policy).isSome) then
        [.new policy] else []) ++
      (if rule.rulePolicy ∧ rule.sticky then
        (if (view.table rule.chain).isSome then [] else [.new rule.chain]) ++ [.flush rule.chain] ++
          (env.ifaces.flatMap fun iface => setStickyIptables env view rule iface.name) ++
          [.append rule.chain ⟨[env.noMark], policy⟩,
            .append rule.chain ⟨[.value 0xfc00 0xfc00], "SET"⟩,
            .append rule.chain ⟨[.value 0xfc00 0xfc00], "SET"⟩]
      else []) ++
      (if rule.logging then [.append "mwan3_rules" ⟨[env.noMark], "LOG"⟩] else []) ++
      [.append "mwan3_rules" ⟨env.noMark :: (rule.jump env).uses, (rule.jump env).target⟩]
  else []

/-- `mwan3_set_user_rules` for one family. -/
def setUserRules (env : Env) (rules : List UserRule) (view : RuleView) (ipv : Family) : MarkTable :=
  if env.need ipv then
    let update := (if (view.table "mwan3_rules").isSome then [] else [.new "mwan3_rules"]) ++
      [.flush "mwan3_rules"] ++ rules.flatMap (setUserIptablesRule env view ipv)
    match update.foldlM ChainCommand.run view.table with
    | some table => table
    | none => view.table.each update
  else view.table

/-! ## Rules computed from a mask -/

/-- The mask is the one given, and the value is the mark of some id. -/
def MarkUse.From (mask : Nat) : MarkUse → Prop
  | .value mark mask' => mask' = mask ∧ ∃ id : Int, mark = id2mask id mask
  | .bare mask' => mask' = mask

def MarkedRule.From (mask : Nat) (rule : MarkedRule) : Prop := ∀ use ∈ rule.uses, use.From mask

/-- The mark is the one of the table that is looked up, or of the last resort. -/
def IpRule.From (mask : Nat) (rule : IpRule) : Prop :=
  match rule.action with
  | .iif .. => True
  | .fwmark mark mask' table => mask' = mask ∧ mark = id2mask table mask
  | .blackhole mark mask' => mask' = mask ∧ mark = id2mask (mmBlackhole mask) mask
  | .unreachable mark mask' => mask' = mask ∧ mark = id2mask (mmUnreachable mask) mask
  | .lookup _ => True

/-- The mark is the one of the interface that the comment names. -/
def IfaceRule.From (env : Env) : IfaceRule → Prop
  | .jump mask _ => mask = env.mask
  | .mark _ mask name value =>
      mask = env.mask ∧ ∃ id, env.ifaceId name = some id ∧ value = id2mask id env.mask

/-- The mark is the one of the interface or the last resort that the comment names. -/
def Rule.From (env : Env) (rule : Rule) : Prop :=
  rule.mask = env.mask ∧
    match rule.comment with
    | .member name _ _ => ∃ id, env.ifaceId name = some id ∧ rule.setMark = id2mask id env.mask
    | .lastResort action => rule.setMark = action.mark env.mask

/-- Every rule of the interface chains is computed from the mask. -/
def IfaceChains.From (env : Env) (chains : IfaceChains) : Prop :=
  ∀ chain, ∀ rules ∈ chains.lookup chain, ∀ rule ∈ rules, rule.From env

section Writes

variable {env : Env}

theorem markOf_from (env : Env) (id : Int) : (env.markOf id).From env.mask := ⟨rfl, id, rfl⟩

theorem noMark_from (env : Env) : env.noMark.From env.mask := ⟨rfl, 0, (id2mask_zero env.mask).symm⟩

theorem bare_from (env : Env) : (MarkUse.bare env.mask).From env.mask := rfl

theorem toDefault_from {uses : List MarkUse} (from_mask : ∀ use ∈ uses, use.From env.mask) :
    (env.toDefault uses).From env.mask := by
  intro use member
  rcases List.mem_append.mp member with earlier | last
  · exact from_mask use earlier
  · obtain rfl := List.mem_singleton.mp last
    exact markOf_from env _

theorem hookRules_from (env : Env) (family : Family) :
    ∀ rule ∈ hookRules env family, MarkedRule.From env.mask rule := by
  have single : ∀ {use : MarkUse} {target : String}, use.From env.mask →
      MarkedRule.From env.mask ⟨[use], target⟩ := by
    intro use target own
    exact List.forall_mem_singleton.mpr own
  have onV6 : ∀ {rules : List MarkedRule}, (∀ rule ∈ rules, MarkedRule.From env.mask rule) →
      ∀ rule ∈ if family = .ipv6 then rules else [], MarkedRule.From env.mask rule := by
    intro rules every
    split
    · exact every
    · exact List.forall_mem_nil _
  have unmarked := noMark_from env
  have bare := bare_from env
  unfold hookRules
  simp only [List.forall_mem_append, List.forall_mem_cons]
  refine ⟨⟨⟨onV6 ?_, ?_, single unmarked, single unmarked, List.forall_mem_nil _⟩, onV6 ?_⟩,
    single unmarked, List.forall_mem_nil _, ?_, List.forall_mem_nil _⟩
  · intro rule member
    rw [List.eq_of_mem_replicate member]
    exact List.forall_mem_nil _
  · exact List.forall_mem_cons.mpr
      ⟨unmarked, List.forall_mem_cons.mpr ⟨bare, List.forall_mem_singleton.mpr bare⟩⟩
  · exact List.forall_mem_singleton.mpr (toDefault_from (List.forall_mem_singleton.mpr unmarked))
  · exact List.forall_mem_cons.mpr ⟨bare, List.forall_mem_singleton.mpr bare⟩

theorem generalCommands_writes (env : Env) (family : Family) (table : MarkTable) :
    ∀ command ∈ generalCommands env family table, command.Writes (MarkedRule.From env.mask) := by
  unfold generalCommands
  simp only [List.forall_mem_append]
  refine ⟨⟨⟨table.writeMissing_writes _ ?_, table.writeMissing_writes _ ?_⟩,
    table.writeMissing_writes _ (List.forall_mem_nil _)⟩,
    table.writeMissing_writes _ (hookRules_from env family)⟩
  · exact List.forall_mem_singleton.mpr (toDefault_from (List.forall_mem_nil _))
  · simp only [List.forall_mem_cons]
    refine ⟨?_, ?_, ?_, List.forall_mem_nil _⟩
    · exact toDefault_from (List.forall_mem_singleton.mpr (markOf_from env _))
    · exact toDefault_from (List.forall_mem_singleton.mpr (markOf_from env _))
    · exact toDefault_from (List.forall_mem_singleton.mpr (noMark_from env))

theorem setGeneralMarks_from {family : Family} {table : MarkTable}
    (every : table.Every (MarkedRule.From env.mask)) :
    (setGeneralMarks env family table).Every (MarkedRule.From env.mask) := by
  unfold setGeneralMarks
  split
  · exact every.restore (generalCommands_writes env family table)
  · exact every

theorem setStickyIptables_writes (view : RuleView) (rule : UserRule) (name : String) :
    ∀ command ∈ setStickyIptables env view rule name, command.Writes (MarkedRule.From env.mask) := by
  intro command member
  obtain ⟨iface, -, inside⟩ := List.mem_flatMap.mp member
  split at inside
  · cases found : env.ifaceId name with
    | none => simp [found] at inside
    | some id =>
        simp only [found] at inside
        split at inside
        · have marked := markOf_from env id
          have unmarked := noMark_from env
          rcases List.mem_cons.mp inside with rfl | last
          · exact List.forall_mem_cons.mpr ⟨marked, List.forall_mem_singleton.mpr unmarked⟩
          · obtain rfl := List.mem_singleton.mp last
            exact List.forall_mem_cons.mpr ⟨unmarked, List.forall_mem_singleton.mpr marked⟩
        · cases inside
  · cases inside

theorem jump_from (rule : UserRule) : (rule.jump env).From env.mask := by
  have marked : ∀ id : Int, MarkedRule.From env.mask ⟨[env.markOf id], "MARK"⟩ :=
    fun id => List.forall_mem_singleton.mpr (markOf_from env id)
  unfold UserRule.jump
  split
  · exact marked _
  · split
    · exact marked _
    · split
      · exact marked _
      · split <;> exact List.forall_mem_nil _

/-- The rules of a chain of its own match a fixed mask. -/
theorem setUserIptablesRule_writes {view : RuleView} {ipv : Family} {rule : UserRule}
    (own : rule.sticks view.found ipv = true → env.mask = 0xfc00) (bound : env.mask < 2 ^ 32) :
    ∀ command ∈ setUserIptablesRule env view ipv rule, command.Writes (MarkedRule.From env.mask) := by
  have unmarked := noMark_from env
  unfold setUserIptablesRule
  split
  · rename_i written
    simp only [List.forall_mem_append]
    refine ⟨⟨⟨?_, ?_⟩, ?_⟩, ?_⟩
    · split
      · exact List.forall_mem_singleton.mpr trivial
      · exact List.forall_mem_nil _
    · split
      · rename_i sticky
        have fixed : env.mask = 0xfc00 :=
          own (by simp [UserRule.sticks, written, sticky.1, sticky.2])
        have set : MarkedRule.From env.mask ⟨[.value 0xfc00 0xfc00], "SET"⟩ := by
          refine List.forall_mem_singleton.mpr ⟨fixed.symm, mmDefault env.mask, ?_⟩
          rw [id2mask_mmDefault bound, fixed]
        simp only [List.forall_mem_append, List.forall_mem_cons]
        refine ⟨⟨⟨?_, trivial, List.forall_mem_nil _⟩, ?_⟩,
          List.forall_mem_singleton.mpr unmarked, set, set, List.forall_mem_nil _⟩
        · split
          · exact List.forall_mem_nil _
          · exact List.forall_mem_singleton.mpr trivial
        · intro command member
          obtain ⟨iface, -, inside⟩ := List.mem_flatMap.mp member
          exact setStickyIptables_writes view rule iface.name command inside
      · exact List.forall_mem_nil _
    · split
      · exact List.forall_mem_singleton.mpr (List.forall_mem_singleton.mpr unmarked)
      · exact List.forall_mem_nil _
    · exact List.forall_mem_singleton.mpr (List.forall_mem_cons.mpr ⟨unmarked, jump_from rule⟩)
  · exact List.forall_mem_nil _

theorem setUserRules_from {rules : List UserRule} {view : RuleView} {ipv : Family}
    (own : ∀ rule ∈ rules, rule.sticks view.found ipv = true → env.need ipv = true → env.mask = 0xfc00)
    (bound : env.mask < 2 ^ 32) (every : view.table.Every (MarkedRule.From env.mask)) :
    (setUserRules env rules view ipv).Every (MarkedRule.From env.mask) := by
  unfold setUserRules
  split
  · rename_i needed
    have writes : ∀ command ∈ (if (view.table "mwan3_rules").isSome then [] else [.new "mwan3_rules"]) ++
        [.flush "mwan3_rules"] ++ rules.flatMap (setUserIptablesRule env view ipv),
        command.Writes (MarkedRule.From env.mask) := by
      simp only [List.forall_mem_append]
      refine ⟨⟨?_, List.forall_mem_singleton.mpr trivial⟩, ?_⟩
      · split
        · exact List.forall_mem_nil _
        · exact List.forall_mem_singleton.mpr trivial
      · intro command member
        obtain ⟨rule, listed, inside⟩ := List.mem_flatMap.mp member
        exact setUserIptablesRule_writes (fun sticks => own rule listed sticks needed) bound command inside
    have restored := every.restore writes
    unfold ChainTable.restore at restored
    simp only
    split
    · rename_i table ran
      rw [ran] at restored
      exact restored
    · exact every.each writes
  · exact every

/-! ## ip rules and interface chains -/

theorem createIfaceRules_from {rules : List IpRule} (every : ∀ rule ∈ rules, rule.From env.mask)
    (name device : String) (family : Family) :
    ∀ rule ∈ createIfaceRules env name device family rules, rule.From env.mask := by
  unfold createIfaceRules
  split
  · exact every
  · split
    · rename_i id _ _
      have looked : IpRule.From env.mask
          ⟨id + 2000, .fwmark (id2mask id env.mask) env.mask id⟩ := ⟨rfl, rfl⟩
      rw [delIfacePrefs_eq]
      refine List.forall_mem_append.mpr ⟨?_, List.forall_mem_cons.mpr
        ⟨trivial, List.forall_mem_singleton.mpr looked⟩⟩
      exact fun rule member => every rule (List.mem_of_mem_filter member)
    · exact every

theorem setGeneralRules_from {rules : List IpRule} (every : ∀ rule ∈ rules, rule.From env.mask)
    (family : Family) : ∀ rule ∈ setGeneralRules env family rules, rule.From env.mask := by
  have add : ∀ {rules : List IpRule} (rule : IpRule), (∀ rule ∈ rules, rule.From env.mask) →
      rule.From env.mask → ∀ other ∈ addGeneralRule rule rules, other.From env.mask := by
    intro rules rule every own other member
    unfold addGeneralRule at member
    split at member
    · exact every other member
    · rcases List.mem_append.mp member with old | last
      · exact every other old
      · exact List.mem_singleton.mp last ▸ own
  have blackhole : IpRule.From env.mask ⟨mmBlackhole env.mask + 2000,
      .blackhole (id2mask (mmBlackhole env.mask) env.mask) env.mask⟩ := ⟨rfl, rfl⟩
  have unreachable : IpRule.From env.mask ⟨mmUnreachable env.mask + 2000,
      .unreachable (id2mask (mmUnreachable env.mask) env.mask) env.mask⟩ := ⟨rfl, rfl⟩
  unfold setGeneralRules
  split
  · exact add _ (add _ every blackhole) unreachable
  · exact every

/-- A rule that the command writes is computed from the mask. -/
def IfaceCommand.Writes (env : Env) : IfaceCommand → Prop
  | .append _ rule => rule.From env
  | _ => True

namespace IfaceChains.From

variable {chains : IfaceChains}

theorem insert (every : IfaceChains.From env chains) (chain : String) {rules : List IfaceRule}
    (written : ∀ rule ∈ rules, rule.From env) :
    IfaceChains.From env (AList.insert chain rules chains) := by
  intro other rules' found
  by_cases same : other = chain
  · subst same
    rw [AList.lookup_insert] at found
    obtain rfl := Option.some.inj found
    exact written
  · rw [AList.lookup_insert_ne same] at found
    exact every other rules' found

theorem run (every : IfaceChains.From env chains) {command : IfaceCommand}
    (writes : command.Writes env) {chains' : IfaceChains} (ran : command.run chains = some chains') :
    IfaceChains.From env chains' := by
  cases command with
  | new chain =>
      simp only [IfaceCommand.run, Option.ite_none_left_eq_some] at ran
      obtain rfl := Option.some.inj ran.2
      exact every.insert chain (List.forall_mem_nil _)
  | flush chain =>
      obtain ⟨_, _, rfl⟩ := Option.map_eq_some_iff.mp ran
      exact every.insert chain (List.forall_mem_nil _)
  | append chain rule =>
      obtain ⟨rules, present, added⟩ := Option.bind_eq_some_iff.mp ran
      obtain ⟨-, added⟩ := Option.ite_none_right_eq_some.mp added
      obtain rfl := Option.some.inj added
      exact every.insert chain (List.forall_mem_append.mpr
        ⟨every chain rules present, List.forall_mem_singleton.mpr writes⟩)
  | delete chain rule =>
      obtain ⟨rules, present, removed⟩ := Option.bind_eq_some_iff.mp ran
      obtain ⟨-, removed⟩ := Option.ite_none_right_eq_some.mp removed
      obtain rfl := Option.some.inj removed
      exact every.insert chain fun other member =>
        every chain rules present other (List.mem_of_mem_erase member)
  | drop chain =>
      obtain ⟨rules, present, removed⟩ := Option.bind_eq_some_iff.mp ran
      obtain ⟨-, removed⟩ := Option.ite_none_right_eq_some.mp removed
      obtain rfl := Option.some.inj removed
      intro other rules' found
      by_cases same : other = chain
      · subst same
        rw [AList.lookup_erase] at found
        cases found
      · rw [AList.lookup_erase_ne same] at found
        exact every other rules' found

theorem restore (every : IfaceChains.From env chains) {commands : List IfaceCommand}
    (writes : ∀ command ∈ commands, command.Writes env) :
    IfaceChains.From env (restoreChains chains commands) := by
  apply getD_foldlM_keeps _ every
  intro command member before after every ran
  exact IfaceChains.From.run every (writes command member) ran

end IfaceChains.From

theorem createIfaceIptables_from {chains : IfaceChains} (every : IfaceChains.From env chains)
    (text name device : String) (family : Family) :
    IfaceChains.From env (createIfaceIptables env text name device family chains) := by
  unfold createIfaceIptables
  split
  · exact every
  · rename_i id found
    split
    · refine every.restore ?_
      simp only [List.forall_mem_append, List.forall_mem_cons]
      refine ⟨⟨?_, ?_, ⟨rfl, id, found, rfl⟩, List.forall_mem_nil _⟩, ?_⟩
      · split
        · exact List.forall_mem_nil _
        · exact List.forall_mem_singleton.mpr trivial
      · split <;> trivial
      · split
        · exact List.forall_mem_nil _
        · exact List.forall_mem_singleton.mpr rfl
    · exact every

theorem setGeneralIptables_from {chains : IfaceChains} (every : IfaceChains.From env chains)
    (family : Family) : IfaceChains.From env (setGeneralIptables env family chains) := by
  unfold setGeneralIptables
  split
  · refine every.restore ?_
    split
    · exact List.forall_mem_nil _
    · exact List.forall_mem_singleton.mpr trivial
  · exact every

end Writes

/-! ## Policies -/

/-- The lines of a policy update as those of a table of chains. -/
def Command.toChain : Command → ChainCommand String Rule
  | .new chain => .new chain
  | .flush chain => .flush chain
  | .append chain rule => .append chain rule
  | .insert chain rule => .insert chain rule

theorem restore_eq (table : Table) (update : List Command) :
    restore table update = ChainTable.restore table (update.map Command.toChain) := by
  have line : ∀ (table : Table) (command : Command), command.run table = command.toChain.run table := by
    intro table command
    cases command <;> rfl
  have lines : ∀ (update : List Command) (table : Table), update.foldlM Command.run table =
      (update.map Command.toChain).foldlM ChainCommand.run table := by
    intro update
    induction update with
    | nil => exact fun _ => rfl
    | cons first rest ih =>
        intro table
        rw [List.map_cons, List.foldlM_cons, List.foldlM_cons, line]
        exact Option.bind_congr fun next _ => ih next
  rw [restore, lines]
  rfl

section Policies

variable {env : Env}

theorem restore_from {table : Table} (every : ChainTable.Every (Rule.From env) table)
    {update : List Command}
    (writes : ∀ command ∈ update, command.toChain.Writes (Rule.From env)) :
    ChainTable.Every (Rule.From env) (restore table update) := by
  rw [restore_eq]
  exact every.restore (List.forall_mem_map.mpr writes)

theorem setPolicyFamily_from {policy : String} {m : Member} {id : Nat}
    (found : env.ifaceId m.interface = some id) {family : Family} {s : FamilyState}
    (every : ChainTable.Every (Rule.From env) s.table) :
    ChainTable.Every (Rule.From env) (setPolicyFamily env policy m id family s).table := by
  have member : ∀ total probability, (env.memberRule m id total probability).From env :=
    fun total probability => ⟨rfl, id, found, rfl⟩
  unfold setPolicyFamily
  split
  · split
    · refine restore_from every ?_
      simp only [List.forall_mem_cons]
      exact ⟨trivial, member _ _, List.forall_mem_nil _⟩
    · split
      · exact restore_from every (List.forall_mem_singleton.mpr (member _ _))
      · exact every
  · exact every

theorem setPolicy_from (policy : String) {s : Family → FamilyState}
    (every : ∀ family, ChainTable.Every (Rule.From env) (s family).table) (m : Member) (family : Family) :
    ChainTable.Every (Rule.From env) (setPolicy env policy s m family).table := by
  unfold setPolicy
  split
  · exact every family
  split
  · exact every family
  cases found : env.ifaceId m.interface with
  | none => exact every family
  | some id =>
      simp only
      rw [foldl_update_at (env.familyList_nodup _) (fun family => setPolicyFamily env policy m id family)]
      split
      · exact setPolicyFamily_from found (every family)
      · exact every family

theorem createPoliciesIptables_from (policy : Policy) {tables : Family → Table}
    (every : ∀ family, ChainTable.Every (Rule.From env) (tables family)) (family : Family) :
    ChainTable.Every (Rule.From env) (createPoliciesIptables env policy tables family) := by
  have started : ∀ family,
      ChainTable.Every (Rule.From env) (startPolicy env policy family (tables family)) := by
    intro family
    unfold startPolicy
    simp only
    split
    · refine restore_from (every family) ?_
      simp only [List.forall_mem_append, List.forall_mem_cons]
      refine ⟨?_, trivial, ⟨rfl, rfl⟩, List.forall_mem_nil _⟩
      split
      · exact List.forall_mem_nil _
      · exact List.forall_mem_singleton.mpr trivial
    · exact every family
  have members : ∀ (members : List Member) (s : Family → FamilyState),
      (∀ family, ChainTable.Every (Rule.From env) (s family).table) →
        ∀ family, ChainTable.Every (Rule.From env) (members.foldl (setPolicy env policy.name) s family).table := by
    intro members
    induction members with
    | nil => exact fun _ every => every
    | cons m members ih => exact fun s every => ih _ (setPolicy_from policy.name every m)
  unfold createPoliciesIptables
  split
  · exact every family
  · exact members policy.members _ started family

end Policies

end XWrt.Mwan3
