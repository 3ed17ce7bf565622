import XWrt.Mwan3.MarkedRules
import XWrt.Mwan3.Thousandths

/-!
# Sticky rules

The chain that `mwan3_set_user_iptables_rule` gives a sticky rule, and what it
does to a connection. The chain first tries the interfaces that it found in the
rules of the policy, keeps the first one for which the source address has an
entry in the set, and sends the others to the policy.
-/

namespace XWrt.Mwan3

open XWrt.Foundation

/-! ## The chain -/

/-- A rule of the chain. -/
inductive StickyRule where
  /-- `--mark 0/$MMX_MASK -j MARK --set-xmark mark/$MMX_MASK` -/
  | attempt (mark : Nat)
  /-- `--mark mark/$MMX_MASK -m set ! --match-set set src,src -j MARK --set-xmark 0x0/$MMX_MASK` -/
  | release (mark : Nat)
  /-- `--mark 0/$MMX_MASK -j mwan3_policy_...` -/
  | policy
  /-- `! --mark 0xfc00/0xfc00 -j SET --del-set set src,src` -/
  | delete
  /-- `! --mark 0xfc00/0xfc00 -j SET --add-set set src,src` -/
  | add
  deriving DecidableEq, Repr

/-- The rule as it is installed. -/
def StickyRule.marked (env : Env) (rule : UserRule) : StickyRule → MarkedRule
  | attempt mark => ⟨[env.noMark, .value mark env.mask], "MARK"⟩
  | release mark => ⟨[.value mark env.mask, env.noMark], "MARK"⟩
  | policy => ⟨[env.noMark], policyChain rule.usePolicy⟩
  | delete => ⟨[.value 0xfc00 0xfc00], "SET"⟩
  | add => ⟨[.value 0xfc00 0xfc00], "SET"⟩

/-- The interfaces that `mwan3_set_sticky_iptables` inserts rules for, one after the other. -/
def RuleView.tried (env : Env) (view : RuleView) (rule : UserRule) : List String :=
  env.ifaces.flatMap fun iface => (view.members rule).filter fun name =>
    name = iface.name ∧ (env.ifaceId name).isSome = true ∧ ifaceChain name ∈ view.chains

/-- The two rules of an interface. -/
def tryRules (env : Env) (name : String) : List StickyRule :=
  [.attempt (env.mark name), .release (env.mark name)]

/-- Every pair of rules is inserted ahead of the others. -/
def stickyChain (env : Env) (view : RuleView) (rule : UserRule) : List StickyRule :=
  (view.tried env rule).reverse.flatMap (tryRules env) ++ [.policy, .delete, .add]

/-- The insertions of an interface. -/
def insertions (env : Env) (rule : UserRule) (name : String) : List MarkCommand :=
  [.insert rule.chain ((StickyRule.release (env.mark name)).marked env rule),
    .insert rule.chain ((StickyRule.attempt (env.mark name)).marked env rule)]

section Chain

variable {env : Env} {view : RuleView} {rule : UserRule}

theorem setStickyIptables_eq (env : Env) (view : RuleView) (rule : UserRule) (name : String) :
    setStickyIptables env view rule name =
      ((view.members rule).filter fun other =>
        other = name ∧ (env.ifaceId other).isSome = true ∧ ifaceChain other ∈ view.chains).flatMap
          (insertions env rule) := by
  unfold setStickyIptables
  induction view.members rule with
  | nil => rfl
  | cons other rest ih =>
      rw [List.flatMap_cons, ih]
      by_cases same : other = name
      · subst same
        cases found : env.ifaceId other with
        | none => simp [found]
        | some id =>
            by_cases present : ifaceChain other ∈ view.chains
            · simp [found, present, insertions, StickyRule.marked, mark_eq found, Env.markOf]
            · simp [present]
      · simp [same]

theorem sticky_insertions (env : Env) (view : RuleView) (rule : UserRule) :
    (env.ifaces.flatMap fun iface => setStickyIptables env view rule iface.name) =
      (view.tried env rule).flatMap (insertions env rule) := by
  unfold RuleView.tried
  rw [List.flatMap_assoc]
  exact List.flatMap_congr fun iface _ => setStickyIptables_eq env view rule iface.name

theorem foldlM_insertions (names : List String) {table : MarkTable} {rules : List MarkedRule}
    (present : table rule.chain = some rules) :
    (names.flatMap (insertions env rule)).foldlM ChainCommand.run table =
      some (Function.update table rule.chain
        (some ((names.reverse.flatMap (tryRules env)).map (StickyRule.marked env rule) ++ rules))) := by
  induction names generalizing table rules with
  | nil =>
      have same : Function.update table rule.chain (some rules) = table := by
        rw [← present]
        exact Function.update_eq_self _ _
      exact congrArg some same.symm
  | cons name names ih =>
      have first : (insertions env rule name).foldlM ChainCommand.run table =
          some (Function.update table rule.chain
            (some ((tryRules env name).map (StickyRule.marked env rule) ++ rules))) := by
        simp [insertions, tryRules, ChainCommand.run, present]
      rw [List.flatMap_cons, List.foldlM_append, first]
      simp only [Option.bind_eq_bind, Option.bind_some]
      rw [ih (Function.update_self _ _ _), Function.update_idem, List.reverse_cons, List.flatMap_append,
        List.map_append, List.flatMap_singleton, List.append_assoc]

/-- The lines of a sticky rule leave its chain with these rules, and the lines after them are for
another chain. -/
theorem setUserIptablesRule_sticky {ipv : Family} (sticks : rule.sticks view.found ipv = true) :
    ∃ front lines back, setUserIptablesRule env view ipv rule = front ++ lines ++ back ∧
      (∀ command ∈ back, ∃ marked, command = .append "mwan3_rules" marked) ∧
      ∀ table : MarkTable, (table rule.chain).isSome = true →
        lines.foldlM ChainCommand.run table =
          some (Function.update table rule.chain
            (some ((stickyChain env view rule).map (StickyRule.marked env rule)))) := by
  obtain ⟨⟨written, ruled⟩, sticky⟩ :
      (rule.written view.found ipv = true ∧ rule.rulePolicy = true) ∧ rule.sticky = true := by
    simpa [UserRule.sticks] using sticks
  let lines := [.flush rule.chain] ++
    (env.ifaces.flatMap fun iface => setStickyIptables env view rule iface.name) ++
    [.append rule.chain ⟨[env.noMark], policyChain rule.usePolicy⟩,
      .append rule.chain ⟨[.value 0xfc00 0xfc00], "SET"⟩, .append rule.chain ⟨[.value 0xfc00 0xfc00], "SET"⟩]
  have ran : ∀ table : MarkTable, (table rule.chain).isSome = true →
      lines.foldlM ChainCommand.run table = some (Function.update table rule.chain
        (some ((stickyChain env view rule).map (StickyRule.marked env rule)))) := by
    intro table present
    obtain ⟨rules, here⟩ := Option.isSome_iff_exists.mp present
    have flushed : [ChainCommand.flush rule.chain].foldlM ChainCommand.run table =
        some (Function.update table rule.chain (some [])) := by
      simp [ChainCommand.run, here]
    have tail : (stickyChain env view rule).map (StickyRule.marked env rule) =
        ((view.tried env rule).reverse.flatMap (tryRules env)).map (StickyRule.marked env rule) ++
          [⟨[env.noMark], policyChain rule.usePolicy⟩, ⟨[.value 0xfc00 0xfc00], "SET"⟩, ⟨[.value 0xfc00 0xfc00], "SET"⟩] := by
      rw [stickyChain, List.map_append]
      rfl
    rw [List.foldlM_append, List.foldlM_append, flushed, sticky_insertions]
    simp only [Option.bind_eq_bind, Option.bind_some]
    rw [foldlM_insertions _ (Function.update_self _ _ _), Function.update_idem, tail]
    simp [ChainCommand.run]
  unfold setUserIptablesRule
  rw [if_pos written]
  simp only
  rw [if_pos (⟨ruled, sticky⟩ : rule.rulePolicy = true ∧ rule.sticky = true)]
  refine ⟨(if rule.rulePolicy = true ∧
      ¬((view.policyTable (policyChain rule.usePolicy)).isSome = true ∨
        (view.table (policyChain rule.usePolicy)).isSome = true) then [.new (policyChain rule.usePolicy)] else []) ++
      (if (view.table rule.chain).isSome then [] else [.new rule.chain]), lines,
    (if rule.logging then [.append "mwan3_rules" ⟨[env.noMark], "LOG"⟩] else []) ++
      [.append "mwan3_rules" ⟨env.noMark :: (rule.jump env).uses, (rule.jump env).target⟩], ?_, ?_, ran⟩
  · simp only [lines, List.append_assoc]
  · refine List.forall_mem_append.mpr ⟨?_, List.forall_mem_singleton.mpr ⟨_, rfl⟩⟩
    split
    · exact List.forall_mem_singleton.mpr ⟨_, rfl⟩
    · exact List.forall_mem_nil _

end Chain

/-! ## A connection in the chain -/

/-- The mark of a connection and the set of the rule; an entry is a source address and a mark
under the mask. -/
structure StickyPacket where
  mark : Nat
  entries : Finset (Nat × Nat)

/-- A rule and the first packet of a connection from `source`; `picked` is the mark with which the
policy would send it back. -/
def StickyRule.act (mask source picked : Nat) (packet : StickyPacket) : StickyRule → StickyPacket
  | attempt mark =>
      if packet.mark &&& mask = 0 then { packet with mark := setXmark mark mask packet.mark } else packet
  | release mark =>
      if packet.mark &&& mask = mark ∧ (source, packet.mark &&& mask) ∉ packet.entries then
        { packet with mark := setXmark 0 mask packet.mark }
      else packet
  | policy => if packet.mark &&& mask = 0 then { packet with mark := picked } else packet
  | delete =>
      if packet.mark &&& 0xfc00 ≠ 0xfc00 then
        { packet with entries := packet.entries.erase (source, packet.mark &&& mask) }
      else packet
  | add =>
      if packet.mark &&& 0xfc00 ≠ 0xfc00 then
        { packet with entries := insert (source, packet.mark &&& mask) packet.entries }
      else packet

def passChain (mask source picked : Nat) (chain : List StickyRule) (packet : StickyPacket) : StickyPacket :=
  chain.foldl (StickyRule.act mask source picked) packet

section Pass

variable {mask source picked fwmark mark : Nat} {entries : Finset (Nat × Nat)}

theorem setXmark_zero (fresh : fwmark &&& mask = 0) (inside : mark &&& mask = mark) :
    setXmark 0 mask (setXmark mark mask fwmark) = fwmark := by
  have under := and_setXmark fresh inside
  rw [setXmark, under, setXmark, fresh, Nat.xor_zero, Nat.xor_zero, Nat.xor_assoc, Nat.xor_self, Nat.xor_zero]

/-- The pair of rules of a mark keeps the mark where there is an entry. -/
theorem pass_tryPair (fresh : fwmark &&& mask = 0) (inside : mark &&& mask = mark) :
    passChain mask source picked [.attempt mark, .release mark] ⟨fwmark, entries⟩ =
      ⟨if (source, mark) ∈ entries then setXmark mark mask fwmark else fwmark, entries⟩ := by
  have under := and_setXmark fresh inside
  simp only [passChain, List.foldl_cons, List.foldl_nil, StickyRule.act, if_pos fresh, under, true_and]
  by_cases entry : (source, mark) ∈ entries
  · rw [if_neg (not_not_intro entry), if_pos entry]
  · rw [if_pos entry, if_neg entry, setXmark_zero fresh inside]

/-- A mark with an entry passes the rules of the others. -/
theorem pass_kept (marked : fwmark &&& mask ≠ 0) (entry : (source, fwmark &&& mask) ∈ entries) (marks : List Nat) :
    passChain mask source picked (marks.flatMap fun mark => [.attempt mark, .release mark]) ⟨fwmark, entries⟩ =
      ⟨fwmark, entries⟩ := by
  unfold passChain
  induction marks with
  | nil => rfl
  | cons mark marks ih =>
      rw [List.flatMap_cons, List.foldl_append]
      simp only [List.foldl_cons, List.foldl_nil, StickyRule.act, if_neg marked, entry, not_true, and_false, if_false]
      exact ih

theorem pass_tries {marks : List Nat} (fresh : fwmark &&& mask = 0)
    (inside : ∀ mark ∈ marks, mark &&& mask = mark ∧ mark ≠ 0) :
    passChain mask source picked (marks.flatMap fun mark => [.attempt mark, .release mark]) ⟨fwmark, entries⟩ =
      ⟨((marks.find? fun mark => (source, mark) ∈ entries).map (setXmark · mask fwmark)).getD fwmark, entries⟩ := by
  induction marks with
  | nil => rfl
  | cons mark marks ih =>
      rw [List.forall_mem_cons] at inside
      have pair := @pass_tryPair _ source picked _ _ entries fresh inside.1.1
      rw [passChain] at pair ⊢
      rw [List.flatMap_cons, List.foldl_append, pair]
      by_cases entry : (source, mark) ∈ entries
      · have under := and_setXmark fresh inside.1.1
        rw [if_pos entry, List.find?_cons, decide_eq_true entry]
        refine pass_kept ?_ ?_ marks
        · rw [under]
          exact inside.1.2
        · rwa [under]
      · rw [if_neg entry, List.find?_cons, decide_eq_false entry]
        exact ih inside.2

/-- The mark after the rules that try interfaces and the policy. -/
def leftMark (mask source picked fwmark : Nat) (entries : Finset (Nat × Nat)) (marks : List Nat) : Nat :=
  ((marks.find? fun mark => (source, mark) ∈ entries).map (setXmark · mask fwmark)).getD picked

/-- The set after the connection; the entry is written again. -/
def stickyEntries (mask source left : Nat) (entries : Finset (Nat × Nat)) : Finset (Nat × Nat) :=
  if left &&& 0xfc00 ≠ 0xfc00 then insert (source, left &&& mask) entries else entries

theorem pass_stickyRules {marks : List Nat} (fresh : fwmark &&& mask = 0)
    (inside : ∀ mark ∈ marks, mark &&& mask = mark ∧ mark ≠ 0) :
    passChain mask source picked ((marks.flatMap fun mark => [.attempt mark, .release mark]) ++ [.policy, .delete, .add])
        ⟨fwmark, entries⟩ =
      ⟨leftMark mask source picked fwmark entries marks,
        stickyEntries mask source (leftMark mask source picked fwmark entries marks) entries⟩ := by
  have tries := @pass_tries _ source picked _ entries _ fresh inside
  have policy : StickyRule.act mask source picked
      ⟨((marks.find? fun mark => (source, mark) ∈ entries).map (setXmark · mask fwmark)).getD fwmark, entries⟩ .policy =
        ⟨leftMark mask source picked fwmark entries marks, entries⟩ := by
    unfold leftMark
    cases found : marks.find? fun mark => (source, mark) ∈ entries with
    | none => exact if_pos fresh
    | some mark =>
        have member := inside mark (List.mem_of_find?_eq_some found)
        refine if_neg ?_
        exact (and_setXmark fresh member.1).trans_ne member.2
  rw [passChain] at tries ⊢
  rw [List.foldl_append, tries, List.foldl_cons, policy]
  generalize leftMark mask source picked fwmark entries marks = left
  have again : insert (source, left &&& mask) (entries.erase (source, left &&& mask)) =
      insert (source, left &&& mask) entries := by
    ext entry
    by_cases same : entry = (source, left &&& mask) <;> simp [same]
  simp only [List.foldl_cons, List.foldl_nil, StickyRule.act, stickyEntries]
  by_cases written : left &&& 0xfc00 ≠ 0xfc00
  · simp only [if_pos written, again]
  · simp only [if_neg written]

end Pass

end XWrt.Mwan3
