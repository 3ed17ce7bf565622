import XWrt.Foundation.Shell
import XWrt.Natflow.HostaclForm

/-!
# Host access rules in the router

`natflow-hostacl.init`. A restart stops and starts: it destroys the sets of the
rules 0 to 31, and fills sets for the lists of every rule that is not disabled.
A set is named by the number of its rule and the kind of its list. The control
device is there.
-/

namespace XWrt.Natflow.Hostacl

open Foundation
open Foundation.Text
open Foundation.Shell
open Ipops

abbrev Text := List Char

/-! ## The stored configuration -/

/-- A section `rule`: what `uci get` prints for its options, of a list with blanks between the items. -/
structure UciRule where
  disabled : Option Text
  ip : Option Text
  ipv6 : Option Text
  mac : Option Text
  action : Option Text
  host : Option Text

/-- `hostacl` -/
structure UciConfig where
  enabled : Option Text
  rules : List UciRule

/-- `$(uci get … || echo default)` -/
def gotOr (option : Option Text) (default : Text) : Text := (option.map substitution).getD default

/-- `$(uci get …)` -/
def got (option : Option Text) : Text := gotOr option []

/-- An option that is empty is not stored. -/
def optional (text : List Char) : Option Text := if text = [] then none else some (encode text)

def Rule.stored (rule : Rule) : UciRule where
  disabled := if rule.disabled then some ['1'] else none
  ip := optional rule.ip
  ipv6 := optional rule.ipv6
  mac := optional ([' '].intercalate rule.mac)
  action := optional rule.action
  host := optional rule.host

def Config.stored (config : Config) : UciConfig where
  enabled := if config.enabled then some ['1'] else none
  rules := config.rules.map Rule.stored

/-! ## Sets -/

inductive Kind where
  | ipv4
  | ipv6
  | mac
  deriving DecidableEq, Repr

/-- The sets `host_acl_rule<i>_<kind>` with what was added. -/
abbrev Sets := ℕ × Kind → Option (List String)

/-- What `ipset add` takes, for each kind of set. -/
abbrev Ipset := Kind → String → Bool

/-- The sets, and the rules that the control device holds. -/
structure State where
  sets : Sets
  acl : List Text

/-- `ipset destroy` -/
def destroy (sets : Sets) (key : ℕ × Kind) : Sets := Function.update sets key none

/-- `ipset create`, which fails where there is such a set -/
def create (key : ℕ × Kind) (sets : Sets) : Sets := if (sets key).isSome then sets else Function.update sets key (some [])

/-- `ipset flush` -/
def flush (key : ℕ × Kind) (sets : Sets) : Sets := Function.update sets key ((sets key).map fun _ => [])

/-- `ipset add` -/
def setAdd (takes : String → Bool) (set : List String) (net : String) : List String := if takes net then ipsetAdd set net else set

def addNet (takes : String → Bool) (key : ℕ × Kind) (sets : Sets) (net : String) : Sets :=
  Function.update sets key ((sets key).map (setAdd takes · net))

/-- A set is created and flushed, and the networks are added one after the other. -/
def fillSet (takes : String → Bool) (key : ℕ × Kind) (nets : List String) (sets : Sets) : Sets :=
  nets.foldl (addNet takes key) (flush key (create key sets))

/-! ## The script -/

/-- `stop` -/
def stop (state : State) : State :=
  ⟨((List.range 32).flatMap fun i => [(i, .mac), (i, .ipv4), (i, .ipv6)]).foldl destroy state.sets, []⟩

/-- The networks that `ipv4set_add` adds for one. -/
def ipv4setAdd (net : String) : List String := if net = "0.0.0.0/0" then ["0.0.0.0/1", "128.0.0.0/1"] else [net]

/-- The networks that `ipv6set_add` adds for one. -/
def ipv6setAdd (net : String) : List String := if net = "::/0" then ["::/1", "8000::/1"] else [net]

/-- `echo` of one argument, which is nothing for an option. -/
def echo : Text → Text
  | '-' :: flag :: flags => if (flag :: flags).all fun char => char ∈ ['n', 'e', 'E'] then [] else '-' :: flag :: flags
  | text => text

/-- `sed` that puts blanks for some characters -/
def blanks (cut : List Char) (text : Text) : Text := text.map fun char => if char ∈ cut then ' ' else char

/-- `action` as a number -/
def aclAction (action : Text) : ℕ :=
  if action = "record".toList then 0
  else if action = "drop".toList then 1
  else if action = "reset".toList then 2
  else if action = "redirect".toList then 3
  else 0

/-- `add acl=${idx},${action},$HOST` -/
def aclLine (idx : ℕ) (action : ℕ) (host : String) : Text :=
  "add acl=".toList ++ Nat.toDigits 10 idx ++ ',' :: Nat.toDigits 10 action ++ ',' :: host.toList

section Script

-- `glob` gives the names that a word stands for.
variable (glob : String → List String) (ipset : Ipset)

/-- The words of a loop over `$(echo "$text" | sed …)`. -/
def listWords (cut : List Char) (text : Text) : List String :=
  ((words (fun char => !isIfs char) (blanks cut (echo text))).map String.ofList).flatMap glob

/-- What `ipops.lua` prints. -/
def printed (line : List String) : Text := [','].intercalate (line.map String.toList)

/-- The networks that are added for a rule, when `ipops.lua` prints this line. -/
def ruleNets (line : List String) (rule : UciRule) : Kind → List String
  | .ipv4 => (listWords glob [','] (printed line)).flatMap ipv4setAdd
  | .ipv6 => (listWords glob [',', '\''] (got rule.ipv6)).flatMap ipv6setAdd
  | .mac => listWords glob [',', '\''] (got rule.mac)

/-- The tests before the sets are created; the first one is `wc -w`. -/
def hasNets (line : List String) (rule : UciRule) : Kind → Bool
  | .ipv4 => 1 ≤ (words (fun char => !isSpace char) (blanks [','] (echo (printed line)))).length
  | .ipv6 => got rule.ipv6 ≠ []
  | .mac => got rule.mac ≠ []

/-- The words of `$host`. -/
def hostWords (rule : UciRule) : List String := listWords glob [',', '\''] ((got rule.host).map Char.toLower)

/-- A rule that is not disabled, in the loop of `start`. -/
def addRule (fuel idx : ℕ) (rule : UciRule) (state : State) : Option State := do
  let line ← netStrings2ipcidrStrings fuel (String.ofList (got rule.ip))
  let fill (kind : Kind) (sets : Sets) : Sets :=
    if hasNets line rule kind then fillSet (ipset kind) (idx, kind) (ruleNets glob line rule kind) sets else sets
  let acl := (hostWords glob rule).map (aclLine idx (aclAction (got rule.action)))
  some ⟨fill .mac (fill .ipv6 (fill .ipv4 state.sets)), state.acl ++ acl⟩

def UciRule.isDisabled (rule : UciRule) : Bool := gotOr rule.disabled ['0'] = ['1']

/-- The loop of `start`. -/
def startFrom (fuel : ℕ) : ℕ → List UciRule → State → Option State
  | _, [], state => some state
  | idx, rule :: rules, state =>
      if rule.isDisabled then startFrom fuel (idx + 1) rules state
      else (addRule glob ipset fuel idx rule state).bind (startFrom fuel (idx + 1) rules)

/-- `start`, and so `restart` -/
def start (fuel : ℕ) (config : UciConfig) (state : State) : Option State :=
  if gotOr config.enabled ['0'] = ['0'] then some (stop state) else startFrom glob ipset fuel 0 config.rules (stop state)

/-- A restart after each configuration. -/
def restarts (fuel : ℕ) (history : List UciConfig) (state : State) : Option State :=
  history.foldlM (fun state config => start glob ipset fuel config state) state

end Script

/-! ## What the commands do -/

theorem foldl_addNet (takes : String → Bool) (key : ℕ × Kind) (nets set : List String) {sets : Sets} (here : sets key = some set) :
    nets.foldl (addNet takes key) sets = Function.update sets key (some (nets.foldl (setAdd takes) set)) := by
  induction nets generalizing sets set with
  | nil => rw [List.foldl_nil, List.foldl_nil, ← here, Function.update_eq_self]
  | cons net nets ih =>
      have added : addNet takes key sets net = Function.update sets key (some (setAdd takes set net)) := by
        rw [addNet, here, Option.map_some]
      rw [List.foldl_cons, List.foldl_cons, added, ih _ (Function.update_self _ _ _), Function.update_idem]

/-- A set holds what was added last, whether there was one or not. -/
theorem fillSet_eq (takes : String → Bool) (key : ℕ × Kind) (nets : List String) (sets : Sets) :
    fillSet takes key nets sets = Function.update sets key (some (nets.foldl (setAdd takes) [])) := by
  have empty : flush key (create key sets) = Function.update sets key (some []) := by
    rw [flush, create]
    split
    next some =>
      obtain ⟨set, here⟩ := Option.isSome_iff_exists.mp some
      rw [here, Option.map_some]
    next => rw [Function.update_self, Option.map_some, Function.update_idem]
  rw [fillSet, empty, foldl_addNet takes key nets [] (Function.update_self _ _ _), Function.update_idem]

theorem foldl_destroy (keys : List (ℕ × Kind)) (sets : Sets) (key : ℕ × Kind) :
    keys.foldl destroy sets key = if key ∈ keys then none else sets key := by
  induction keys generalizing sets with
  | nil => rfl
  | cons first keys ih =>
      rw [List.foldl_cons, ih, destroy]
      by_cases later : key ∈ keys
      · rw [if_pos later, if_pos (List.mem_cons_of_mem _ later)]
      · rw [if_neg later, Function.update_apply]
        by_cases same : key = first
        · rw [if_pos same, if_pos (same ▸ List.mem_cons_self)]
        · rw [if_neg same, if_neg fun member => (List.mem_cons.mp member).elim same later]

/-- Sets from number 32 on are left. -/
theorem stop_sets (state : State) (i : ℕ) (kind : Kind) : (stop state).sets (i, kind) = if i < 32 then none else state.sets (i, kind) := by
  rw [stop]
  refine (foldl_destroy _ _ _).trans (if_congr ?_ rfl rfl)
  rw [List.mem_flatMap]
  constructor
  · rintro ⟨j, small, member⟩
    have same : i = j := by
      rcases List.mem_cons.mp member with first | rest
      · exact congrArg Prod.fst first
      · rcases List.mem_pair.mp rest with second | third
        · exact congrArg Prod.fst second
        · exact congrArg Prod.fst third
    exact same ▸ List.mem_range.mp small
  · intro small
    refine ⟨i, List.mem_range.mpr small, ?_⟩
    cases kind with
    | ipv4 => exact List.mem_cons_of_mem _ List.mem_cons_self
    | ipv6 => exact List.mem_cons_of_mem _ (List.mem_cons_of_mem _ List.mem_cons_self)
    | mac => exact List.mem_cons_self

/-! ## The rules -/

section Rules

variable (glob : String → List String) (ipset : Ipset)

/-- The set of a rule, if it has one. -/
def content (line : List String) (rule : UciRule) (kind : Kind) : Option (List String) :=
  if hasNets line rule kind then some ((ruleNets glob line rule kind).foldl (setAdd (ipset kind)) []) else none

/-- The set of the rule with a number. -/
def contentAt (fuel : ℕ) (rules : List UciRule) (i : ℕ) (kind : Kind) : Option (List String) :=
  (rules[i]?).bind fun rule =>
    if rule.isDisabled then none
    else (netStrings2ipcidrStrings fuel (String.ofList (got rule.ip))).bind fun line => content glob ipset line rule kind

/-- The line for a host of the rule with a number. -/
def AclOf (rules : List UciRule) (idx : ℕ) (line : Text) : Prop :=
  ∃ i rule host, rules[i]? = some rule ∧ rule.isDisabled = false ∧ host ∈ hostWords glob rule ∧
    line = aclLine (idx + i) (aclAction (got rule.action)) host

variable {glob ipset} {fuel idx : ℕ} {state after : State}

theorem addRule_sets {rule : UciRule} (done : addRule glob ipset fuel idx rule state = some after) :
    ∃ line, netStrings2ipcidrStrings fuel (String.ofList (got rule.ip)) = some line ∧
      (∀ kind, after.sets (idx, kind) = (content glob ipset line rule kind).or (state.sets (idx, kind))) ∧
      (∀ i kind, i ≠ idx → after.sets (i, kind) = state.sets (i, kind)) ∧
      after.acl = state.acl ++ (hostWords glob rule).map (aclLine idx (aclAction (got rule.action))) := by
  obtain ⟨line, given, result⟩ := Option.bind_eq_some_iff.mp done
  obtain rfl := Option.some.inj result
  have fill (kind : Kind) (sets : Sets) (i : ℕ) (other : Kind) :
      (if hasNets line rule kind then fillSet (ipset kind) (idx, kind) (ruleNets glob line rule kind) sets else sets) (i, other) =
        if i = idx ∧ other = kind then (content glob ipset line rule kind).or (sets (i, other)) else sets (i, other) := by
    rw [content]
    split
    next =>
      rw [fillSet_eq, Function.update_apply, Option.some_or]
      exact if_congr Prod.ext_iff rfl rfl
    next => rw [Option.none_or, ite_self]
  refine ⟨line, given, fun kind => ?_, fun i kind other => ?_, rfl⟩
  · dsimp only
    rw [fill, fill, fill]
    cases kind <;> simp
  · dsimp only
    rw [fill, fill, fill]
    simp [other]

theorem startFrom_sets {rules : List UciRule} (done : startFrom glob ipset fuel idx rules state = some after) :
    (∀ i kind, after.sets (idx + i, kind) = (contentAt glob ipset fuel rules i kind).or (state.sets (idx + i, kind))) ∧
      ∀ i kind, i < idx → after.sets (i, kind) = state.sets (i, kind) := by
  induction rules generalizing idx state with
  | nil =>
      obtain rfl := Option.some.inj done
      exact ⟨fun i kind => rfl, fun i kind _ => rfl⟩
  | cons rule rules ih =>
      have later (i : ℕ) : idx + (i + 1) = idx + 1 + i := by omega
      rw [startFrom] at done
      split at done
      next disabled =>
        obtain ⟨behind, before⟩ := ih done
        refine ⟨fun i kind => ?_, fun i kind small => before i kind (by omega)⟩
        cases i with
        | zero =>
            have none : contentAt glob ipset fuel (rule :: rules) 0 kind = Option.none := by
              rw [contentAt, List.getElem?_cons_zero, Option.bind_some, if_pos disabled]
            rw [none, Option.none_or]
            exact before _ kind (Nat.lt_succ_self idx)
        | succ i =>
            rw [later]
            exact behind i kind
      next enabled =>
        obtain ⟨middle, added, done⟩ := Option.bind_eq_some_iff.mp done
        obtain ⟨line, given, here, elsewhere, -⟩ := addRule_sets added
        obtain ⟨behind, before⟩ := ih done
        refine ⟨fun i kind => ?_, fun i kind small => ?_⟩
        · cases i with
          | zero =>
              have own : contentAt glob ipset fuel (rule :: rules) 0 kind = content glob ipset line rule kind := by
                rw [contentAt, List.getElem?_cons_zero, Option.bind_some, if_neg enabled, given, Option.bind_some]
              rw [own, Nat.add_zero, before idx kind (Nat.lt_succ_self idx)]
              exact here kind
          | succ i =>
              rw [later, behind i kind, elsewhere _ kind (by omega)]
              rfl
        · rw [before i kind (by omega), elsewhere i kind (by omega)]

theorem startFrom_acl {rules : List UciRule} (done : startFrom glob ipset fuel idx rules state = some after) :
    ∀ line ∈ after.acl, line ∈ state.acl ∨ AclOf glob rules idx line := by
  induction rules generalizing idx state with
  | nil =>
      obtain rfl := Option.some.inj done
      exact fun line member => .inl member
  | cons rule rules ih =>
      have shift {line : Text} (found : AclOf glob rules (idx + 1) line) : AclOf glob (rule :: rules) idx line := by
        obtain ⟨i, other, host, inside, enabled, word, rfl⟩ := found
        exact ⟨i + 1, other, host, inside, enabled, word, by rw [Nat.add_right_comm, Nat.add_assoc]⟩
      rw [startFrom] at done
      split at done
      next => exact fun line member => (ih done line member).imp_right shift
      next enabled =>
        obtain ⟨middle, added, done⟩ := Option.bind_eq_some_iff.mp done
        obtain ⟨-, -, -, -, acl⟩ := addRule_sets added
        intro line member
        rcases ih done line member with before | found
        · rw [acl, List.mem_append, List.mem_map] at before
          rcases before with old | ⟨host, word, rfl⟩
          · exact .inl old
          · exact .inr ⟨0, rule, host, rfl, Bool.eq_false_iff.mpr enabled, word, rfl⟩
        · exact .inr (shift found)

/-- The loop ends if `ipops.lua` does. -/
theorem startFrom_isSome {rules : List UciRule}
    (ends : ∀ rule ∈ rules, (netStrings2ipcidrStrings fuel (String.ofList (got rule.ip))).isSome = true) :
    ∀ idx state, (startFrom glob ipset fuel idx rules state).isSome = true := by
  induction rules with
  | nil => exact fun _ _ => rfl
  | cons rule rules ih =>
      rw [List.forall_mem_cons] at ends
      intro idx state
      rw [startFrom]
      split
      next => exact ih ends.2 _ _
      next =>
        obtain ⟨line, given⟩ := Option.isSome_iff_exists.mp ends.1
        rw [addRule, given]
        exact ih ends.2 _ _

/-- `ipops.lua` ended for every rule of a loop that ended. -/
theorem startFrom_ends {rules : List UciRule} (done : startFrom glob ipset fuel idx rules state = some after) :
    ∀ rule ∈ rules, rule.isDisabled = false → (netStrings2ipcidrStrings fuel (String.ofList (got rule.ip))).isSome = true := by
  induction rules generalizing idx state with
  | nil => exact List.forall_mem_nil _
  | cons rule rules ih =>
      rw [startFrom] at done
      rw [List.forall_mem_cons]
      split at done
      next disabled => exact ⟨fun enabled => absurd (disabled.symm.trans enabled) (by decide), ih done⟩
      next =>
        obtain ⟨middle, added, done⟩ := Option.bind_eq_some_iff.mp done
        obtain ⟨line, given, -⟩ := addRule_sets added
        exact ⟨fun _ => by rw [given, Option.isSome_some], ih done⟩

end Rules

/-! ## Restarts -/

section Restarts

variable {glob : String → List String} {ipset : Ipset} {fuel : ℕ} {state after : State}

/-- The main switch is on. -/
def UciConfig.isEnabled (config : UciConfig) : Bool := gotOr config.enabled ['0'] ≠ ['0']

theorem start_sets {config : UciConfig} (done : start glob ipset fuel config state = some after) (i : ℕ) (kind : Kind) :
    after.sets (i, kind) =
      (if config.isEnabled then contentAt glob ipset fuel config.rules i kind else none).or ((stop state).sets (i, kind)) := by
  rw [start] at done
  split at done
  next off =>
    obtain rfl := Option.some.inj done
    have disabled : config.isEnabled = false := by simp [UciConfig.isEnabled, off]
    rw [disabled, if_neg Bool.false_ne_true, Option.none_or]
  next on =>
    have enabled : config.isEnabled = true := by simp [UciConfig.isEnabled, on]
    have here := (startFrom_sets done).1 i kind
    rw [Nat.zero_add] at here
    rw [enabled, if_pos rfl, here]

theorem start_acl {config : UciConfig} (done : start glob ipset fuel config state = some after) :
    ∀ line ∈ after.acl, AclOf glob config.rules 0 line := by
  rw [start] at done
  split at done
  next =>
    obtain rfl := Option.some.inj done
    exact List.forall_mem_nil _
  next => exact fun line member => (startFrom_acl done line member).resolve_left List.not_mem_nil

/-- A set from number 32 on is there once a configuration had it. -/
theorem restarts_isSome {history : List UciConfig} (done : restarts glob ipset fuel history state = some after) {i : ℕ} (late : 32 ≤ i)
    (kind : Kind) : (after.sets (i, kind)).isSome = true ↔ (state.sets (i, kind)).isSome = true ∨
      ∃ config ∈ history, config.isEnabled = true ∧ (contentAt glob ipset fuel config.rules i kind).isSome = true := by
  induction history generalizing state with
  | nil =>
      obtain rfl := Option.some.inj done
      simp
  | cons config history ih =>
      obtain ⟨middle, first, done⟩ := Option.bind_eq_some_iff.mp done
      have here := start_sets first i kind
      rw [stop_sets, if_neg (Nat.not_lt.mpr late)] at here
      rw [ih done, here, Option.isSome_or, Bool.or_eq_true, List.exists_mem_cons_iff]
      cases config.isEnabled with
      | true =>
          simp only [if_true, true_and]
          rw [or_assoc, or_left_comm]
      | false => simp

theorem restarts_concat {history : List UciConfig} {last : UciConfig} (done : restarts glob ipset fuel (history ++ [last]) state = some after) :
    ∃ middle, restarts glob ipset fuel history state = some middle ∧ start glob ipset fuel last middle = some after := by
  rw [restarts, List.foldlM_append] at done
  obtain ⟨middle, before, here⟩ := Option.bind_eq_some_iff.mp done
  obtain ⟨end', first, same⟩ := Option.bind_eq_some_iff.mp here
  exact ⟨middle, before, first.trans same⟩

theorem start_ends {config : UciConfig} (done : start glob ipset fuel config state = some after) (enabled : config.isEnabled = true) :
    ∀ rule ∈ config.rules, rule.isDisabled = false → (netStrings2ipcidrStrings fuel (String.ofList (got rule.ip))).isSome = true := by
  rw [start] at done
  split at done
  next off => simp [UciConfig.isEnabled, off] at enabled
  next => exact startFrom_ends done

theorem restarts_ends {history : List UciConfig} (done : restarts glob ipset fuel history state = some after) :
    ∀ config ∈ history, config.isEnabled = true → ∀ rule ∈ config.rules, rule.isDisabled = false →
      (netStrings2ipcidrStrings fuel (String.ofList (got rule.ip))).isSome = true := by
  induction history generalizing state with
  | nil => exact List.forall_mem_nil _
  | cons config history ih =>
      obtain ⟨middle, first, done⟩ := Option.bind_eq_some_iff.mp done
      exact List.forall_mem_cons.mpr ⟨start_ends first, ih done⟩

theorem restarts_isSome_of_ends {history : List UciConfig}
    (ends : ∀ config ∈ history, ∀ rule ∈ config.rules, (netStrings2ipcidrStrings fuel (String.ofList (got rule.ip))).isSome = true)
    (state : State) : (restarts glob ipset fuel history state).isSome = true := by
  induction history generalizing state with
  | nil => rfl
  | cons config history ih =>
      rw [List.forall_mem_cons] at ends
      have first : (start glob ipset fuel config state).isSome = true := by
        rw [start]
        split
        next => rfl
        next => exact startFrom_isSome ends.1 _ _
      obtain ⟨middle, done⟩ := Option.isSome_iff_exists.mp first
      rw [restarts, List.foldlM_cons, done]
      exact ih ends.2 middle

end Restarts

end XWrt.Natflow.Hostacl
