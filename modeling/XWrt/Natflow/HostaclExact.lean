import XWrt.Natflow.HostaclLists

/-!
# Which clients the host access rules hit

After the last of several restarts. The sets are those of the enabled rules and
hold what the lists say, if nothing of an IPv6 or MAC list is refused, and if no
rule from number 32 on has lost a list that an earlier configuration gave it.
-/

namespace XWrt.Natflow.Hostacl

open Foundation
open Foundation.Text
open Foundation.Shell
open Ipops
open UserRecord (MacAddress)

/-! ## What a rule promises -/

/-- The list is not empty. -/
def Rule.gives (rule : Rule) : Kind → Bool
  | .ipv4 => rule.ip ≠ []
  | .ipv6 => rule.ipv6 ≠ []
  | .mac => rule.mac ≠ []

/-- The set has what the list says. -/
def Rule.Denotes (rule : Rule) (set : List String) : Kind → Prop
  | .ipv4 => ∀ quad, (∃ net ∈ set, InNet net.toList (.ipv4 quad)) ↔ InNets rule.ip (.ipv4 quad)
  | .ipv6 => ∀ addr, (∃ net ∈ set, InNet net.toList (.ipv6 addr)) ↔ InNets rule.ipv6 (.ipv6 addr)
  | .mac => ∀ mac, (∃ text ∈ set, InMac text.toList mac) ↔ InMacs rule.mac mac

/-- The main switch and the rule are enabled, and the list is not empty. -/
def Config.Gives (config : Config) (i : ℕ) (kind : Kind) : Prop :=
  config.enabled = true ∧ ∃ rule, config.rules[i]? = some rule ∧ rule.disabled = false ∧ rule.gives kind = true

/-- The rules hit the clients that the form promised. -/
structure Hits (glob : String → List String) (config : Config) (state : State) : Prop where
  sets : ∀ i kind, (state.sets (i, kind)).isSome = true ↔ config.Gives i kind
  contents : ∀ i rule, config.rules[i]? = some rule → rule.disabled = false → ∀ kind, rule.gives kind = true →
    ∀ set, state.sets (i, kind) = some set → rule.Denotes set kind
  acl : ∀ line ∈ state.acl, ∃ i rule host, config.rules[i]? = some rule ∧ rule.disabled = false ∧
    host ∈ hostWords glob rule.stored ∧ line = aclLine i (aclAction (got rule.stored.action)) host

/-! ## When it keeps the promise -/

/-- The words that `ipset add` takes have all MAC addresses of the items. -/
def CoveredMacs (ipset : Ipset) (items : List (List Char)) : Prop :=
  ∀ mac, InMacs items mac → ∃ item ∈ items, ∃ word ∈ fields item, ipset .mac (String.ofList word) = true ∧ InMac word mac

/-- Nothing of the list is lost. -/
def Rule.Kept (ipset : Ipset) (rule : Rule) : Kind → Prop
  | .ipv4 => True
  | .ipv6 => Covered (keptNet ipset) rule.ipv6
  | .mac => CoveredMacs ipset rule.mac

/-- The networks and MAC addresses of each list fit into its set. -/
def Rule.Fits (glob : String → List String) (ipset : Ipset) (rule : Rule) : Prop :=
  ∀ fuel line, netStrings2ipcidrStrings fuel (String.ofList (got rule.stored.ip)) = some line →
    ∀ kind, ((ruleNets glob line rule.stored kind).filter (ipset kind)).toFinset.card ≤ maxelem

/-- No file is named as a word of the MAC list says. -/
def Rule.Unmatched (glob : String → List String) (rule : Rule) : Prop :=
  ∀ item ∈ rule.mac, ∀ word ∈ fields item, glob (String.ofList (encode word)) = [String.ofList (encode word)]

/-- No rule without a list has a number from 32 on for which an earlier configuration gave one. -/
def NothingLeft (history : List Config) (last : Config) : Prop :=
  ∀ i kind, 32 ≤ i → (∃ config ∈ history, config.Gives i kind) → last.Gives i kind

/-! ## One rule -/

section Rule

variable {v : Validation} {rule : Rule} (saved : rule.Saved v) {fuel : ℕ} {line : List String}
  (given : netStrings2ipcidrStrings fuel (String.ofList (got rule.stored.ip)) = some line)

theorem got_optional {text : List Char} (some : text ≠ []) : got (optional text) = substitution (encode text) := by
  rw [optional, if_neg some]
  rfl

include saved

/-- What `ipops.lua` prints for the rule. -/
theorem line_blocks : ∃ blocks : List CidrBlock, Within blocks ∧ (blocks ≠ [] ↔ rule.gives .ipv4 = true) ∧
    (rule.gives .ipv4 = true → ∀ quad : Quad, (quad.value : ℤ) ∈ AlignedBlock.cover blocks ↔ InNets rule.ip (.ipv4 quad)) ∧
      netStrings2ipcidrStrings (2 ^ 32 + 1) (String.ofList (got rule.stored.ip)) = some (blocks.map CidrBlock.ipcidr) ∧
        ∀ fuel line, netStrings2ipcidrStrings fuel (String.ofList (got rule.stored.ip)) = some line → line = blocks.map CidrBlock.ipcidr := by
  by_cases none : rule.ip = []
  · have text : String.ofList (got rule.stored.ip) = "" := by
      rw [Rule.stored, none]
      rfl
    have empty : rule.gives .ipv4 = false := by simp [Rule.gives, none]
    rw [text, empty]
    refine ⟨[], List.forall_mem_nil _, by simp, fun given => absurd given Bool.false_ne_true, netStrings2ipcidrStrings_empty _, fun fuel line printed => ?_⟩
    rw [netStrings2ipcidrStrings_empty] at printed
    exact (Option.some.inj printed).symm
  · obtain ⟨blocks, within, some, cover, run, only⟩ := ipv4_line (saved.ip.resolve_left none)
    have text : got rule.stored.ip = substitution (encode rule.ip) := got_optional none
    rw [text]
    exact ⟨blocks, within, iff_of_true some (by simp [Rule.gives, none]), fun _ => cover, run, only⟩

include given

/-- There is a set for a list that is not empty. -/
theorem hasNets_stored (kind : Kind) : hasNets line rule.stored kind = rule.gives kind := by
  rw [Bool.eq_iff_iff]
  cases kind with
  | ipv4 =>
      obtain ⟨blocks, within, some, -, -, only⟩ := line_blocks saved
      rw [only fuel line given, hasNets_ipv4 within, some]
  | ipv6 =>
      by_cases none : rule.ipv6 = []
      · have text : got rule.stored.ipv6 = [] := by
          rw [Rule.stored, none]
          rfl
        simp [hasNets, text, Rule.gives, none]
      · refine iff_of_true (hasNets_ipv6 (ipv6_items (saved.ipv6.resolve_left none)) (if_neg none) line) ?_
        simp [Rule.gives, none]
  | mac =>
      by_cases none : rule.mac = []
      · have text : got rule.stored.mac = [] := by
          rw [Rule.stored, none]
          rfl
        simp [hasNets, text, Rule.gives, none]
      · obtain ⟨item, listed⟩ := List.exists_mem_of_ne_nil _ none
        obtain ⟨char, inside⟩ := List.exists_mem_of_ne_nil _ (saved.mac item listed).1
        have some : [' '].intercalate rule.mac ≠ [] := List.ne_nil_of_mem (mem_intercalate_of_mem listed inside)
        refine iff_of_true (hasNets_mac saved.mac none (if_neg some) line) ?_
        simp [Rule.gives, none]

variable {glob : String → List String} {ipset : Ipset}

theorem content_isSome (kind : Kind) : (content glob ipset line rule.stored kind).isSome = rule.gives kind := by
  rw [content, hasNets_stored saved given]
  cases rule.gives kind with
  | true => rfl
  | false => rfl

variable (plain : KeepsPlain glob) (documented : ipset.Documented) (fits : rule.Fits glob ipset) (unmatched : rule.Unmatched glob)
include plain documented fits unmatched

/-- The set of a list is what the list says if nothing of it is lost, and only then. -/
theorem denotes_iff {kind : Kind} {set : List String} (here : content glob ipset line rule.stored kind = some set) :
    rule.Denotes set kind ↔ rule.Kept ipset kind := by
  have some : rule.gives kind = true := by rw [← content_isSome saved given, here, Option.isSome_some]
  have room := fits fuel line given kind
  rw [content, hasNets_stored saved given, some, if_pos rfl] at here
  obtain rfl := Option.some.inj here
  cases kind with
  | ipv4 =>
      obtain ⟨blocks, within, -, cover, -, only⟩ := line_blocks saved
      have nets := ruleNets_ipv4 within plain rule.stored
      rw [only fuel line given, nets] at room ⊢
      exact iff_of_true (fun quad => (holds_blocks within documented room quad).trans (cover some quad)) trivial
  | ipv6 =>
      have nonempty : rule.ipv6 ≠ [] := of_decide_eq_true some
      have items := ipv6_items (saved.ipv6.resolve_left nonempty)
      have stored : rule.stored.ipv6 = .some (encode rule.ipv6) := if_neg nonempty
      have nets := ruleNets_ipv6 items plain stored line
      rw [nets] at room ⊢
      rw [Rule.Kept, covered_iff]
      refine forall_congr' fun addr => ?_
      rw [holds_storedItems documented items room]
  | mac =>
      have nonempty : rule.mac ≠ [] := of_decide_eq_true some
      obtain ⟨item, listed⟩ := List.exists_mem_of_ne_nil _ nonempty
      obtain ⟨char, inside⟩ := List.exists_mem_of_ne_nil _ (saved.mac item listed).1
      have stored : rule.stored.mac = .some (encode ([' '].intercalate rule.mac)) :=
        if_neg (List.ne_nil_of_mem (mem_intercalate_of_mem listed inside))
      have nets := ruleNets_mac saved.mac unmatched nonempty stored line
      rw [nets] at room ⊢
      refine forall_congr' fun mac => ?_
      rw [holds_fields saved.mac documented room]
      constructor
      · exact fun same => same.mpr
      · intro covered
        refine ⟨?_, covered⟩
        rintro ⟨item, listed, word, field, taken, inside⟩
        have same : encode word = word := encode_plain (plain_of_taken documented taken)
        exact ⟨item, listed, word, (taken_field saved.mac documented listed field (by rwa [same])).2, inside⟩

end Rule

/-! ## The stored configuration -/

section Stored

theorem isDisabled_stored (rule : Rule) : rule.stored.isDisabled = rule.disabled := by
  rw [UciRule.isDisabled, Rule.stored]
  cases rule.disabled with
  | true => rfl
  | false => rfl

theorem isEnabled_stored (config : Config) : config.stored.isEnabled = config.enabled := by
  rw [UciConfig.isEnabled, Config.stored]
  cases config.enabled with
  | true => rfl
  | false => rfl

theorem rules_stored (config : Config) (i : ℕ) : config.stored.rules[i]? = config.rules[i]?.map Rule.stored := List.getElem?_map

variable {v : Validation} {config : Config} (saved : config.Saved v) {glob : String → List String} {ipset : Ipset} {fuel : ℕ}

/-- The set of an enabled rule. -/
theorem contentAt_stored {i : ℕ} {rule : Rule} (here : config.rules[i]? = some rule) (enabled : rule.disabled = false) {line : List String}
    (given : netStrings2ipcidrStrings fuel (String.ofList (got rule.stored.ip)) = some line) (kind : Kind) :
    contentAt glob ipset fuel config.stored.rules i kind = content glob ipset line rule.stored kind := by
  rw [contentAt, rules_stored, here, Option.map_some, Option.bind_some, isDisabled_stored, enabled, if_neg Bool.false_ne_true, given,
    Option.bind_some]

include saved

theorem contentAt_isSome (ends : config.stored.isEnabled = true → ∀ rule ∈ config.stored.rules, rule.isDisabled = false →
      (netStrings2ipcidrStrings fuel (String.ofList (got rule.ip))).isSome = true) (i : ℕ) (kind : Kind) :
    config.stored.isEnabled = true ∧ (contentAt glob ipset fuel config.stored.rules i kind).isSome = true ↔ config.Gives i kind := by
  rw [Config.Gives, isEnabled_stored] at *
  refine and_congr_right fun on => ?_
  cases here : config.rules[i]? with
  | none =>
      rw [contentAt, rules_stored, here]
      simp
  | some rule =>
      have listed := List.mem_of_getElem? here
      cases off : rule.disabled with
      | true =>
          rw [contentAt, rules_stored, here, Option.map_some, Option.bind_some, isDisabled_stored, off, if_pos rfl]
          simp [off]
      | false =>
          have ended := ends on _ (List.mem_map_of_mem listed) (by rw [isDisabled_stored, off])
          obtain ⟨line, given⟩ := Option.isSome_iff_exists.mp ended
          rw [contentAt_stored here off given, content_isSome (saved rule listed) given]
          simp [off]

end Stored

/-! ## Restarts -/

section Restarts

variable {v : Validation} {glob : String → List String} {ipset : Ipset} {history : List Config} {last : Config}
  (saved : ∀ config ∈ history ++ [last], config.Saved v)

/-- There are no sets when the router starts. -/
def booted : State := ⟨fun _ => none, []⟩

include saved

/-- The script ends every time. -/
theorem restarts_stored_isSome :
    (restarts glob ipset (2 ^ 32 + 1) ((history ++ [last]).map Config.stored) booted).isSome = true := by
  refine restarts_isSome_of_ends (fun stored member rule inside => ?_) booted
  obtain ⟨config, listed, rfl⟩ := List.mem_map.mp member
  obtain ⟨rule, here, rfl⟩ := List.mem_map.mp inside
  obtain ⟨blocks, -, -, -, run, -⟩ := line_blocks (saved config listed rule here)
  rw [run, Option.isSome_some]

variable (enabled : last.enabled = true) {fuel : ℕ} {after : State}
  (done : restarts glob ipset fuel ((history ++ [last]).map Config.stored) booted = some after)
include enabled done

/-- The sets after the last restart: those of its configuration, and what is left from number 32 on. -/
theorem sets_restarts (i : ℕ) (kind : Kind) : ∃ left : Option (List String),
    after.sets (i, kind) = (contentAt glob ipset fuel last.stored.rules i kind).or left ∧
      (left.isSome = true ↔ 32 ≤ i ∧ ∃ config ∈ history, config.Gives i kind) := by
  rw [List.map_append, List.map_singleton] at done
  obtain ⟨middle, before, ended⟩ := restarts_concat done
  have here := start_sets ended i kind
  rw [isEnabled_stored, enabled, if_pos rfl] at here
  refine ⟨_, here, ?_⟩
  rw [stop_sets]
  split
  next small =>
    simp only [Option.isSome_none, Bool.false_eq_true, false_iff, not_and]
    omega
  next late =>
    have late := Nat.le_of_not_lt late
    rw [restarts_isSome before late kind, and_iff_right late, booted]
    simp only [Option.isSome_none, Bool.false_eq_true, false_or]
    have each : ∀ config ∈ history, config.stored.isEnabled = true ∧
        (contentAt glob ipset fuel config.stored.rules i kind).isSome = true ↔ config.Gives i kind := fun config listed =>
      contentAt_isSome (saved config (List.mem_append_left _ listed)) (restarts_ends before config.stored (List.mem_map_of_mem listed)) i kind
    constructor
    · rintro ⟨stored, member, given⟩
      obtain ⟨config, listed, rfl⟩ := List.mem_map.mp member
      exact ⟨config, listed, (each config listed).mp given⟩
    · rintro ⟨config, listed, given⟩
      exact ⟨config.stored, List.mem_map_of_mem listed, (each config listed).mpr given⟩

omit saved enabled in
theorem ends_last : last.stored.isEnabled = true → ∀ rule ∈ last.stored.rules, rule.isDisabled = false →
    (netStrings2ipcidrStrings fuel (String.ofList (got rule.ip))).isSome = true := by
  rw [List.map_append, List.map_singleton] at done
  obtain ⟨middle, -, ended⟩ := restarts_concat done
  exact start_ends ended

/-- The sets are there for the lists of the enabled rules, unless a set is left. -/
theorem isSome_sets_iff (i : ℕ) (kind : Kind) : (after.sets (i, kind)).isSome = true ↔
    last.Gives i kind ∨ 32 ≤ i ∧ ∃ config ∈ history, config.Gives i kind := by
  obtain ⟨left, here, remains⟩ := sets_restarts saved enabled done i kind
  have own := @contentAt_isSome _ _ (saved last (List.mem_append_right _ (List.mem_singleton_self last))) glob ipset _ (ends_last done) i kind
  rw [isEnabled_stored, and_iff_right enabled] at own
  rw [here, Option.isSome_or, Bool.or_eq_true, own, remains]

omit saved enabled in
theorem acl_restarts : ∀ line ∈ after.acl, ∃ i rule host, last.rules[i]? = some rule ∧ rule.disabled = false ∧
    host ∈ hostWords glob rule.stored ∧ line = aclLine i (aclAction (got rule.stored.action)) host := by
  rw [List.map_append, List.map_singleton] at done
  obtain ⟨middle, -, ended⟩ := restarts_concat done
  intro line member
  obtain ⟨i, stored, host, here, enabled, word, rfl⟩ := start_acl ended line member
  rw [rules_stored] at here
  obtain ⟨rule, found, rfl⟩ := Option.map_eq_some_iff.mp here
  rw [isDisabled_stored] at enabled
  exact ⟨i, rule, host, found, enabled, word, by rw [Nat.zero_add]⟩

variable (plain : KeepsPlain glob) (documented : ipset.Documented)
  (environment : ∀ rule ∈ last.rules, rule.disabled = false → rule.Fits glob ipset ∧ rule.Unmatched glob)
include plain documented environment

theorem hits_of_done : Hits glob last after ↔
    (∀ rule ∈ last.rules, rule.disabled = false → ∀ kind, rule.gives kind = true → rule.Kept ipset kind) ∧ NothingLeft history last := by
  have own := saved last (List.mem_append_right _ (List.mem_singleton_self last))
  have exists' := isSome_sets_iff saved enabled done
  have contents : ∀ i rule, last.rules[i]? = some rule → rule.disabled = false → ∀ kind, rule.gives kind = true →
      ∃ set, after.sets (i, kind) = some set ∧ (rule.Denotes set kind ↔ rule.Kept ipset kind) := by
    intro i rule here on kind given
    have listed := List.mem_of_getElem? here
    have ended := ends_last done (by rw [isEnabled_stored, enabled]) rule.stored (List.mem_map_of_mem listed)
      (by rw [isDisabled_stored, on])
    obtain ⟨line, printed⟩ := Option.isSome_iff_exists.mp ended
    obtain ⟨left, whole, -⟩ := sets_restarts saved enabled done i kind
    rw [contentAt_stored here on printed] at whole
    have there : (content glob ipset line rule.stored kind).isSome = true := by rw [content_isSome (own rule listed) printed, given]
    obtain ⟨set, filled⟩ := Option.isSome_iff_exists.mp there
    obtain ⟨fits, unmatched⟩ := environment rule listed on
    rw [filled, Option.some_or] at whole
    exact ⟨set, whole, denotes_iff (own rule listed) printed plain documented fits unmatched filled⟩
  constructor
  · intro hits
    refine ⟨fun rule listed on kind given => ?_, fun i kind late earlier => ?_⟩
    · obtain ⟨i, here⟩ := List.mem_iff_getElem?.mp listed
      obtain ⟨set, whole, same⟩ := contents i rule here on kind given
      exact same.mp (hits.contents i rule here on kind given set whole)
    · exact (hits.sets i kind).mp ((exists' i kind).mpr (.inr ⟨late, earlier⟩))
  · rintro ⟨kept, nothing⟩
    refine ⟨fun i kind => ?_, fun i rule here on kind given set whole => ?_, acl_restarts done⟩
    · rw [exists' i kind]
      exact or_iff_left_of_imp fun ⟨late, earlier⟩ => nothing i kind late earlier
    · obtain ⟨set', whole', same⟩ := contents i rule here on kind given
      obtain rfl := Option.some.inj (whole.symm.trans whole')
      exact same.mpr (kept rule (List.mem_of_getElem? here) on kind given)

end Restarts

/-- After every history of configurations from the form the script ends, and the rules hit the clients that the form
promised if and only if nothing of their lists is lost and no set of an earlier configuration is left. -/
theorem rules_hit_iff {v : Validation} {glob : String → List String} (plain : KeepsPlain glob) {ipset : Ipset} (documented : ipset.Documented)
    {history : List Config} {last : Config} (saved : ∀ config ∈ history ++ [last], config.Saved v) (enabled : last.enabled = true)
    (environment : ∀ rule ∈ last.rules, rule.disabled = false → rule.Fits glob ipset ∧ rule.Unmatched glob) :
    (∃ fuel after, restarts glob ipset fuel ((history ++ [last]).map Config.stored) booted = some after) ∧
      ∀ fuel after, restarts glob ipset fuel ((history ++ [last]).map Config.stored) booted = some after →
        (Hits glob last after ↔
          (∀ rule ∈ last.rules, rule.disabled = false → ∀ kind, rule.gives kind = true → rule.Kept ipset kind) ∧
            NothingLeft history last) := by
  obtain ⟨after, done⟩ := Option.isSome_iff_exists.mp (@restarts_stored_isSome _ glob ipset _ _ saved)
  exact ⟨⟨_, after, done⟩, fun fuel after done => hits_of_done saved enabled done plain documented environment⟩

/-! ## Two configurations -/

/-- `ipset add`, for texts of networks and MAC addresses -/
def literalIpset : Ipset
  | .mac, text =>
      (text.toList.splitOn ':').length == 6 && (text.toList.splitOn ':').all fun part => part.length == 2 && part.all isHexDigit
  | .ipv4, text => !zeroLength text.toList
  | .ipv6, text => !zeroLength text.toList

theorem literalIpset_documented : literalIpset.Documented where
  ipv4 block nonneg below nonzero := by
    rw [literalIpset, zeroLength_ipcidr nonneg, Bool.not_eq_true', beq_eq_false_iff_ne]
    exact nonzero
  halves := by decide
  ipv6 text zero := by rw [literalIpset, String.toList_ofList, zero, Bool.not_true]
  mac text taken := by
    rw [literalIpset, Bool.and_eq_true, List.all_eq_true, beq_iff_eq] at taken
    refine ⟨taken.1, fun part member => ?_⟩
    have shape := taken.2 part member
    rwa [Bool.and_eq_true, List.all_eq_true, beq_iff_eq] at shape

/-- A rule for MAC addresses, with a wildcard -/
def wildcardRule : Rule := ⟨false, [], [], ["00:11:22:33:44:*".toList], "drop".toList, "baidu.com".toList⟩

/-- The set of the rule stays empty. -/
theorem wildcard_missed : Config.Saved twoAddresses ⟨true, [wildcardRule]⟩ ∧
    (restarts (fun word => [word]) literalIpset (2 ^ 32 + 1) [Config.stored ⟨true, [wildcardRule]⟩] booted).isSome = true ∧
      ∀ fuel after, restarts (fun word => [word]) literalIpset fuel [Config.stored ⟨true, [wildcardRule]⟩] booted = some after →
        ¬Hits (fun word => [word]) ⟨true, [wildcardRule]⟩ after := by
  have rule : wildcardRule.Saved twoAddresses := ⟨.inl rfl, .inl rfl, by decide⟩
  have saved : ∀ config ∈ [] ++ [⟨true, [wildcardRule]⟩], Config.Saved twoAddresses config := by
    intro config member other inside
    rw [List.mem_singleton.mp member] at inside
    rwa [List.mem_singleton.mp inside]
  have fits : wildcardRule.Fits (fun word => [word]) literalIpset := by
    intro fuel line given kind
    have none : String.ofList (got wildcardRule.stored.ip) = "" := by decide
    rw [none, netStrings2ipcidrStrings_empty] at given
    obtain rfl := Option.some.inj given
    cases kind <;> decide +kernel
  refine ⟨saved _ (.head _), restarts_stored_isSome saved, fun fuel after done hits => ?_⟩
  have environment : ∀ rule ∈ [wildcardRule], rule.disabled = false →
      rule.Fits (fun word => [word]) literalIpset ∧ rule.Unmatched fun word => [word] := by
    intro rule listed _
    rw [List.mem_singleton.mp listed]
    exact ⟨fits, fun _ _ _ _ => rfl⟩
  have kept := (hits_of_done saved rfl done keepsPlain_self literalIpset_documented environment).mp hits
  have covered : CoveredMacs literalIpset ["00:11:22:33:44:*".toList] := kept.1 wildcardRule (.head _) rfl .mac (by decide)
  have parts : "00:11:22:33:44:*".toList.splitOnP isMacSeparator =
      [['0', '0'], ['1', '1'], ['2', '2'], ['3', '3'], ['4', '4'], ['*']] := by decide
  have inside : InMac "00:11:22:33:44:*".toList ⟨0x00, 0x11, 0x22, 0x33, 0x44, 0x55⟩ := by
    rw [InMac, parts]
    exact .cons (.inr rfl) (.cons (.inr rfl) (.cons (.inr rfl) (.cons (.inr rfl) (.cons (.inr rfl) (.cons (.inl rfl) .nil)))))
  have token : "00:11:22:33:44:*".toList ∈ toArray "00:11:22:33:44:*".toList := by decide
  obtain ⟨item, listed, word, field, taken, -⟩ := covered _ ⟨_, .head _, _, token, inside⟩
  rw [List.mem_singleton.mp listed] at field
  have refused : ∀ word ∈ fields "00:11:22:33:44:*".toList, literalIpset .mac (String.ofList word) = false := by decide
  exact absurd (taken.symm.trans (refused word field)) (by decide)

/-- A rule with lists of all kinds -/
def plainRule : Rule :=
  ⟨false, "10.0.0.0/8, 192.168.1.5".toList, "fe80::1/64".toList, ["00:11:22:33:44:55".toList], "drop".toList, "baidu.com".toList⟩

theorem plainRule_hits : ∃ fuel after,
    restarts (fun word => [word]) literalIpset fuel ([⟨true, [wildcardRule, plainRule]⟩, ⟨true, [plainRule]⟩].map Config.stored) booted = some after ∧
      Hits (fun word => [word]) ⟨true, [plainRule]⟩ after := by
  have wildcard : wildcardRule.Saved twoAddresses := ⟨.inl rfl, .inl rfl, by decide⟩
  have rule : plainRule.Saved twoAddresses := ⟨.inr (by decide), .inr (by decide), by decide⟩
  have saved : ∀ config ∈ [⟨true, [wildcardRule, plainRule]⟩] ++ [⟨true, [plainRule]⟩], Config.Saved twoAddresses config := by
    intro config member
    rcases List.mem_pair.mp member with rfl | rfl
    · exact List.forall_mem_cons.mpr ⟨wildcard, List.forall_mem_singleton.mpr rule⟩
    · exact List.forall_mem_singleton.mpr rule
  have printed : netStrings2ipcidrStrings 8 (String.ofList (got plainRule.stored.ip)) = some ["10.0.0.0/8", "192.168.1.5/32"] := by
    decide +kernel
  have fits : plainRule.Fits (fun word => [word]) literalIpset := by
    intro fuel line given kind
    obtain ⟨blocks, -, -, -, -, only⟩ := line_blocks rule
    obtain rfl : line = ["10.0.0.0/8", "192.168.1.5/32"] := (only fuel line given).trans (only 8 _ printed).symm
    cases kind <;> decide +kernel
  have environment : ∀ rule ∈ [plainRule], rule.disabled = false →
      rule.Fits (fun word => [word]) literalIpset ∧ rule.Unmatched fun word => [word] := by
    intro rule listed _
    rw [List.mem_singleton.mp listed]
    exact ⟨fits, fun _ _ _ _ => rfl⟩
  obtain ⟨⟨fuel, after, done⟩, exactly⟩ := rules_hit_iff keepsPlain_self literalIpset_documented saved rfl environment
  refine ⟨fuel, after, done, (exactly fuel after done).mpr ⟨?_, ?_⟩⟩
  · intro other listed _ kind _
    rw [List.mem_singleton.mp listed]
    cases kind with
    | ipv4 => trivial
    | ipv6 => exact covered_of_kept (by decide)
    | mac =>
        rintro mac ⟨item, here, token, inside, denoted⟩
        rw [List.mem_singleton.mp here] at inside
        have single : toArray "00:11:22:33:44:55".toList = ["00:11:22:33:44:55".toList] := by decide
        rw [single, List.mem_singleton] at inside
        rw [inside] at denoted
        exact ⟨_, .head _, "00:11:22:33:44:55".toList, by decide, by decide, denoted⟩
  · rintro i kind late ⟨config, listed, -, rule, here, -⟩
    rw [List.mem_singleton.mp listed, List.getElem?_eq_none (Nat.le_trans (by decide) late)] at here
    cases here

end XWrt.Natflow.Hostacl
