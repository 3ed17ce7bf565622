import XWrt.Foundation.Pieces
import XWrt.Xwan.AddXwanSettled

/-!
# `add_xwan`, once and once more

A run makes the policy `balanced` anew and adds the members of the interfaces that
are missing, and only of those. Another run with the same configuration thus
leaves everything as it was, or drops the members that the first one added.
-/

namespace XWrt.Xwan.AddXwan

open Foundation
open Foundation.Shell
open Foundation.Uci
open Foundation.Keyed
open Foundation.Uci.Config (New Job Apart Same Kept Forgets)
open Pptpxwan (Packages interfaceType memberType policyType ruleType memberName)

/-! ## Jobs -/

theorem ne_memberKey (intf : Text) {other : String} (short : other.toList.length < 10) : other ≠ String.ofList (memberName intf) := by
  rintro rfl
  rw [String.toList_ofList, memberName, List.length_append] at short
  have tail : "_m100_w100".toList.length = 10 := by decide
  omega

def interfaceNews (family : Text) (trackIps : List Text) (intf : Text) : List New :=
  [(String.ofList intf, interfaceType, fun s => (((s.setAll (stateOptions family)).delete "track_ip").addAll "track_ip" trackIps).setAll trackOptions),
    (String.ofList (memberName intf), memberType, fun s => s.setAll (memberOptions intf))]

/-- `addMissing` -/
def interfaceJob (family : Text) (trackIps : List Text) (intf : Text) (other : intf ≠ "balanced".toList) : Job "balanced" where
  guard := String.ofList intf
  news := interfaceNews family trackIps intf
  items := [memberName intf]
  guarded := List.mem_cons_self
  distinct := by
    refine List.nodup_cons.mpr ⟨fun member => ?_, List.pairwise_singleton _ _⟩
    have longer := congrArg List.length (String.ofList_injective (List.mem_singleton.mp member))
    rw [memberName, List.length_append] at longer
    exact absurd longer (by simp)
  apart member := by
    rcases List.mem_cons.mp member with same | later
    · exact other (by rw [same, String.toList_ofList])
    · exact ne_memberKey intf (by decide) (List.mem_singleton.mp later)
  typed new member s := by
    rcases List.mem_cons.mp member with rfl | later
    · simp only [Section.setAll_type, Section.addAll_type, Section.delete]
    · rw [List.mem_singleton.mp later, Section.setAll_type]

/-- The rules that are made with `https`. -/
def rulesJob : Job "balanced" where
  guard := "https"
  news := [("https", ruleType, fun s => s.setAll httpsOptions),
    ("default_rule_v4", ruleType, fun s => s.setAll (defaultOptions "0.0.0.0/0".toList "ipv4".toList)),
    ("default_rule_v6", ruleType, fun s => s.setAll (defaultOptions "::/0".toList "ipv6".toList))]
  items := []
  guarded := List.mem_cons_self
  distinct := by decide
  apart := by decide
  typed new member s := by
    simp only [List.mem_cons, List.not_mem_nil, or_false] at member
    rcases member with rfl | rfl | rfl
    · exact Section.setAll_type _
    · exact Section.setAll_type _
    · exact Section.setAll_type _

theorem xwanName_ne_balanced (id : ℕ) : xwanName 2 id ≠ "balanced".toList := fun same => by
  have head := congrArg List.head? same
  cases head

/-- All of a run. -/
def jobs (glob : Text → List Text) (config : XwanConfig) : List (Job "balanced") :=
  interfaceJob [] (trackIps glob config) "wan".toList (by decide) :: rulesJob ::
    (List.range' 1 (config.number - 1)).map fun id => interfaceJob config.family (trackIps glob config) (xwanName 2 id) (xwanName_ne_balanced id)

/-- What stands in front of the first line of a name. -/
def root (name : String) : Text := name.toList.takeWhile (· ≠ '_')

theorem root_of_mem {family : Text} {trackIps : List Text} {intf : Text} {other : intf ≠ "balanced".toList} (plain : '_' ∉ intf) {name : String}
    (member : name ∈ (interfaceJob family trackIps intf other).names) : root name = intf := by
  have all : ∀ char ∈ intf, decide (char ≠ '_') = true := fun char inside => decide_eq_true (ne_of_mem_of_not_mem inside plain)
  rcases List.mem_cons.mp member with rfl | later
  · rw [root, String.toList_ofList, List.takeWhile_eq_self_iff.mpr all]
  · rw [List.mem_singleton.mp later, root, String.toList_ofList]
    exact Text.takeWhile_stop all (by decide) _

theorem root_of_mem_rules {name : String} (member : name ∈ rulesJob.names) : root name = "https".toList ∨ root name = "default".toList := by
  simp only [rulesJob, Job.names, List.map_cons, List.map_nil, List.mem_cons, List.not_mem_nil, or_false] at member
  rcases member with rfl | rfl | rfl
  · exact .inl (by decide)
  · exact .inr (by decide)
  · exact .inr (by decide)

theorem line_notMem_xwanName (id : ℕ) : '_' ∉ xwanName 2 id := fun member => by
  rcases List.mem_append.mp member with letter | digit
  · exact absurd letter (by decide)
  · exact absurd (digit_of_mem_printf digit) (by decide)

theorem xwanName_head (id : ℕ) : (xwanName 2 id).head? = some 'x' := rfl

/-- No two jobs make the same section. -/
theorem apart_jobs (glob : Text → List Text) (config : XwanConfig) : Apart (jobs glob config) := by
  have numbers : ∀ {job : Job "balanced"}, job ∈ (List.range' 1 (config.number - 1)).map (fun id =>
      interfaceJob config.family (trackIps glob config) (xwanName 2 id) (xwanName_ne_balanced id)) → ∀ name ∈ job.names, (root name).head? = some 'x' := by
    intro job member name inside
    obtain ⟨id, -, rfl⟩ := List.mem_map.mp member
    rw [root_of_mem (line_notMem_xwanName id) inside, xwanName_head]
  have wan : ∀ {name : String}, name ∈ (interfaceJob [] (trackIps glob config) "wan".toList (by decide)).names → root name = "wan".toList :=
    fun member => root_of_mem (by decide) member
  rw [jobs, Apart, List.pairwise_cons, List.pairwise_cons, List.pairwise_map]
  refine ⟨List.forall_mem_cons.mpr ⟨fun name first second => ?_, fun job member name first second => ?_⟩, fun job member name first second => ?_, ?_⟩
  · rcases root_of_mem_rules second with same | same
    · exact absurd ((wan first).symm.trans same) (by decide)
    · exact absurd ((wan first).symm.trans same) (by decide)
  · have head := numbers member name second
    rw [wan first] at head
    exact absurd head (by decide)
  · have head := numbers member name second
    rcases root_of_mem_rules first with same | same
    · rw [same] at head
      exact absurd head (by decide)
    · rw [same] at head
      exact absurd head (by decide)
  · refine (List.nodup_range' _).imp fun apart name first second => apart (xwanName_injective 2 ?_)
    rw [← root_of_mem (line_notMem_xwanName _) first, root_of_mem (line_notMem_xwanName _) second]

/-! ## What a run does to `mwan3` -/

section Mwan3

variable {glob : Text → List Text} {digest : Text} {config : XwanConfig} {device ifname : Text} {run : Run} {packages : Packages}

theorem addMissing_mwan3 {family : Text} {trackIps : List Text} {intf : Text} (other : intf ≠ "balanced".toList) :
    (addMissing family trackIps intf run).mwan3 = (interfaceJob family trackIps intf other).run "use_member" run.mwan3 := by
  rw [addMissing]
  split
  next found => exact (Job.run_of_has found).symm
  next missing => exact (if_neg missing).symm

theorem rulesJob_run (mwan3 : Config) : rulesJob.run "use_member" mwan3 = if mwan3.has "https" then mwan3 else addRules mwan3 := by
  have made : ((Config.createAll rulesJob.news mwan3).edit "balanced" fun s => s.addAll "use_member" rulesJob.items) = addRules mwan3 :=
    Config.edit_id (addRules mwan3) "balanced"
  rw [Job.run, made]
  rfl

theorem startBalanced_mwan3 (trackIps : List Text) : (startBalanced trackIps run).mwan3 =
    rulesJob.run "use_member" ((interfaceJob [] trackIps "wan".toList (by decide)).run "use_member" (newBalanced run.mwan3)) := by
  have wan : (addMissing [] trackIps "wan".toList { run with mwan3 := newBalanced run.mwan3 }).mwan3 =
      (interfaceJob [] trackIps "wan".toList (by decide)).run "use_member" (newBalanced run.mwan3) := addMissing_mwan3 (by decide)
  rw [startBalanced, ← wan, rulesJob_run]
  split
  · rfl
  · rfl

theorem turn_mwan3 (id : ℕ) : (turn glob config device ifname run id).mwan3 =
    if config.balanced = "1".toList then
      (interfaceJob config.family (trackIps glob config) (xwanName 2 id) (xwanName_ne_balanced id)).run "use_member" run.mwan3
    else run.mwan3 := by
  have before : (addInterface device ifname id (addDevice device ifname id run)).mwan3 = run.mwan3 := (addInterface_frame id).2.trans (addDevice_frame id).2
  rw [turn]
  split
  · rw [addMissing_mwan3 (xwanName_ne_balanced id), before]
  · exact before

theorem foldl_turn_mwan3 (balanced : config.balanced = "1".toList) (ids : List ℕ) : (ids.foldl (turn glob config device ifname) run).mwan3 =
    Config.runAll "use_member" (ids.map fun id => interfaceJob config.family (trackIps glob config) (xwanName 2 id) (xwanName_ne_balanced id)) run.mwan3 := by
  induction ids generalizing run with
  | nil => rfl
  | cons id rest ih =>
      rw [List.foldl_cons, ih, turn_mwan3, if_pos balanced]
      rfl

theorem foldl_turn_mwan3_of_not (other : config.balanced ≠ "1".toList) (ids : List ℕ) :
    (ids.foldl (turn glob config device ifname) run).mwan3 = run.mwan3 := by
  induction ids generalizing run with
  | nil => rfl
  | cons id rest ih => rw [List.foldl_cons, ih, turn_mwan3, if_neg other]

/-- The options of the new policy. -/
def emptyPolicy (s : Section) : Section := s.setAll [("last_resort", "unreachable".toList)]

def balancedPass (glob : Text → List Text) (config : XwanConfig) (mwan3 : Config) : Config :=
  Config.pass "balanced" "use_member" policyType emptyPolicy (jobs glob config) mwan3

theorem addAll_mwan3 : (addAll glob config device ifname run).mwan3 =
    if config.balanced = "1".toList then balancedPass glob config run.mwan3 else run.mwan3 := by
  rw [addAll]
  split
  next balanced =>
    rw [foldl_turn_mwan3 balanced, startBalanced_mwan3, setMetric_frame.2]
    rfl
  next other => rw [foldl_turn_mwan3_of_not other, setMetric_frame.2]

/-- The policy is made anew. -/
def Balances (config : XwanConfig) (network : Config) : Prop := Adds config network ∧ config.balanced = "1".toList

theorem enabledRun_mwan3_of_balances (balances : Balances config packages.network) :
    (enabledRun glob digest config packages).mwan3 = balancedPass glob config (renew digest packages).mwan3 := by
  rw [enabledRun, if_pos balances.1, cleanUp, addAll_mwan3, if_pos balances.2]

theorem enabledRun_mwan3_of_not (other : ¬Balances config packages.network) :
    (enabledRun glob digest config packages).mwan3 = (renew digest packages).mwan3 := by
  rw [enabledRun, cleanUp]
  split
  next adds => rw [addAll_mwan3, if_neg fun balanced => other ⟨adds, balanced⟩]
  next => rfl

/-! ## The digest -/

def isDeleted (type : SectionType) : Bool := type = interfaceType || type = memberType || type = policyType

theorem renew_of_stored (same : digest = storedDigest packages.mwan3) : renew digest packages = ⟨packages, false⟩ := if_pos same

theorem renew_mwan3_of_stale (stale : digest ≠ storedDigest packages.mwan3) : (renew digest packages).mwan3 = Config.keep isDeleted packages.mwan3 := by
  rw [renew, if_neg stale, Config.keep, Config.deleteType, Config.deleteType, Config.deleteType, List.filter_filter, List.filter_filter]
  refine List.filter_congr fun entry _ => ?_
  rw [isDeleted]
  by_cases interface : entry.2.type = interfaceType
  · simp [interface]
  · by_cases member : entry.2.type = memberType
    · simp [member]
    · simp [interface, member]

theorem change_addMissing {family : Text} {trackIps : List Text} {intf : Text} (changed : run.change = true) :
    (addMissing family trackIps intf run).change = true := by
  rw [addMissing]
  split
  · exact changed
  · rfl

theorem change_turn (changed : run.change = true) (id : ℕ) : (turn glob config device ifname run id).change = true := by
  have first : (addDevice device ifname id run).change = true := by
    rw [addDevice]
    split
    · exact changed
    · rfl
  have second : (addInterface device ifname id (addDevice device ifname id run)).change = true := by
    rw [addInterface]
    split
    · exact first
    · rfl
  rw [turn]
  split
  · exact change_addMissing second
  · exact second

theorem change_foldl_turn (changed : run.change = true) (ids : List ℕ) : (ids.foldl (turn glob config device ifname) run).change = true := by
  induction ids generalizing run with
  | nil => exact changed
  | cons id rest ih => exact ih (change_turn changed id)

theorem change_addAll (changed : run.change = true) : (addAll glob config device ifname run).change = true := by
  have first : (setMetric run).change = true := by
    rw [setMetric]
    split
    · exact changed
    · rfl
  have second : (startBalanced (trackIps glob config) (setMetric run)).change = true := by
    rw [startBalanced]
    split
    · exact change_addMissing first
    · exact change_addMissing first
  rw [addAll]
  split
  · exact change_foldl_turn second _
  · exact change_foldl_turn first _

/-- Another digest is stored. -/
theorem change_enabledRun (stale : digest ≠ storedDigest packages.mwan3) : (enabledRun glob digest config packages).change = true := by
  have renewed : (renew digest packages).change = true := by rw [renew, if_neg stale]
  rw [enabledRun, cleanUp, Bool.or_eq_true]
  refine .inl ?_
  split
  · exact change_addAll renewed
  · exact renewed

/-! ## A run that finds everything -/

theorem turn_of_settled {id : ℕ} (both : HasBoth run.network id) (there : config.balanced = "1".toList → run.mwan3.has (xwanKey 2 id) = true) :
    turn glob config device ifname run id = { run with firewall := run.firewall.editFirst isWanZone (addToZoneWan glob (xwanName 2 id)) } := by
  have first : addDevice device ifname id run = run := if_pos both.1
  have second : addInterface device ifname id run = run := if_pos both.2
  rw [turn, first, second]
  split
  next balanced => exact if_pos (there balanced)
  next => rfl

theorem change_foldl_turn_of_settled {ids : List ℕ} (both : ∀ id ∈ ids, HasBoth run.network id)
    (there : config.balanced = "1".toList → ∀ id ∈ ids, run.mwan3.has (xwanKey 2 id) = true) :
    (ids.foldl (turn glob config device ifname) run).change = run.change := by
  induction ids generalizing run with
  | nil => rfl
  | cons id rest ih =>
      rw [List.forall_mem_cons] at both
      rw [List.foldl_cons, turn_of_settled both.1 fun balanced => there balanced id List.mem_cons_self]
      exact ih both.2 fun balanced other member => there balanced other (List.mem_cons_of_mem id member)

theorem has_newBalanced {mwan3 : Config} {name : String} (other : name ≠ "balanced") : (newBalanced mwan3).has name = mwan3.has name :=
  Config.has_congr (@Config.lookup_restart_of_ne mwan3 "balanced" policyType emptyPolicy name other)

theorem startBalanced_of_has (wan : run.mwan3.has (String.ofList "wan".toList) = true) (https : run.mwan3.has "https" = true) (trackIps : List Text) :
    startBalanced trackIps run = { run with mwan3 := newBalanced run.mwan3 } := by
  have first : addMissing [] trackIps "wan".toList { run with mwan3 := newBalanced run.mwan3 } = { run with mwan3 := newBalanced run.mwan3 } :=
    if_pos ((has_newBalanced (by decide)).trans wan)
  rw [startBalanced, first]
  exact if_pos ((has_newBalanced (by decide)).trans https)

theorem change_addAll_of_settled (settled : Settled config run.network)
    (all : config.balanced = "1".toList → ∀ job ∈ jobs glob config, run.mwan3.has job.guard = true) :
    (addAll glob config device ifname run).change = run.change := by
  have xwan : config.balanced = "1".toList → ∀ id ∈ List.range' 1 (config.number - 1), run.mwan3.has (xwanKey 2 id) = true := fun balanced id member =>
    all balanced _ (List.mem_cons_of_mem _ (List.mem_cons_of_mem _ (List.mem_map.mpr ⟨id, member, rfl⟩)))
  rw [addAll, setMetric_of_settled settled]
  split
  next balanced =>
    rw [startBalanced_of_has (all balanced _ List.mem_cons_self) (all balanced _ (List.mem_cons_of_mem _ List.mem_cons_self))]
    refine change_foldl_turn_of_settled settled.numbered fun balanced id member => ?_
    have other : xwanKey 2 id ≠ "balanced" :=
      Job.ne_shared (interfaceJob config.family (trackIps glob config) (xwanName 2 id) (xwanName_ne_balanced id)).guarded
    rw [has_newBalanced other, xwan balanced id member]
  next => exact change_foldl_turn_of_settled settled.numbered xwan

/-- Nothing is missing in the next run. -/
theorem change_enabledRun_of_settled {later : Packages} (network : later.network = (enabledRun glob digest config packages).network)
    (same : digest = storedDigest later.mwan3)
    (all : Balances config packages.network → ∀ job ∈ jobs glob config, later.mwan3.has job.guard = true) :
    (enabledRun glob digest config later).change = false := by
  have clean := enabledRun_network network
  have adds : Adds config later.network ↔ Adds config packages.network := by rw [network, adds_enabledRun]
  rw [enabledRun, cleanUp] at clean ⊢
  split at clean
  next here =>
    have settled : Settled config (renew digest later).network := renew_frame.1.symm ▸ network ▸ settled_enabledRun (adds.mp here)
    have quiet := @change_addAll_of_settled glob config ((later.network.options "wan").got "device") ((later.network.options "wan").got "ifname")
      (renew digest later) settled fun balanced => by
        rw [renew_of_stored same]
        exact all ⟨adds.mp here, balanced⟩
    have kept := @addAll_network_of_settled glob config ((later.network.options "wan").got "device") ((later.network.options "wan").got "ifname")
      (renew digest later) settled
    simp only [if_pos here, quiet, kept, renew_frame.1] at clean ⊢
    rw [renew_of_stored same]
    simp [clean]
  next here =>
    simp only [if_neg here, renew_frame.1] at clean ⊢
    rw [renew_of_stored same]
    simp [clean]

/-! ## The sections after a run -/

/-- What a run finds in `mwan3`, with the sections of another configuration deleted. -/
def found (digest : Text) (mwan3 : Config) (name : String) : Option Section :=
  (mwan3.lookup name).filter fun s => digest = storedDigest mwan3 || !isDeleted s.type

theorem lookup_renew (distinct : (packages.mwan3.map Prod.fst).Nodup) (name : String) :
    (renew digest packages).mwan3.lookup name = found digest packages.mwan3 name := by
  rw [found]
  by_cases same : digest = storedDigest packages.mwan3
  · rw [renew_of_stored same, decide_eq_true same]
    cases packages.mwan3.lookup name with
    | none => rfl
    | some s => rfl
  · rw [renew_mwan3_of_stale same, Config.lookup_keep distinct, decide_eq_false same]
    rfl

theorem root_of_mem_jobs {job : Job "balanced"} (member : job ∈ jobs glob config) {name : String} (inside : name ∈ job.names) :
    root name ∈ ["wan".toList, "https".toList, "default".toList] ∨ (root name).head? = some 'x' := by
  rcases List.mem_cons.mp member with rfl | member
  · rw [root_of_mem (by decide) inside]
    exact .inl List.mem_cons_self
  · rcases List.mem_cons.mp member with rfl | member
    · rcases root_of_mem_rules inside with same | same
      · rw [same]
        exact .inl (by decide)
      · rw [same]
        exact .inl (by decide)
    · obtain ⟨id, -, rfl⟩ := List.mem_map.mp member
      rw [root_of_mem (line_notMem_xwanName id) inside]
      exact .inr (xwanName_head id)

theorem globals_notMem {job : Job "balanced"} (member : job ∈ jobs glob config) : "globals" ∉ job.names := fun inside => by
  rcases root_of_mem_jobs member inside with known | number
  · exact absurd known (by decide)
  · exact absurd number (by decide)

theorem enabledRun_globals : (enabledRun glob digest config packages).mwan3.lookup "globals" = (renew digest packages).mwan3.lookup "globals" := by
  by_cases balances : Balances config packages.network
  · rw [enabledRun_mwan3_of_balances balances]
    exact Config.lookup_pass_of_notMem (fun job => globals_notMem) (by decide)
  · rw [enabledRun_mwan3_of_not balances]

theorem addXwan_mwan3 (enabled : config.enabled = "1".toList) : (addXwan glob digest config packages).mwan3 =
    if (enabledRun glob digest config packages).change then
      (enabledRun glob digest config packages).mwan3.edit "globals" fun s => s.set "xwan_md5" digest
    else (enabledRun glob digest config packages).mwan3 := by
  rw [addXwan_of_enabled enabled]
  split
  · rfl
  · rfl

theorem lookup_addXwan_mwan3 (enabled : config.enabled = "1".toList) {name : String} (other : name ≠ "globals") :
    (addXwan glob digest config packages).mwan3.lookup name = (enabledRun glob digest config packages).mwan3.lookup name := by
  rw [addXwan_mwan3 enabled]
  split
  · exact Config.lookup_edit_of_ne other _
  · rfl

/-- Where there are no globals, no digest is stored. -/
theorem addXwan_mwan3_of_missing (enabled : config.enabled = "1".toList) (missing : (renew digest packages).mwan3.lookup "globals" = none) :
    (addXwan glob digest config packages).mwan3 = (enabledRun glob digest config packages).mwan3 := by
  rw [addXwan_mwan3 enabled, Config.edit_of_missing (enabledRun_globals.trans missing), ite_self]

/-- Otherwise the digest is stored after the run. -/
theorem storedDigest_addXwan (enabled : config.enabled = "1".toList) (name : IsName digest) {s : Section}
    (here : (renew digest packages).mwan3.lookup "globals" = some s) : digest = storedDigest (addXwan glob digest config packages).mwan3 := by
  have line : digest.getLast? ≠ some '\n' := fun last => absurd (isBlank_of_isName name '\n' (List.mem_of_getLast? last)) (by decide)
  have globals := (@enabledRun_globals glob digest config packages).trans here
  rw [addXwan_mwan3 enabled]
  split
  next =>
    have edited := Config.lookup_edit_of_lookup globals fun s => s.set "xwan_md5" digest
    rw [storedDigest, options_of_lookup edited, Options.got, Section.lookup_set_self, if_neg name.1, Option.map_some, Option.getD_some,
      Value.got_option line]
  next unchanged =>
    have same : digest = storedDigest packages.mwan3 := by
      by_contra stale
      exact unchanged (change_enabledRun stale)
    rw [renew_of_stored same] at here
    rw [storedDigest, options_of_lookup globals, ← options_of_lookup here, ← storedDigest]
    exact same

end Mwan3

/-- The interfaces and members are deleted, the rules are not. -/
theorem type_of_mem_interface {family : Text} {trackIps : List Text} {intf : Text} {other : intf ≠ "balanced".toList} {new : New}
    (member : new ∈ (interfaceJob family trackIps intf other).news) : isDeleted new.2.1 = true := by
  have types : isDeleted interfaceType = true ∧ isDeleted memberType = true := by decide
  rcases List.mem_cons.mp member with rfl | later
  · exact types.1
  · rw [List.mem_singleton.mp later]
    exact types.2

theorem type_of_mem_rules {new : New} (member : new ∈ rulesJob.news) : isDeleted new.2.1 = false := by
  have type : isDeleted ruleType = false := by decide
  simp only [rulesJob, List.mem_cons, List.not_mem_nil, or_false] at member
  rcases member with rfl | rfl | rfl
  · exact type
  · exact type
  · exact type

theorem sorted_jobs {glob : Text → List Text} {config : XwanConfig} : ∀ job ∈ jobs glob config, Config.Sorted isDeleted job := by
  refine List.forall_mem_cons.mpr ⟨.inl fun new => type_of_mem_interface, List.forall_mem_cons.mpr ⟨.inr ⟨fun new => type_of_mem_rules, rfl⟩, ?_⟩⟩
  rw [List.forall_mem_map]
  exact fun id _ => .inl fun new => type_of_mem_interface

/-- A missing interface is made anew; its member is, unless it has other options. -/
theorem forgets_interfaceJob_iff {family : Text} {trackIps : List Text} {intf : Text} {other : intf ≠ "balanced".toList} {mwan3 : Config}
    (absent : mwan3.has (String.ofList intf) = false) :
    (∀ new ∈ (interfaceJob family trackIps intf other).news, isDeleted new.2.1 = true → Forgets mwan3 new) ↔
      ∀ option ∈ (mwan3.options (String.ofList (memberName intf))).map Prod.fst, option ∈ ["interface", "metric", "weight"] := by
  have nothing : mwan3.options (String.ofList intf) = [] := by
    rw [Config.options, Config.has_eq_false_iff.mp absent]
    rfl
  have member := @Section.reads_setAll_iff (memberOptions intf) memberType (mwan3.options (String.ofList (memberName intf)))
  have second : (String.ofList (memberName intf), memberType, fun s => s.setAll (memberOptions intf)) ∈ (interfaceJob family trackIps intf other).news :=
    List.mem_cons_of_mem _ List.mem_cons_self
  constructor
  · exact fun all => member.mp (all _ second (type_of_mem_interface second))
  · intro known new inside _
    rcases List.mem_cons.mp inside with rfl | later
    · rw [Forgets, nothing]
    · rw [List.mem_singleton.mp later]
      exact member.mpr known

/-! ## Two runs -/

section Twice

variable (glob : Text → List Text) (digest : Text) (config : XwanConfig) (packages : Packages)

/-- A second run leaves what the first one left. -/
def Idempotent : Prop :=
  let first := addXwan glob digest config packages
  let second := addXwan glob digest config first
  second.network = first.network ∧ second.firewall = first.firewall ∧ Same second.mwan3 first.mwan3

/-- The interfaces that are balanced. -/
def balancedInterfaces : List Text := "wan".toList :: (List.range' 1 (config.number - 1)).map (xwanName 2)

/-- The member has an option that no run sets. -/
def HasOthers (intf : Text) : Prop :=
  ∃ s ∈ found digest packages.mwan3 (String.ofList (memberName intf)), ∃ option ∈ s.options.map Prod.fst, option ∉ ["interface", "metric", "weight"]

/-- An interface is missing, and the digest is stored or its member has other options. -/
def LosesMembers : Prop :=
  config.enabled = "1".toList ∧ Balances config packages.network ∧ ∃ intf ∈ balancedInterfaces config,
    found digest packages.mwan3 (String.ofList intf) = none ∧
      ((found digest packages.mwan3 "globals").isSome = true ∨ HasOthers digest packages intf)

variable {glob digest config packages}

theorem forall_jobs_iff {each : Job "balanced" → Prop} {holds : Text → Prop} (rules : each rulesJob)
    (same : ∀ family intf (other : intf ≠ "balanced".toList), each (interfaceJob family (trackIps glob config) intf other) ↔ holds intf) :
    (∀ job ∈ jobs glob config, each job) ↔ ∀ intf ∈ balancedInterfaces config, holds intf := by
  rw [jobs, balancedInterfaces, List.forall_mem_cons, List.forall_mem_cons, List.forall_mem_cons, List.forall_mem_map, List.forall_mem_map, same]
  simp only [same, rules, true_and]

variable (enabled : config.enabled = "1".toList)

include enabled

theorem balances_addXwan : Balances config (addXwan glob digest config packages).network ↔ Balances config packages.network := by
  rw [Balances, Balances, addXwan_network enabled, adds_enabledRun]

/-! The digest is stored. -/

section Stored

variable (name : IsName digest) {globals : Section} (here : (renew digest packages).mwan3.lookup "globals" = some globals)

include name here

theorem again_of_stored (all : Balances config packages.network → ∀ job ∈ jobs glob config, (addXwan glob digest config packages).mwan3.has job.guard = true) :
    (addXwan glob digest config (addXwan glob digest config packages)).mwan3 =
      (enabledRun glob digest config (addXwan glob digest config packages)).mwan3 := by
  have stored := @storedDigest_addXwan glob digest config packages enabled name globals here
  rw [addXwan_mwan3 enabled, change_enabledRun_of_settled (addXwan_network enabled) stored all]
  rfl

theorem same_of_stored (other : ¬Balances config packages.network) :
    Same (addXwan glob digest config (addXwan glob digest config packages)).mwan3 (addXwan glob digest config packages).mwan3 := by
  have stored := @storedDigest_addXwan glob digest config packages enabled name globals here
  rw [again_of_stored enabled name here fun balances => absurd balances other, enabledRun_mwan3_of_not (mt (balances_addXwan enabled).mp other),
    renew_of_stored stored]
  exact fun _ => rfl

/-- The members of the first run are lost, if it added any. -/
theorem same_of_stored_iff (balances : Balances config packages.network) :
    Same (addXwan glob digest config (addXwan glob digest config packages)).mwan3 (addXwan glob digest config packages).mwan3 ↔
      ∀ intf ∈ balancedInterfaces config, ((renew digest packages).mwan3.lookup (String.ofList intf)).isSome = true := by
  have stored := @storedDigest_addXwan glob digest config packages enabled name globals here
  have pass := @enabledRun_mwan3_of_balances glob digest config packages balances
  have all : ∀ job ∈ jobs glob config, (addXwan glob digest config packages).mwan3.has job.guard = true := by
    intro job member
    have known : job.guard ≠ "globals" := fun same => globals_notMem member (same ▸ job.guarded)
    rw [Config.has_congr (lookup_addXwan_mwan3 enabled known), pass, balancedPass, Config.has_pass (apart_jobs glob config) member]
  rw [again_of_stored enabled name here fun _ => all, enabledRun_mwan3_of_balances ((balances_addXwan enabled).mpr balances), renew_of_stored stored,
    balancedPass, Config.same_pass_iff all, lookup_addXwan_mwan3 enabled (by decide), pass, balancedPass,
    Config.lookup_pass_shared (apart_jobs glob config), Option.map_some, Option.some_inj, Config.reads_addAll_iff (by decide), List.flatMap_eq_nil_iff]
  refine forall_jobs_iff ?_ fun family intf other => ?_
  · rw [Job.added]
    exact ite_self _
  · rw [Job.added, ite_eq_left_iff]
    refine ⟨fun nothing => ?_, fun there absent => absurd there absent⟩
    by_contra absent
    cases nothing absent

end Stored

/-! No digest is stored. -/

section Missing

omit enabled in
theorem stale_of_missing (name : IsName digest) {mwan3 : Config} (none : mwan3.lookup "globals" = none) : digest ≠ storedDigest mwan3 := by
  rw [storedDigest, Config.options, none]
  exact name.1

omit enabled in
theorem stale_of_renew (name : IsName digest) (missing : (renew digest packages).mwan3.lookup "globals" = none) : digest ≠ storedDigest packages.mwan3 :=
  fun same => by
    rw [renew_of_stored same] at missing
    exact stale_of_missing name missing same

variable (name : IsName digest) (missing : (renew digest packages).mwan3.lookup "globals" = none)

include name missing

/-- The next run deletes the sections again. -/
theorem again_of_missing : (addXwan glob digest config (addXwan glob digest config packages)).mwan3 =
      (enabledRun glob digest config (addXwan glob digest config packages)).mwan3 ∧
    (addXwan glob digest config packages).mwan3 = (enabledRun glob digest config packages).mwan3 ∧
    (renew digest (addXwan glob digest config packages)).mwan3 = Config.keep isDeleted (enabledRun glob digest config packages).mwan3 := by
  have first := @addXwan_mwan3_of_missing glob digest config packages enabled missing
  have none : (addXwan glob digest config packages).mwan3.lookup "globals" = none := first ▸ enabledRun_globals.trans missing
  have renewed := @renew_mwan3_of_stale digest (addXwan glob digest config packages) (stale_of_missing name none)
  refine ⟨addXwan_mwan3_of_missing enabled ?_, first, first ▸ renewed⟩
  rw [renewed]
  exact lookup_filter_none none _

theorem same_of_missing (other : ¬Balances config packages.network) :
    Same (addXwan glob digest config (addXwan glob digest config packages)).mwan3 (addXwan glob digest config packages).mwan3 := by
  obtain ⟨second, first, renewed⟩ := @again_of_missing glob digest config packages enabled name missing
  rw [second, enabledRun_mwan3_of_not (mt (balances_addXwan enabled).mp other), renewed, first, enabledRun_mwan3_of_not other,
    renew_mwan3_of_stale (stale_of_renew name missing), Config.keep, Config.keep, List.filter_filter]
  simp only [Bool.and_self]
  exact fun _ => rfl

/-- The members are made again, without their other options. -/
theorem same_of_missing_iff (balances : Balances config packages.network) (distinct : (packages.mwan3.map Prod.fst).Nodup) :
    Same (addXwan glob digest config (addXwan glob digest config packages)).mwan3 (addXwan glob digest config packages).mwan3 ↔
      ∀ intf ∈ balancedInterfaces config, (renew digest packages).mwan3.has (String.ofList intf) = false →
        ∀ option ∈ ((renew digest packages).mwan3.options (String.ofList (memberName intf))).map Prod.fst, option ∈ ["interface", "metric", "weight"] := by
  obtain ⟨second, first, renewed⟩ := @again_of_missing glob digest config packages enabled name missing
  have deleted := @renew_mwan3_of_stale digest packages (stale_of_renew name missing)
  have different : ((renew digest packages).mwan3.map Prod.fst).Nodup := by
    rw [deleted]
    exact Config.nodup_filter distinct _
  have kept : Kept isDeleted (renew digest packages).mwan3 := by
    intro key s here
    rw [deleted, Config.lookup_keep distinct, Option.filter_eq_some_iff] at here
    simpa using here.2
  rw [second, enabledRun_mwan3_of_balances ((balances_addXwan enabled).mpr balances), renewed, first, enabledRun_mwan3_of_balances balances, balancedPass,
    balancedPass, Config.same_pass_keep_iff (apart_jobs glob config) different kept sorted_jobs]
  refine forall_jobs_iff (fun _ new member volatile => ?_) fun family intf other => forall_congr' fun absent => ?_
  · exact absurd ((type_of_mem_rules member).symm.trans volatile) Bool.false_ne_true
  · exact forgets_interfaceJob_iff absent

end Missing

omit enabled in
/-- `add_xwan` is idempotent exactly when no member is lost. -/
theorem idempotent_iff (keeps : KeepsNames glob) (name : IsName digest) (distinct : (packages.mwan3.map Prod.fst).Nodup)
    (plain : ∀ zone ∈ packages.firewall.find? fun entry => isWanZone entry.2, ∀ nw ∈ networks glob zone.2, IsPlain glob nw) :
    Idempotent glob digest config packages ↔ ¬LosesMembers digest config packages := by
  by_cases enabled : config.enabled = "1".toList
  · have network : (addXwan glob digest config (addXwan glob digest config packages)).network = (addXwan glob digest config packages).network :=
      (addXwan_network enabled).trans (enabledRun_network (addXwan_network enabled))
    have firewall : (addXwan glob digest config (addXwan glob digest config packages)).firewall = (addXwan glob digest config packages).firewall :=
      (addXwan_firewall enabled).trans (enabledRun_firewall_again keeps plain (addXwan_network enabled) (addXwan_firewall enabled))
    have only : Idempotent glob digest config packages ↔
        Same (addXwan glob digest config (addXwan glob digest config packages)).mwan3 (addXwan glob digest config packages).mwan3 :=
      ⟨fun all => all.2.2, fun same => ⟨network, firewall, same⟩⟩
    rw [only]
    have look := @lookup_renew digest packages distinct
    by_cases balances : Balances config packages.network
    · cases here : (renew digest packages).mwan3.lookup "globals" with
      | none =>
          rw [same_of_missing_iff enabled name here balances distinct]
          constructor
          · rintro all ⟨-, -, intf, member, missing, globals | ⟨s, there, option, inside, outside⟩⟩
            · rw [← look, here] at globals
              cases globals
            · rw [← look] at missing there
              refine outside (all intf member ?_ option ?_)
              · exact Config.has_eq_false_iff.mpr missing
              · rw [options_of_lookup there]
                exact inside
          · intro keeps intf member absent option inside
            by_contra outside
            refine keeps ⟨enabled, balances, intf, member, (look _).symm.trans (Config.has_eq_false_iff.mp absent), .inr ?_⟩
            cases there : (renew digest packages).mwan3.lookup (String.ofList (memberName intf)) with
            | none =>
                rw [Config.options, there] at inside
                cases inside
            | some s =>
                rw [options_of_lookup there] at inside
                exact ⟨s, (look _).symm.trans there, option, inside, outside⟩
      | some globals =>
          rw [same_of_stored_iff enabled name here balances]
          constructor
          · rintro all ⟨-, -, intf, member, missing, -⟩
            have there := all intf member
            rw [look, missing] at there
            cases there
          · intro keeps intf member
            by_contra missing
            rw [Option.not_isSome_iff_eq_none] at missing
            refine keeps ⟨enabled, balances, intf, member, (look _).symm.trans missing, .inl ?_⟩
            rw [← look, here]
            rfl
    · refine iff_of_true ?_ fun loses => balances loses.2.1
      cases here : (renew digest packages).mwan3.lookup "globals" with
      | none => exact same_of_missing enabled name here balances
      | some globals => exact same_of_stored enabled name here balances
  · have still : ∀ packages, addXwan glob digest config packages = packages := fun packages => if_pos enabled
    rw [Idempotent, still, still]
    exact iff_of_true ⟨rfl, rfl, fun _ => rfl⟩ fun loses => enabled loses.1

end Twice

/-! ## A router with two interfaces -/

def twoWans (balanced : Text) : XwanConfig := ⟨"1".toList, 2, balanced, "ipv4".toList, "gateway 223.5.5.5".toList, by norm_num⟩

def someDigest : Text := "0cc175b9c0f1b6a831c399e269772661".toList

def newRouter : Packages where
  network := [("wan", ⟨interfaceType, [("device", .option "eth1".toList), ("proto", .option "dhcp".toList)]⟩)]
  firewall := [("cfg03dc81", ⟨zoneType, [("name", .option "wan".toList), ("network", .list ["wan".toList, "wan6".toList])]⟩)]
  mwan3 := [("globals", ⟨⟨"globals".toList, by decide⟩, [("mmx_mask", .option "0x3F00".toList)]⟩)]

theorem newRouter_plain : ∀ zone ∈ newRouter.firewall.find? fun entry => isWanZone entry.2,
    ∀ nw ∈ networks (fun word => [word]) zone.2, IsPlain (fun word => [word]) nw := by
  intro zone found nw member
  have first := Option.some.inj (found.symm.trans (rfl : _ = newRouter.firewall.head?))
  have words : networks (fun word => [word]) zone.2 = ["wan".toList, "wan6".toList] := by
    rw [first]
    decide
  rw [words] at member
  have names : ∀ nw ∈ ["wan".toList, "wan6".toList], IsName nw := by decide
  exact isPlain_of_isName (fun _ _ => rfl) (names nw member)

/-- The same with nothing configured for several uplinks. -/
def singleRouter : Packages := ⟨newRouter.network, newRouter.firewall, []⟩

/-- The first run makes the interfaces, their members and the policy, and the second one changes nothing. -/
theorem idempotent_newRouter : Idempotent (fun word => [word]) someDigest (twoWans "1".toList) singleRouter := by
  refine (@idempotent_iff (fun word => [word]) someDigest (twoWans "1".toList) singleRouter (fun _ _ => rfl) (by decide) List.nodup_nil
    newRouter_plain).mpr ?_
  rintro ⟨-, -, intf, -, -, stored | ⟨s, there, -⟩⟩
  · cases stored
  · cases there

/-- The first run gives the policy two members, and the second one takes them away. -/
theorem newRouter_loses_members :
    let first := addXwan (fun word => [word]) someDigest (twoWans "1".toList) newRouter
    let second := addXwan (fun word => [word]) someDigest (twoWans "1".toList) first
    (first.mwan3.options "balanced").lookup "use_member" = some (.list ["wan_m100_w100".toList, "xwan01_m100_w100".toList]) ∧
      (second.mwan3.options "balanced").lookup "use_member" = none ∧
      ¬Idempotent (fun word => [word]) someDigest (twoWans "1".toList) newRouter := by
  intro first second
  have added : (first.mwan3.options "balanced").lookup "use_member" = some (.list ["wan_m100_w100".toList, "xwan01_m100_w100".toList]) := by decide +kernel
  have lost : (second.mwan3.options "balanced").lookup "use_member" = none := by decide +kernel
  refine ⟨added, lost, fun all => ?_⟩
  have same := Same.lookup_options all.2.2 "balanced" "use_member"
  rw [lost, added] at same
  cases same

end XWrt.Xwan.AddXwan
