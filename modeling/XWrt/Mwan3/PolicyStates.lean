import Mathlib.Data.Finmap
import Mathlib.Data.Finset.Sort
import Mathlib.Data.String.Basic
import XWrt.Foundation.DigestCache
import XWrt.Foundation.Transducer
import XWrt.Mwan3.IfaceEvents
import XWrt.Mwan3.PolicyRules

/-!
# Policies and interface states

The files of `iface_state`, the digest of them that `mwan3_state_is_changed`
records, and the policies built from them, over starts, stops and the events of
the interfaces. A start writes the files and builds the policies, but leaves the
recorded digest as it is.
-/

namespace XWrt.Mwan3

open XWrt.Foundation

/-! ## State files -/

/-- The files of `iface_state`, by name. -/
abbrev StateFiles := Finmap fun _ : String => String

def Family.word : Family → String
  | .ipv4 => "ipv4"
  | .ipv6 => "ipv6"

/-- `$iface.$family` -/
def stateFile (name : String) (family : Family) : String := name ++ "." ++ family.word

/-- `mwan3_set_iface_hotplug_state` -/
def setIfaceHotplugState (name state : String) (family : Family) (files : StateFiles) : StateFiles :=
  files.insert (stateFile name family) state

/-- `ls iface_state` -/
def fileNames (files : StateFiles) : List String := files.keys.sort

/-- `ls iface_state; cat iface_state/*`; every file holds one line. -/
def stateLines (files : StateFiles) : List String :=
  fileNames files ++ (fileNames files).map fun name => (files.lookup name).getD ""

theorem mem_fileNames {files : StateFiles} {name : String} :
    name ∈ fileNames files ↔ (files.lookup name).isSome = true := by
  rw [fileNames, Finset.mem_sort, Finmap.mem_keys, Finmap.lookup_isSome]

/-- The names are the first half of the lines. -/
theorem stateLines_injective : Function.Injective stateLines := by
  intro files files' same
  have lengths := congrArg List.length same
  simp only [stateLines, List.length_append, List.length_map] at lengths
  obtain ⟨names, contents⟩ := List.append_inj same (by omega)
  rw [← names] at contents
  refine Finmap.ext_lookup fun name => ?_
  by_cases present : name ∈ fileNames files
  · have content := List.map_inj_left.mp contents name present
    obtain ⟨state, found⟩ := Option.isSome_iff_exists.mp (mem_fileNames.mp present)
    obtain ⟨state', found'⟩ := Option.isSome_iff_exists.mp (mem_fileNames.mp (names ▸ present))
    rw [found, found'] at content ⊢
    exact congrArg some content
  · have absent : ∀ {files : StateFiles}, name ∉ fileNames files → files.lookup name = none := by
      intro files absent
      rw [mem_fileNames, Bool.not_eq_true, Option.isSome_eq_false_iff, Option.isNone_iff_eq_none] at absent
      exact absent
    rw [absent present, absent (names ▸ present)]

/-! ## The events -/

/-- What `ip` and `ubus` say of an interface that is up, with the line of its tracker. -/
structure Uplink where
  device : String
  status : String
  deriving DecidableEq, Repr

inductive PolicyEvent where
  /-- `up` are the interfaces that a start finds up. -/
  | start (up : String → Family → Option Uplink)
  | stop
  | restart (up : String → Family → Option Uplink)
  /-- `status` is what the handler reads for a family: the tracker's file, or `online` without
  `initial_state offline`. -/
  | hotplug (action : IfaceAction) (interface device : String) (family : Option Family) (status : Family → String)

/-- `binary_status` -/
def binaryStatus (status : String) : String := if status = "online" then "online" else "offline"

section Events

variable (c : IfaceConfig)

/-- The state files that the handler writes, one after the other. -/
def stateChanges (e : IfaceEvent) (status : Family → String) : List (StateFiles → StateFiles) :=
  match handledFamilies c e with
  | none => []
  | some (interface, families) => families.map fun family =>
      setIfaceHotplugState interface (if e.action.isUp then binaryStatus (status family) else "offline") family

/-- The handlers of `config_foreach ifup interface`. They run for disabled sections too, and one for
a disabled `wan6` writes the state of `wan`. -/
def startupChanges (up : String → Family → Option Uplink) : List (StateFiles → StateFiles) :=
  c.sections.flatMap fun iface =>
    (c.env.familyList iface.name).flatMap fun family =>
      match up iface.name family with
      | none => []
      | some link =>
          if link.device = "" then []
          else stateChanges c ⟨.ifup, iface.name, link.device, some family, true⟩ fun _ => link.status

/-- What the policy functions read. -/
def IfaceConfig.envWith (files : StateFiles) : Env :=
  { c.env with ifaceState := fun name family => files.lookup (stateFile name family) }

end Events

/-! ## The machine -/

/-- `globals.enabled`, and the files, the digest and the mangle tables. -/
structure PolicyState (δ : Type*) where
  running : Bool
  cache : DigestCache StateFiles δ (Family → Table)

section Machine

variable {δ : Type*} [DecidableEq δ] (c : IfaceConfig) (policies : List Policy) (md5 : List String → δ)

/-- `mwan3_set_policies_iptables` -/
def buildPolicies (files : StateFiles) (tables : Family → Table) : Family → Table :=
  setPoliciesIptables (c.envWith files) policies tables

/-- The sum of `mwan3_state_is_changed`. -/
def stateSum (files : StateFiles) : δ := md5 (stateLines files)

/-- `start_locked` -/
def PolicyState.start (up : String → Family → Option Uplink) (s : PolicyState δ) : PolicyState δ where
  running := true
  cache := s.cache.rebuild (buildPolicies c policies) (DigestCache.changed (startupChanges c up))

/-- `stop_locked` -/
def stopped : PolicyState δ := ⟨false, ⟨∅, none, fun _ _ => none⟩⟩

def runPolicyEvent (s : PolicyState δ) : PolicyEvent → PolicyState δ
  | .start up => s.start c policies up
  | .stop => stopped
  | .restart up => (stopped : PolicyState δ).start c policies up
  | .hotplug action interface device family status =>
      if s.running then
        { s with
          cache := s.cache.touchAll (stateSum md5) (buildPolicies c policies)
            (stateChanges c ⟨action, interface, device, family, false⟩ status) }
      else s

def policySystem : Transducer (PolicyState δ) PolicyEvent Unit where
  step s event := (runPolicyEvent c policies md5 s event, [])

/-- Setting the policies again changes nothing. -/
def PolicyState.Follows (s : PolicyState δ) : Prop :=
  s.running = true → buildPolicies c policies s.cache.source s.cache.built = s.cache.built

/-- An event that ends in states with the recorded sum, for which other policies were to be built. -/
def PolicyState.Misses (s : PolicyState δ) : PolicyEvent → Prop
  | .hotplug action interface device family status =>
      s.running = true ∧ s.cache.Missed (stateSum md5) (buildPolicies c policies)
        (stateChanges c ⟨action, interface, device, family, false⟩ status)
  | _ => False

end Machine

section Runs

variable {δ : Type*} [DecidableEq δ] {c : IfaceConfig} {policies : List Policy} {md5 : List String → δ}

theorem buildPolicies_absorbs (first second : StateFiles) (tables : Family → Table) :
    buildPolicies c policies second (buildPolicies c policies first tables) = buildPolicies c policies second tables :=
  setPoliciesIptables_absorbs _ _ policies tables

omit [DecidableEq δ] in
theorem start_follows (up : String → Family → Option Uplink) (s : PolicyState δ) :
    (s.start c policies up).Follows c policies :=
  fun _ => DigestCache.rebuild_current buildPolicies_absorbs

/-- One event keeps the policies with the states unless it misses a change. -/
theorem runPolicyEvent_follows_iff (injective : Function.Injective md5) {s : PolicyState δ}
    (follows : s.Follows c policies) (event : PolicyEvent) :
    (runPolicyEvent c policies md5 s event).Follows c policies ↔ ¬ s.Misses c policies md5 event := by
  cases event with
  | start up => exact iff_of_true (start_follows up s) id
  | stop => exact iff_of_true (fun running => by cases running) id
  | restart up => exact iff_of_true (start_follows up _) id
  | hotplug action interface device family status =>
      have sums : Function.Injective (stateSum md5) := injective.comp stateLines_injective
      unfold runPolicyEvent
      by_cases running : s.running = true
      · simp only [running, if_true]
        have exactly := @DigestCache.touchAll_current_iff _ _ _ _ _ _
          (stateChanges c ⟨action, interface, device, family, false⟩ status) s.cache sums buildPolicies_absorbs
          (follows running)
        have misses : s.Misses c policies md5 (.hotplug action interface device family status) ↔
            s.cache.Missed (stateSum md5) (buildPolicies c policies)
              (stateChanges c ⟨action, interface, device, family, false⟩ status) := and_iff_right running
        rw [misses, ← exactly]
        exact ⟨fun now => now rfl, fun current _ => current⟩
      · have idle : ¬ s.Misses c policies md5 (.hotplug action interface device family status) :=
          fun both => running both.1
        simp only [if_neg running]
        exact iff_of_true follows idle

/-- In every history the policies follow the states after each event exactly if no event misses a
change. -/
theorem policies_follow_iff (c : IfaceConfig) (policies : List Policy) (md5 : List String → δ)
    (injective : Function.Injective md5) (events : List PolicyEvent) :
    (∀ e ∈ (policySystem c policies md5).trace stopped events, e.after.Follows c policies) ↔
      (policySystem c policies md5).AllSteps (fun s event => ¬ s.Misses c policies md5 event) stopped events := by
  have start : (stopped : PolicyState δ).Follows c policies := fun running => by cases running
  generalize (stopped : PolicyState δ) = s at start
  induction events generalizing s with
  | nil => simp
  | cons event events ih =>
      rw [Transducer.trace_cons, List.forall_mem_cons, Transducer.allSteps_cons]
      have here := runPolicyEvent_follows_iff injective start event
      constructor
      · rintro ⟨now, later⟩
        exact ⟨here.mp now, (ih _ now).mp later⟩
      · rintro ⟨now, later⟩
        exact ⟨here.mpr now, (ih _ (here.mpr now)).mpr later⟩

/-- The recorded sum is that of the files, or there is none. -/
def PolicyState.Recorded (md5 : List String → δ) (s : PolicyState δ) : Prop :=
  ∀ sum ∈ s.cache.sum, sum = stateSum md5 s.cache.source

/-- A start in a running system writes what the files hold, or comes before the first sum. -/
def PolicyState.StartsQuietly (c : IfaceConfig) (s : PolicyState δ) : PolicyEvent → Prop
  | .start up => s.cache.sum = none ∨ DigestCache.changed (startupChanges c up) s.cache.source = s.cache.source
  | _ => True

theorem touchAll_sum {cache : DigestCache StateFiles δ (Family → Table)}
    (recorded : ∀ sum ∈ cache.sum, sum = stateSum md5 cache.source) (changes : List (StateFiles → StateFiles)) :
    let after := cache.touchAll (stateSum md5) (buildPolicies c policies) changes
    ∀ sum ∈ after.sum, sum = stateSum md5 after.source := by
  induction changes generalizing cache with
  | nil => exact recorded
  | cons change rest ih =>
      refine ih ?_
      unfold DigestCache.touch
      simp only
      split
      · rename_i same
        rw [same]
        exact fun sum own => (Option.some.inj own).symm
      · exact fun sum own => (Option.some.inj own).symm

omit [DecidableEq δ] in
/-- Where the sum is that of the files, an unnoticed event changes nothing. -/
theorem recorded_not_misses (injective : Function.Injective md5) {s : PolicyState δ} (recorded : s.Recorded md5)
    (event : PolicyEvent) : ¬ s.Misses c policies md5 event := by
  have back : ∀ (changes : List (StateFiles → StateFiles)) (files : StateFiles),
      (∀ sum ∈ s.cache.sum, sum = stateSum md5 files) → DigestCache.Unnoticed (stateSum md5) s.cache.sum changes files →
        DigestCache.changed changes files = files := by
    intro changes
    induction changes with
    | nil => exact fun _ _ _ => rfl
    | cons change rest ih =>
        intro files own unnoticed
        have same : change files = files :=
          injective.comp stateLines_injective (own _ unnoticed.1)
        exact (ih (change files) (by rwa [same]) unnoticed.2).trans same
  cases event with
  | start up => exact id
  | stop => exact id
  | restart up => exact id
  | hotplug action interface device family status =>
      rintro ⟨-, unnoticed, differs⟩
      exact differs (by rw [back _ _ recorded unnoticed])

theorem runPolicyEvent_recorded {s : PolicyState δ} (recorded : s.Recorded md5) {event : PolicyEvent}
    (quiet : s.StartsQuietly c event) : (runPolicyEvent c policies md5 s event).Recorded md5 := by
  have none : (∀ sum ∈ (none : Option δ), False) := fun sum own => by cases own
  cases event with
  | start up =>
      rcases quiet with absent | same
      · intro sum own
        exact absurd (absent.symm.trans own) (by simp)
      · intro sum own
        have here := recorded sum own
        rwa [← same] at here
  | stop => exact fun sum own => (none sum own).elim
  | restart up => exact fun sum own => (none sum own).elim
  | hotplug action interface device family status =>
      by_cases running : s.running = true
      · simp only [runPolicyEvent, if_pos running]
        exact touchAll_sum recorded _
      · simp only [runPolicyEvent, if_neg running]
        exact recorded

/-- Without a start that changes the states of a running system, the policies follow the states. -/
theorem policies_follow_quiet_starts (injective : Function.Injective md5) (events : List PolicyEvent)
    (quiet : (policySystem c policies md5).AllSteps (PolicyState.StartsQuietly c) stopped events) :
    (policySystem c policies md5).AllSteps (fun s event => ¬ s.Misses c policies md5 event) stopped events := by
  have start : (stopped : PolicyState δ).Recorded md5 := fun sum own => by cases own
  generalize (stopped : PolicyState δ) = s at start quiet
  induction events generalizing s with
  | nil => exact Transducer.allSteps_nil _ _ _
  | cons event events ih =>
      rw [Transducer.allSteps_cons] at quiet ⊢
      exact ⟨recorded_not_misses injective start event, ih _ (runPolicyEvent_recorded start quiet.1) quiet.2⟩

/-- One uplink with a policy of its own. -/
def wanConfig : IfaceConfig where
  sections := [⟨"wan", true, .ipv4⟩]
  maskText := "0x3F00"
  mask := 0x3F00
  noIpv6 := false
  distinct := List.nodup_singleton "wan"
  spelled := readMask_default
  bound := defaultMask_lt

theorem wanMember_small : 1000 * (([⟨"wan", 1, 1⟩] : List Member).map Member.weight).sum < 2 ^ 63 := by decide

def wanPolicies : List Policy := [⟨"balanced", .unreachable, [⟨"wan", 1, 1⟩], wanMember_small⟩]

def wanUplinks (name : String) (family : Family) : Option Uplink :=
  if name = "wan" ∧ family = .ipv4 then some ⟨"eth0", "online"⟩ else none

def wanDown : PolicyEvent := .hotplug .disconnected "wan" "" none fun _ => "online"

theorem policies_follow_wanDown :
    (runPolicyEvent wanConfig wanPolicies id
      (runPolicyEvent wanConfig wanPolicies id stopped (.start wanUplinks)) wanDown).Follows wanConfig wanPolicies := by
  refine (policies_follow_iff wanConfig wanPolicies id Function.injective_id [.start wanUplinks, wanDown]).mpr ?_
    ((policySystem wanConfig wanPolicies id).entry _ wanDown) (List.mem_cons_of_mem _ (List.mem_singleton_self _))
  refine policies_follow_quiet_starts Function.injective_id _ ?_
  rw [Transducer.allSteps_cons, Transducer.allSteps_cons]
  exact ⟨.inl rfl, trivial, Transducer.allSteps_nil _ _ _⟩

theorem wan_changes :
    startupChanges wanConfig wanUplinks = [setIfaceHotplugState "wan" "online" .ipv4] ∧
      stateChanges wanConfig ⟨.disconnected, "wan", "", none, false⟩ (fun _ => "online") =
        [setIfaceHotplugState "wan" "offline" .ipv4] := by
  have families : wanConfig.env.familyList "wan" = [.ipv4] := by decide +kernel
  have up : handledFamilies wanConfig ⟨.ifup, "wan", "eth0", some .ipv4, true⟩ = some ("wan", [.ipv4]) := by decide +kernel
  have down : handledFamilies wanConfig ⟨.disconnected, "wan", "", none, false⟩ = some ("wan", [.ipv4]) := by decide +kernel
  have sections : wanConfig.sections = [⟨"wan", true, .ipv4⟩] := rfl
  constructor
  · simp [startupChanges, sections, families, wanUplinks, stateChanges, up, IfaceAction.isUp, binaryStatus]
  · simp [stateChanges, down, IfaceAction.isUp]

/-- The files after the first time down. -/
def wanDownFiles : StateFiles := setIfaceHotplugState "wan" "offline" .ipv4 (setIfaceHotplugState "wan" "online" .ipv4 ∅)

/-- The state after the second start. -/
def wanAgain : PolicyState (List String) :=
  (policySystem wanConfig wanPolicies id).final stopped [.start wanUplinks, wanDown, .start wanUplinks]

theorem wanAgain_sum : wanAgain.cache.sum = some (stateSum id wanDownFiles) ∧
    wanAgain.cache.source = setIfaceHotplugState "wan" "online" .ipv4 wanDownFiles := by
  simp only [wanAgain, Transducer.final_cons, Transducer.final_nil, policySystem, runPolicyEvent, PolicyState.start,
    stopped, wanDown, DigestCache.rebuild, if_true, wan_changes.1, wan_changes.2, DigestCache.touchAll,
    List.foldl_cons, List.foldl_nil, DigestCache.touch, DigestCache.changed, reduceCtorEq, if_false]
  exact ⟨rfl, rfl⟩

/-- Down, a start that finds the uplink up, and down again: the second time is not noticed. -/
theorem policies_behind_second_start :
    ¬ ∀ e ∈ (policySystem wanConfig wanPolicies id).trace stopped [.start wanUplinks, wanDown, .start wanUplinks, wanDown],
      e.after.Follows wanConfig wanPolicies := by
  intro every
  have last : (runPolicyEvent wanConfig wanPolicies id wanAgain wanDown).Follows wanConfig wanPolicies :=
    every ((policySystem wanConfig wanPolicies id).entry wanAgain wanDown) (by simp [wanAgain])
  have before : wanAgain.Follows wanConfig wanPolicies :=
    start_follows wanUplinks ((policySystem wanConfig wanPolicies id).final stopped [.start wanUplinks, wanDown])
  refine (runPolicyEvent_follows_iff Function.injective_id before wanDown).mp last ?_
  obtain ⟨sum, source⟩ := wanAgain_sum
  have changes := wan_changes.2
  have back : setIfaceHotplugState "wan" "offline" .ipv4 wanAgain.cache.source = wanDownFiles := by
    rw [source]
    simp [setIfaceHotplugState, wanDownFiles, Finmap.insert_insert]
  refine ⟨rfl, ?_, fun same => ?_⟩
  · rw [changes]
    exact ⟨by rw [sum, back], trivial⟩
  · rw [changes] at same
    simp only [DigestCache.changed, List.foldl_cons, List.foldl_nil, back] at same
    have needed : wanConfig.need .ipv4 = true := by decide +kernel
    have chain := fun files => @setPoliciesIptables_chain (wanConfig.envWith files) wanPolicies
      ⟨"balanced", .unreachable, [⟨"wan", 1, 1⟩], by decide⟩ .ipv4 needed (by decide) (List.mem_singleton_self _) (by decide)
      wanAgain.cache.built
    have rules := congrFun (congrFun same .ipv4) (policyChain "balanced")
    rw [buildPolicies, buildPolicies, source, chain, chain] at rules
    revert rules
    decide +kernel

end Runs

end XWrt.Mwan3
