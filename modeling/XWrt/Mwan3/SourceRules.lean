import XWrt.Mwan3.MarkedRules

/-!
# Rules of a source interface

`mwan3_set_user_rules` with all matches of its rules, and
`mwan3_set_user_iface_rules`, which sets the rules again when an interface comes
up, unless the listing of the first of its families already shows the device
behind some rule of `mwan3_rules`.
-/

namespace XWrt.Mwan3

open XWrt.Foundation

/-! ## The lines of the rules -/

/-- A rule section with its matches; an empty text is a missing option. -/
structure RuleSection extends UserRule where
  proto : String
  srcIp : String
  srcPort : String
  destIp : String
  destPort : String
  ipset : String
  deriving DecidableEq, Repr

/-- A line of `mwan3_rules`; `target` are the words after `-j`. -/
structure RuleLine where
  proto : String
  srcIp : Option String
  device : Option String
  destIp : Option String
  ipset : Option String
  srcPort : Option String
  destPort : Option String
  mask : String
  comment : Option String
  target : List String
  deriving DecidableEq, Repr

/-- Words that stand only where the option has a value. -/
def optional (words : List String) (value : Option String) : List String :=
  match value with
  | some value => words ++ [value]
  | none => []

/-- The line as it is pushed. -/
def RuleLine.words (line : RuleLine) : List String :=
  ["-A", "mwan3_rules", "-p", line.proto] ++ optional ["-s"] line.srcIp ++ optional ["-i"] line.device ++
    optional ["-d"] line.destIp ++
    (match line.ipset with
      | some ipset => ["-m", "set", "--match-set", ipset, "dst"]
      | none => []) ++
    optional ["-m", "multiport", "--sports"] line.srcPort ++
    optional ["-m", "multiport", "--dports"] line.destPort ++
    ["-m", "mark", "--mark", "0/" ++ line.mask] ++
    optional ["-m", "comment", "--comment"] line.comment ++ ["-j"] ++ line.target

/-- The configuration as the rule functions read it. -/
structure SourceConfig where
  env : Env
  /-- `$MMX_MASK` -/
  mask : String
  loglevel : String
  rules : List RuleSection

/-- `network_get_device` -/
abbrev Devices := String → Option String

section Lines

variable (c : SourceConfig) (devices : Devices)

def nonempty (text : String) : Option String := if text = "" then none else some text

/-- The words for `$policy`. -/
def RuleSection.target (rule : RuleSection) : List String :=
  if rule.usePolicy = "default" then
    ["MARK", "--set-xmark", printHex (id2mask (mmDefault c.env.mask) c.env.mask) ++ "/" ++ c.mask]
  else if rule.usePolicy = "unreachable" then
    ["MARK", "--set-xmark", printHex (id2mask (mmUnreachable c.env.mask) c.env.mask) ++ "/" ++ c.mask]
  else if rule.usePolicy = "blackhole" then
    ["MARK", "--set-xmark", printHex (id2mask (mmBlackhole c.env.mask) c.env.mask) ++ "/" ++ c.mask]
  else if rule.sticky then [rule.chain]
  else [policyChain rule.usePolicy]

/-- The matches of a rule, with `-j target`. -/
def RuleSection.line (rule : RuleSection) (comment : Option String) (target : List String) : RuleLine where
  proto := rule.proto
  srcIp := nonempty rule.srcIp
  device := rule.srcIface.bind devices
  destIp := nonempty rule.destIp
  ipset := nonempty rule.ipset
  srcPort := if rule.proto = "tcp" ∨ rule.proto = "udp" then nonempty rule.srcPort else none
  destPort := if rule.proto = "tcp" ∨ rule.proto = "udp" then nonempty rule.destPort else none
  mask := c.mask
  comment := comment
  target := target

/-- The lines of `mwan3_rules` that `mwan3_set_user_iptables_rule` pushes for a rule. -/
def RuleSection.lines (ipv : Family) (rule : RuleSection) : List RuleLine :=
  if rule.written (fun name => (devices name).isSome) ipv then
    (if rule.logging then
      [rule.line c devices (some rule.name)
        ["LOG", "--log-level", c.loglevel, "--log-prefix", "MWAN3(" ++ rule.name ++ ")"]]
    else []) ++ [rule.line c devices none (rule.target c)]
  else []

end Lines

/-! ## The chains -/

/-- The chain `mwan3_rules` of each family. -/
abbrev SourceRules := Family → List RuleLine

section Functions

variable (c : SourceConfig) (devices : Devices) (accepts : Family → List String → Bool)
  (listing : SourceRules → Family → String)

/-- An update of a flushed chain: as a whole where every line is accepted, else line by line without
those that are not. -/
def restoreLines (ipv : Family) (lines : List RuleLine) : List RuleLine :=
  if lines.all fun line => accepts ipv line.words then lines
  else lines.foldl (fun chain line => if accepts ipv line.words then chain ++ [line] else chain) []

/-- `mwan3_set_user_rules` -/
def setUserRuleLines (chains : SourceRules) : SourceRules := fun ipv =>
  if c.env.need ipv then restoreLines accepts ipv (c.rules.flatMap (RuleSection.lines c devices ipv)) else chains ipv

/-- The pattern `*first*second*`. -/
def containsBehind (first second text : List Char) : Bool :=
  text.tails.any fun rest => first.isPrefixOf rest && (rest.drop first.length).tails.any second.isPrefixOf

/-- `[ -z "${current##*-A mwan3_rules*-i $device*}" ]` -/
def showsDevice (device current : String) : Bool :=
  current = "" || containsBehind "-A mwan3_rules".toList ("-i " ++ device).toList current.toList

/-- The loop over `$family_list`. -/
def setUserIfaceFamilies (iface device : String) : List Family → SourceRules → SourceRules
  | [], chains => chains
  | family :: rest, chains =>
      if showsDevice device (listing chains family) then chains
      else
        setUserIfaceFamilies iface device rest
          (if c.rules.any fun rule => rule.srcIface = some iface then setUserRuleLines c devices accepts chains
          else chains)

/-- `mwan3_set_user_iface_rules` -/
def setUserIfaceRules (iface device : String) (chains : SourceRules) : SourceRules :=
  if device = "" then chains
  else setUserIfaceFamilies c devices accepts listing iface device (c.env.familyList iface) chains

/-- Every line that `mwan3_set_user_rules` would install for the interface stands in the chain of its
family, behind `-i device`. -/
def SourceInstalled (iface device : String) (chains : SourceRules) : Prop :=
  ∀ ipv, c.env.need ipv = true → ∀ rule ∈ c.rules, rule.srcIface = some iface →
    ∀ line ∈ rule.lines c devices ipv, accepts ipv line.words = true →
      line ∈ chains ipv ∧ ["-i", device] <:+: line.words

/-- The first family of the interface has a listing that does not show the device. -/
def FirstUnseen (iface device : String) (chains : SourceRules) : Prop :=
  ∃ family rest, c.env.familyList iface = family :: rest ∧ showsDevice device (listing chains family) = false

end Functions

section Installed

variable {c : SourceConfig} {devices : Devices} {accepts : Family → List String → Bool}
  {listing : SourceRules → Family → String} {iface device : String} {chains : SourceRules}

theorem restoreLines_eq (accepts : Family → List String → Bool) (ipv : Family) (lines : List RuleLine) :
    restoreLines accepts ipv lines = lines.filter fun line => accepts ipv line.words := by
  have each : ∀ lines : List RuleLine,
      lines.foldl (fun chain line => if accepts ipv line.words then chain ++ [line] else chain) [] =
        lines.filter fun line => accepts ipv line.words := by
    intro lines
    induction lines using List.reverseRecOn with
    | nil => rfl
    | append_singleton lines line ih =>
        rw [List.foldl_append, ih, List.filter_append, List.filter_singleton, List.foldl_cons, List.foldl_nil]
        cases accepts ipv line.words with
        | true => rfl
        | false => exact (List.append_nil _).symm
  unfold restoreLines
  split
  · rename_i every
    exact (List.filter_eq_self.mpr (List.all_eq_true.mp every)).symm
  · exact each lines

theorem lines_device (ipv : Family) {rule : RuleSection} (source : rule.srcIface = some iface)
    (reported : devices iface = some device) {line : RuleLine} (member : line ∈ rule.lines c devices ipv) :
    line.device = some device := by
  have own : ∀ comment target, (rule.line c devices comment target).device = some device := by
    intro comment target
    simp [RuleSection.line, source, reported]
  unfold RuleSection.lines at member
  split at member
  · rcases List.mem_append.mp member with log | last
    · split at log
      · obtain rfl := List.mem_singleton.mp log
        exact own _ _
      · cases log
    · obtain rfl := List.mem_singleton.mp last
      exact own _ _
  · cases member

/-- A line with a device matches it. -/
theorem words_device {line : RuleLine} (own : line.device = some device) : ["-i", device] <:+: line.words := by
  refine ⟨["-A", "mwan3_rules", "-p", line.proto] ++ optional ["-s"] line.srcIp, ?_⟩
  unfold RuleLine.words
  rw [own]
  simp only [optional, List.append_assoc]
  exact ⟨_, rfl⟩

theorem setUserRuleLines_installed (reported : devices iface = some device) :
    SourceInstalled c devices accepts iface device (setUserRuleLines c devices accepts chains) := by
  intro ipv needed rule listed source line member accepted
  refine ⟨?_, words_device (lines_device ipv source reported member)⟩
  rw [setUserRuleLines, if_pos needed, restoreLines_eq]
  exact List.mem_filter.mpr ⟨List.mem_flatMap.mpr ⟨rule, listed, member⟩, accepted⟩

/-- Without a rule for the interface there is nothing to install. -/
theorem installed_of_not_any (none : (c.rules.any fun rule => rule.srcIface = some iface) = false) :
    SourceInstalled c devices accepts iface device chains := by
  intro ipv needed rule listed source
  have every := List.any_eq_false.mp none rule listed
  exact absurd (decide_eq_true source) every

/-- Later families leave what is installed. -/
theorem setUserIfaceFamilies_installed (reported : devices iface = some device) (families : List Family)
    (installed : SourceInstalled c devices accepts iface device chains) :
    SourceInstalled c devices accepts iface device
      (setUserIfaceFamilies c devices accepts listing iface device families chains) := by
  induction families generalizing chains with
  | nil => exact installed
  | cons family rest ih =>
      rw [setUserIfaceFamilies]
      split
      · exact installed
      · refine ih ?_
        split
        · exact setUserRuleLines_installed reported
        · exact installed

/-- The rules of an interface that comes up are installed exactly if the listing of its first family
does not show the device, or if they were there before. -/
theorem setUserIfaceRules_iff (c : SourceConfig) (devices : Devices) (accepts : Family → List String → Bool)
    (listing : SourceRules → Family → String) (iface device : String) (chains : SourceRules)
    (reported : devices iface = some device) (named : device ≠ "") :
    SourceInstalled c devices accepts iface device
        (setUserIfaceRules c devices accepts listing iface device chains) ↔
      FirstUnseen c listing iface device chains ∨ SourceInstalled c devices accepts iface device chains := by
  unfold setUserIfaceRules FirstUnseen
  rw [if_neg named]
  cases c.env.familyList iface with
  | nil => simp [setUserIfaceFamilies]
  | cons family rest =>
      rw [setUserIfaceFamilies]
      cases shown : showsDevice device (listing chains family) with
      | true =>
          have seen : ¬ ∃ first others, family :: rest = first :: others ∧
              showsDevice device (listing chains first) = false := by
            rintro ⟨_, _, same, unseen⟩
            obtain ⟨rfl, rfl⟩ := List.cons.inj same
            rw [shown] at unseen
            cases unseen
          rw [if_pos rfl, or_iff_right seen]
      | false =>
          refine iff_of_true ?_ (.inl ⟨family, rest, rfl, shown⟩)
          rw [if_neg Bool.false_ne_true]
          cases some : c.rules.any fun rule => rule.srcIface = some iface with
          | true =>
              rw [if_pos rfl]
              exact setUserIfaceFamilies_installed reported rest (setUserRuleLines_installed reported)
          | false => exact setUserIfaceFamilies_installed reported rest (installed_of_not_any some)

def guestRule : RuleSection :=
  ⟨⟨"guest_web", "balanced", false, some "guest", .any, false⟩, "all", "", "", "", "", ""⟩

/-- A guest network on `eth0` and a LAN on the tagged `eth0.2`, each with a rule. -/
def taggedLan : SourceConfig where
  env := twoWans
  mask := "0x3f00"
  loglevel := "notice"
  rules := [⟨⟨"lan_web", "balanced", false, some "lan", .any, false⟩, "all", "", "", "", "", ""⟩,
    guestRule]

/-- The devices before and after the guest network comes up. -/
def lanDevices : Devices := fun name => if name = "lan" then some "eth0.2" else none

def bothDevices : Devices := fun name => if name = "guest" then some "eth0" else lanDevices name

/-- A line without other matches in the listing. -/
def shownLine (line : RuleLine) : String :=
  " ".intercalate (["-A", "mwan3_rules"] ++ optional ["-i"] line.device ++
    ["-m", "mark", "--mark", "0x0/" ++ line.mask, "-j"] ++ line.target)

def shownRules (chains : SourceRules) (ipv : Family) : String :=
  "\n".intercalate ("-P PREROUTING ACCEPT" :: "-N mwan3_rules" :: (chains ipv).map shownLine)

theorem setUserIfaceRules_guest_first :
    SourceInstalled taggedLan bothDevices (fun _ _ => true) "guest" "eth0"
      (setUserIfaceRules taggedLan bothDevices (fun _ _ => true) shownRules "guest" "eth0" fun _ => []) :=
  (setUserIfaceRules_iff taggedLan bothDevices (fun _ _ => true) shownRules "guest" "eth0" (fun _ => []) rfl
    (by decide)).mpr (.inl ⟨.ipv4, [.ipv6], by decide +kernel, by decide +kernel⟩)

/-- The rules of the LAN pass for those of the guest network. -/
theorem setUserIfaceRules_misses_guest :
    bothDevices "guest" = some "eth0" ∧
      ¬ SourceInstalled taggedLan bothDevices (fun _ _ => true) "guest" "eth0"
        (setUserIfaceRules taggedLan bothDevices (fun _ _ => true) shownRules "guest" "eth0"
          (setUserRuleLines taggedLan lanDevices (fun _ _ => true) fun _ => [])) := by
  refine ⟨rfl, fun installed => ?_⟩
  have unseen : ∀ line ∈ setUserIfaceRules taggedLan bothDevices (fun _ _ => true) shownRules "guest" "eth0"
      (setUserRuleLines taggedLan lanDevices (fun _ _ => true) fun _ => []) .ipv4, ¬ ["-i", "eth0"] <:+: line.words := by
    decide +kernel
  have some : guestRule.lines taggedLan bothDevices .ipv4 ≠ [] := by decide +kernel
  obtain ⟨line, own⟩ := List.exists_mem_of_ne_nil _ some
  obtain ⟨present, device⟩ := installed .ipv4 rfl guestRule (by simp [taggedLan]) rfl line own rfl
  exact unseen line present device

end Installed

end XWrt.Mwan3
