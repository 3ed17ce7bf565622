import XWrt.Foundation.Shell
import XWrt.Mwan3.Marks

/-!
# Marks of natcap servers

`_setup_natcap_rules` of `natcapd.sh`. A rule's target is looked for among the
server lines of the control device, and the number of the line is spread over
the set bits of `si_mask`. Nothing checks that the number fits: its bits beyond
the mask are lost, so it counts modulo two to the number of set bits.
-/

namespace XWrt.Natcap

open Foundation
open Foundation.Shell

/-! ## The script -/

/-- `natcap_id2mask`: line by line the loop of `mwan3_id2mask` -/
def natcapId2mask (id mask : Nat) : Nat := Mwan3.id2mask id mask

/-- `server 0 `, with which the lines of the servers start -/
def serverStart : List Char := "server 0 ".toList

/-- The loop of `natcap_target2idx`, after `idx` server lines. -/
def target2idxFrom (target : List Char) : Nat → List (List Char) → Nat
  | _, [] => 0
  | idx, line :: device =>
      if serverStart <+: line then
        if line = target then idx + 1 else target2idxFrom target (idx + 1) device
      else target2idxFrom target idx device

/-- `natcap_target2idx`, for the line that it looks for -/
def natcapTarget2idx (device : List (List Char)) (target : List Char) : Nat := target2idxFrom target 0 device

/-- The rest of `\([0-9]\{1,3\}\)\.\([0-9]\{1,3\}\)\.\([0-9]\{1,3\}\)\.\([0-9]\{1,3\}\)` with so many dots, at the start of a text -/
def quadAt : Nat → List Char → Bool
  | 0, text => (text.takeWhile Char.isDigit).length ≥ 1
  | dots + 1, text =>
      let run := (text.takeWhile Char.isDigit).length
      1 ≤ run && run ≤ 3 && (text.drop run).head? == some '.' && quadAt dots (text.drop (run + 1))

/-- `echo $src | grep -q` -/
def isAddress (src : List Char) : Bool := src.tails.any (quadAt 3)

/-- A section `ruleset` or `rule`, with what `$(uci get …)` gives for the options that it has. -/
structure RuleSection where
  dst : Option (List Char)
  src : Option (List Char)
  target : Option (List Char)
  deriving DecidableEq, Repr

/-- Whom a rule is for: `-s`, or `--mac-source`. -/
inductive Client where
  | address (src : List Char)
  | mac (src : List Char)
  deriving DecidableEq, Repr

/-- `iptables -t mangle -A PREROUTING … -j MARK --set-xmark` -/
structure MarkRule where
  client : Client
  /-- `--match-set` -/
  set : Option (List Char)
  mark : Nat
  mask : Nat
  deriving DecidableEq, Repr

/-- What the script does for a section. -/
inductive RuleCommand where
  /-- `ipset -n list`, and `ipset create` where there is no such set -/
  | ensureSet (name : List Char)
  | append (rule : MarkRule)
  deriving DecidableEq, Repr

section Setup

-- `escapes` is what `awk` does with backslashes in the value of `-v`.
variable (escapes : List Char → List Char) (device : List (List Char)) (mask : Nat)

namespace RuleSection

/-- `$target`, with the default for what is behind the address -/
def fullTarget (s : RuleSection) : List Char :=
  let target := s.target.getD []
  if ':' ∈ target then target else target ++ ":65535-e-T-U".toList

/-- The server line that a section is about. -/
def serverLine (s : RuleSection) : List Char := serverStart ++ escapes (firstField s.fullTarget)

/-- `idx=$(natcap_target2idx $target)` -/
def idx (s : RuleSection) : Nat := natcapTarget2idx device (s.serverLine escapes)

def client (s : RuleSection) : Client :=
  let src := s.src.getD []
  if isAddress src then .address src else .mac src

/-- The rule of a section, unless its server is not there. -/
def rule (s : RuleSection) : Option MarkRule :=
  if s.idx escapes device ≠ 0 then some ⟨s.client, s.dst, natcapId2mask (s.idx escapes device) mask, mask⟩ else none

/-- The body of the two loops; a section `rule` has no set. -/
def commands (s : RuleSection) : List RuleCommand :=
  match s.rule escapes device mask with
  | none => []
  | some rule => (s.dst.toList.map .ensureSet) ++ [.append rule]

end RuleSection

/-- `si_mask` -/
def siMask (option : Option Nat) : Nat := option.getD 0xff000000

/-- The sections that the loops come to: up to the first without `dst`, and to the first without `src`. -/
def reached (rulesets rules : List RuleSection) : List RuleSection :=
  rulesets.takeWhile (·.dst.isSome) ++ (rules.takeWhile (·.src.isSome)).map ({ · with dst := none })

/-- `_setup_natcap_rules` -/
def setupNatcapRules (option : Option Nat) (rulesets rules : List RuleSection) : List RuleCommand :=
  if siMask option = 0 then []
  else (reached rulesets rules).flatMap (RuleSection.commands escapes device (siMask option))

end Setup

/-! ## The number of a server -/

/-- The server lines of the control device. -/
def servers (device : List (List Char)) : List (List Char) := device.filter (serverStart <+: ·)

theorem target2idxFrom_eq (target : List Char) (idx : Nat) (device : List (List Char)) :
    target2idxFrom target idx device = if target ∈ servers device then idx + (servers device).idxOf target + 1 else 0 := by
  induction device generalizing idx with
  | nil => rfl
  | cons line device ih =>
      rw [target2idxFrom]
      by_cases server : serverStart <+: line
      · have first : servers (line :: device) = line :: servers device := List.filter_cons_of_pos (decide_eq_true server)
        rw [if_pos server, first]
        by_cases same : line = target
        · rw [if_pos same, same, if_pos List.mem_cons_self, List.idxOf_cons_self, Nat.add_zero]
        · have later : target ∈ line :: servers device ↔ target ∈ servers device := by
            rw [List.mem_cons, or_iff_right (Ne.symm same)]
          rw [if_neg same, ih, List.idxOf_cons_ne _ same, if_congr later rfl rfl]
          refine if_congr Iff.rfl ?_ rfl
          omega
      · have other : servers (line :: device) = servers device :=
          List.filter_cons_of_neg fun starts => server (of_decide_eq_true starts)
        rw [if_neg server, other, ih]

/-- The number of a line is that of its first occurrence among the server lines. -/
theorem natcapTarget2idx_eq (device : List (List Char)) (target : List Char) :
    natcapTarget2idx device target = if target ∈ servers device then (servers device).idxOf target + 1 else 0 := by
  rw [natcapTarget2idx, target2idxFrom_eq, Nat.zero_add]

theorem mem_of_natcapTarget2idx {device : List (List Char)} {target : List Char} (found : natcapTarget2idx device target ≠ 0) :
    target ∈ servers device := by
  by_contra missing
  rw [natcapTarget2idx_eq, if_neg missing] at found
  exact found rfl

theorem natcapTarget2idx_le (device : List (List Char)) (target : List Char) :
    natcapTarget2idx device target ≤ (servers device).length := by
  rw [natcapTarget2idx_eq]
  split
  next found => exact List.idxOf_lt_length_of_mem found
  next => exact Nat.zero_le _

theorem natcapTarget2idx_inj {device : List (List Char)} {first second : List Char} (found : natcapTarget2idx device first ≠ 0) :
    natcapTarget2idx device first = natcapTarget2idx device second ↔ first = second := by
  constructor
  · intro same
    have here := mem_of_natcapTarget2idx found
    have there := mem_of_natcapTarget2idx (same ▸ found)
    rw [natcapTarget2idx_eq, natcapTarget2idx_eq, if_pos here, if_pos there] at same
    exact (List.idxOf_inj here).mp (Nat.succ.inj same)
  · rintro rfl
    rfl

/-! ## The marks -/

section Marks

variable (escapes : List Char → List Char) (device : List (List Char)) (option : Option Nat) (rulesets rules : List RuleSection)

/-- The script writes this rule for this section. -/
def Written (s : RuleSection) (rule : MarkRule) : Prop :=
  s ∈ reached rulesets rules ∧ s.rule escapes device (siMask option) = some rule

/-- Two to the number of bits of the mask: so many marks there are. -/
def room : Nat := 2 ^ Mwan3.countOneBits (siMask option)

/-- Every mark is a mark within the mask, and a mark is that of one server line. -/
structure UsableMarks : Prop where
  inside : ∀ rule, .append rule ∈ setupNatcapRules escapes device option rulesets rules →
    rule.mark ≠ 0 ∧ rule.mark &&& siMask option = rule.mark
  distinct : ∀ s t first second, Written escapes device option rulesets rules s first →
    Written escapes device option rulesets rules t second →
    (first.mark = second.mark ↔ s.serverLine escapes = t.serverLine escapes)

/-- No server of a rule stands at a multiple of the room that the mask has, and no two at positions that differ by one. -/
structure ServersFit : Prop where
  positive : ∀ s ∈ reached rulesets rules, s.idx escapes device ≠ 0 → ¬room option ∣ s.idx escapes device
  apart : ∀ s ∈ reached rulesets rules, ∀ t ∈ reached rulesets rules, s.idx escapes device ≠ 0 → t.idx escapes device ≠ 0 →
    s.idx escapes device ≡ t.idx escapes device [MOD room option] → s.idx escapes device = t.idx escapes device

variable {escapes device option rulesets rules}

theorem rule_eq_some {mask : Nat} {s : RuleSection} {rule : MarkRule} :
    s.rule escapes device mask = some rule ↔
      s.idx escapes device ≠ 0 ∧ rule = ⟨s.client, s.dst, natcapId2mask (s.idx escapes device) mask, mask⟩ := by
  rw [RuleSection.rule, Option.ite_none_right_eq_some, Option.some.injEq, eq_comm (a := rule)]

/-- The rules in the tables are those written for the sections. -/
theorem append_mem_iff (nonzero : siMask option ≠ 0) (rule : MarkRule) :
    .append rule ∈ setupNatcapRules escapes device option rulesets rules ↔
      ∃ s, Written escapes device option rulesets rules s rule := by
  rw [setupNatcapRules, if_neg nonzero, List.mem_flatMap]
  refine exists_congr fun s => and_congr_right fun _ => ?_
  rw [RuleSection.commands]
  cases s.rule escapes device (siMask option) with
  | none => simp
  | some written => simp [eq_comm]

theorem written_mark {s : RuleSection} {rule : MarkRule} (written : Written escapes device option rulesets rules s rule) :
    s.idx escapes device ≠ 0 ∧ rule.mark = Mwan3.id2mask (s.idx escapes device) (siMask option) := by
  obtain ⟨found, rfl⟩ := rule_eq_some.mp written.2
  exact ⟨found, rfl⟩

variable (option) in
theorem exists_written {s : RuleSection} (here : s ∈ reached rulesets rules) (found : s.idx escapes device ≠ 0) :
    ∃ rule, Written escapes device option rulesets rules s rule ∧
      rule.mark = Mwan3.id2mask (s.idx escapes device) (siMask option) :=
  ⟨_, ⟨here, rule_eq_some.mpr ⟨found, rfl⟩⟩, rfl⟩

theorem idx_eq_iff {s t : RuleSection} (found : s.idx escapes device ≠ 0) :
    s.idx escapes device = t.idx escapes device ↔ s.serverLine escapes = t.serverLine escapes :=
  natcapTarget2idx_inj found

section Bounded

variable (bound : siMask option < 2 ^ 32)
include bound

theorem id2mask_eq_zero_iff (id : Nat) : Mwan3.id2mask id (siMask option) = 0 ↔ room option ∣ id := by
  have zero : Mwan3.id2mask ((0 : Nat) : Int) (siMask option) = 0 := Mwan3.id2mask_zero _
  rw [← zero, Mwan3.id2mask_eq_iff bound, Nat.modEq_zero_iff_dvd, room]

omit bound in
/-- A server list that is shorter than the room of the mask fits. -/
theorem serversFit_of_short (short : (servers device).length < room option) :
    ServersFit escapes device option rulesets rules := by
  have below : ∀ s : RuleSection, s.idx escapes device < room option := fun s =>
    (natcapTarget2idx_le device _).trans_lt short
  constructor
  · intro s _ found divides
    exact absurd (Nat.le_of_dvd (Nat.pos_of_ne_zero found) divides) (Nat.not_le.mpr (below s))
  · intro s _ t _ _ _ same
    exact same.eq_of_lt_of_lt (below s) (below t)

/-- The marks are usable and distinct exactly when the servers of the rules fit. -/
theorem setupNatcapRules_marks_iff (nonzero : siMask option ≠ 0) :
    UsableMarks escapes device option rulesets rules ↔ ServersFit escapes device option rulesets rules := by
  constructor
  · intro usable
    constructor
    · intro s here found divides
      obtain ⟨rule, written, mark⟩ := exists_written option here found
      have inside := usable.inside rule ((append_mem_iff nonzero rule).mpr ⟨s, written⟩)
      exact inside.1 (mark.trans ((id2mask_eq_zero_iff bound _).mpr divides))
    · intro s here t there found found' same
      obtain ⟨first, written, mark⟩ := exists_written option here found
      obtain ⟨second, written', mark'⟩ := exists_written option there found'
      have marks : first.mark = second.mark := by
        rw [mark, mark']
        exact (Mwan3.id2mask_eq_iff bound _ _).mpr same
      exact (idx_eq_iff found).mpr ((usable.distinct s t first second written written').mp marks)
  · intro fit
    constructor
    · intro rule added
      obtain ⟨s, written⟩ := (append_mem_iff nonzero rule).mp added
      obtain ⟨found, mark⟩ := written_mark written
      rw [mark]
      exact ⟨fun zero => fit.positive s written.1 found ((id2mask_eq_zero_iff bound _).mp zero), Mwan3.id2mask_inside _ _⟩
    · intro s t first second written written'
      obtain ⟨found, mark⟩ := written_mark written
      obtain ⟨found', mark'⟩ := written_mark written'
      rw [mark, mark', Mwan3.id2mask_eq_iff bound, ← idx_eq_iff found]
      exact ⟨fit.apart s written.1 t written'.1 found found', fun same => by rw [same]⟩

end Bounded

/-- Two servers behind a mask of one bit. -/
def twoServers : List (List Char) := ["server 0 10.0.0.1:65535-e-T-U".toList, "server 0 10.0.0.2:65535-e-T-U".toList]

def ruleFor (src target : String) : RuleSection := ⟨none, some src.toList, some target.toList⟩

theorem setupNatcapRules_marks_default :
    UsableMarks id twoServers none [] [ruleFor "192.168.1.2" "10.0.0.2", ruleFor "192.168.1.3" "10.0.0.1", ruleFor "192.168.1.4" "10.0.0.2"] :=
  (setupNatcapRules_marks_iff (by decide) (by decide)).mpr (serversFit_of_short (by decide +kernel))

/-- The number of the second server has its only bit where the mask has none. -/
theorem narrowMask_no_mark : ¬UsableMarks id twoServers (some 1) [] [ruleFor "192.168.1.2" "10.0.0.2"] := by
  intro usable
  have written : RuleCommand.append ⟨.address "192.168.1.2".toList, none, 0, 1⟩ ∈
      setupNatcapRules id twoServers (some 1) [] [ruleFor "192.168.1.2" "10.0.0.2"] := by decide +kernel
  exact (usable.inside _ written).1 rfl

end Marks

end XWrt.Natcap
