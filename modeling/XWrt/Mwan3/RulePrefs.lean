import XWrt.Mwan3.StartStop

/-!
# The preferences of the ip rules

The preferences that `mwan3_set_general_rules` and `mwan3_create_iface_rules`
use, next to those that `stop_locked` finds by the pattern `[1-3][0-9]{3}`. The
two rules of the last resorts lie above all others, at a distance that grows
with the number of bits of the mask.
-/

namespace XWrt.Mwan3

open XWrt.Foundation

/-! ## The pattern -/

/-- `[1-3][0-9]{3}` as a whole text -/
def stopPattern : List Char → Bool
  | [first, second, third, fourth] =>
      "123".toList.contains first && second.isDigit && third.isDigit && fourth.isDigit
  | _ => false

theorem stopPattern_long {text : List Char} (long : 4 < text.length) : stopPattern text = false := by
  unfold stopPattern
  split
  · simp at long
  · rfl

/-- The pattern finds the preferences from 1000 to 3999. -/
theorem stopPattern_toDigits (n : Nat) : stopPattern (Nat.toDigits 10 n) = deletedPref n := by
  have large : (1 : Nat) < 10 := by decide
  have short : ∀ {n : Nat}, n < 1000 → deletedPref n = false := by
    intro n low
    have below : ¬ (1000 : Int) ≤ n := by omega
    rw [deletedPref, decide_eq_false below, Bool.false_and]
  by_cases one : n < 10
  · rw [Nat.toDigits_of_lt_base one, short (by omega)]
    rfl
  by_cases two : n < 100
  · rw [Nat.toDigits_of_base_le large (by omega), Nat.toDigits_of_lt_base (by omega), short (by omega)]
    rfl
  by_cases three : n < 1000
  · rw [Nat.toDigits_of_base_le large (by omega), Nat.toDigits_of_base_le large (by omega),
      Nat.toDigits_of_lt_base (by omega), short (by omega)]
    rfl
  by_cases four : n < 10000
  · have digits : Nat.toDigits 10 n = [(n / 1000).digitChar, (n / 100 % 10).digitChar, (n / 10 % 10).digitChar, (n % 10).digitChar] := by
      rw [Nat.toDigits_of_base_le large (by omega), Nat.toDigits_of_base_le large (by omega),
        Nat.toDigits_of_base_le large (by omega), Nat.toDigits_of_lt_base (by omega)]
      simp [Nat.div_div_eq_div_mul]
    have isDigit : ∀ d < 10, d.digitChar.isDigit = true := by decide
    have first : ∀ d < 10, "123".toList.contains d.digitChar = (decide (1 ≤ d) && decide (d ≤ 3)) := by decide
    rw [digits]
    simp only [stopPattern, isDigit _ (Nat.mod_lt _ (by decide : 0 < 10)), Bool.and_true, first (n / 1000) (by omega)]
    rw [deletedPref, Bool.eq_iff_iff, Bool.and_eq_true, Bool.and_eq_true]
    simp only [decide_eq_true_eq]
    omega
  · have long : 4 < (Nat.toDigits 10 n).length := by
      rw [← not_le, Nat.length_toDigits_le_iff large (by decide)]
      omega
    have above : ¬ (n : Int) ≤ 3999 := by omega
    rw [stopPattern_long long, deletedPref, decide_eq_false above, Bool.and_false]

/-! ## The preferences in use -/

/-- The ids of the interfaces that have a family. -/
def IfaceConfig.idsFor (c : IfaceConfig) (family : Family) : List Nat :=
  ((c.sections.filter fun iface => family ∈ iface.family.list).map IfaceSection.name).filterMap c.env.ifaceId

/-- The preferences that are used for a family. -/
def usedPrefs (c : IfaceConfig) (family : Family) : List Int :=
  if c.need family then
    [mmBlackhole c.mask + 2000, mmUnreachable c.mask + 2000] ++
      (c.idsFor family).flatMap fun id : Nat => [(id : Int) + 1000, (id : Int) + 2000]
  else []

/-- A start before its events, or an event of the handler. -/
inductive RuleEvent where
  | start
  | event (e : IfaceEvent)

def RuleEvent.run (c : IfaceConfig) (s : Family → FamilyRules) : RuleEvent → Family → FamilyRules
  | start => setGeneral c.env s
  | event e => handle c s e

/-- The loop of `stop_locked` over `ip rule list`. -/
def stopRules (rules : List IpRule) : List IpRule :=
  ((rules.filter fun rule => deletedPref rule.pref).map IpRule.pref).foldl delPref rules

/-- The preferences are distinct and come before the main table, and a stop leaves only rules that
were there before the history and that have other preferences. -/
def StopsClean (c : IfaceConfig) : Prop :=
  ∀ family, (usedPrefs c family).Nodup ∧ (∀ pref ∈ usedPrefs c family, pref < 32766) ∧
    ∀ (before : Family → FamilyRules) (history : List RuleEvent),
      ∀ rule ∈ stopRules ((history.foldl (RuleEvent.run c) before) family).rules,
        rule ∈ (before family).rules ∧ rule.pref ∉ usedPrefs c family

section Prefs

variable {c : IfaceConfig} {family : Family}

theorem stopRules_eq (s : MaskSystem) (family : Family) :
    ((stopLocked s).tables family).rules = stopRules (s.tables family).rules := rfl

theorem stopRules_filter (rules : List IpRule) :
    stopRules rules = rules.filter fun rule => !deletedPref rule.pref := foldl_delPref deletedPref rules

theorem mem_idsFor {id : Nat} (member : id ∈ c.idsFor family) : ∃ name, c.env.ifaceId name = some id := by
  obtain ⟨name, -, found⟩ := List.mem_filterMap.mp member
  exact ⟨name, found⟩

theorem idsFor_bounds {id : Nat} (member : id ∈ c.idsFor family) :
    0 < id ∧ id ≤ 250 ∧ (id : Int) ≤ mmDefault c.mask - 3 := by
  obtain ⟨name, found⟩ := mem_idsFor member
  have small := RulesTrack.ifaceId_le found
  have bounds := ifaceId_bounds found
  exact ⟨bounds.1, by omega, bounds.2⟩

theorem idsFor_nodup (c : IfaceConfig) (family : Family) : (c.idsFor family).Nodup := by
  have names : ((c.sections.filter fun iface => family ∈ iface.family.list).map IfaceSection.name).Nodup :=
    c.distinct.sublist (List.filter_sublist.map _)
  exact names.filterMap fun first second id ofFirst ofSecond => ifaceId_injective ofFirst ofSecond

theorem usedPrefs_nodup (c : IfaceConfig) (family : Family) : (usedPrefs c family).Nodup := by
  unfold usedPrefs
  split
  · have above : ∀ pref ∈ (c.idsFor family).flatMap fun id : Nat => [(id : Int) + 1000, (id : Int) + 2000],
        pref < mmBlackhole c.mask + 2000 := by
      intro pref member
      obtain ⟨id, inside, own⟩ := List.mem_flatMap.mp member
      obtain ⟨-, -, fits⟩ := idsFor_bounds inside
      simp only [List.mem_cons, List.not_mem_nil, or_false] at own
      unfold mmBlackhole
      omega
    rw [List.cons_append, List.singleton_append, List.nodup_cons, List.nodup_cons]
    refine ⟨fun member => ?_, fun member => ?_, ?_⟩
    · rcases List.mem_cons.mp member with same | later
      · unfold mmBlackhole mmUnreachable at same
        omega
      · exact absurd (above _ later) (lt_irrefl _)
    · have below := above _ member
      unfold mmBlackhole mmUnreachable at below
      omega
    · rw [List.nodup_flatMap]
      refine ⟨fun id _ => by simp, (idsFor_nodup c family).imp_of_mem fun inside inside' differ => ?_⟩
      have bounds := idsFor_bounds inside
      have bounds' := idsFor_bounds inside'
      rw [Function.onFun, List.disjoint_left]
      intro pref own own'
      simp only [List.mem_cons, List.not_mem_nil, or_false] at own own'
      omega
  · exact List.nodup_nil

/-! ### What a history adds -/

/-- Every rule was there before or has a preference that is used. -/
def Added (c : IfaceConfig) (before s : Family → FamilyRules) : Prop :=
  ∀ family, ∀ rule ∈ (s family).rules, rule ∈ (before family).rules ∨ rule.pref ∈ usedPrefs c family

theorem setGeneralRules_adds {rules : List IpRule} {rule : IpRule}
    (member : rule ∈ setGeneralRules c.env family rules) : rule ∈ rules ∨ rule.pref ∈ usedPrefs c family := by
  have add : ∀ {rule other : IpRule} {rules : List IpRule}, rule ∈ addGeneralRule other rules →
      rule ∈ rules ∨ rule = other := by
    intro rule other rules member
    unfold addGeneralRule at member
    split at member
    · exact .inl member
    · exact (List.mem_append.mp member).imp_right List.mem_singleton.mp
  unfold setGeneralRules at member
  split at member
  · rename_i needed
    have used : usedPrefs c family = [mmBlackhole c.mask + 2000, mmUnreachable c.mask + 2000] ++
        (c.idsFor family).flatMap fun id : Nat => [(id : Int) + 1000, (id : Int) + 2000] := if_pos needed
    rw [used]
    rcases add member with earlier | rfl
    · rcases add earlier with old | rfl
      · exact .inl old
      · exact .inr List.mem_cons_self
    · exact .inr (List.mem_cons_of_mem _ List.mem_cons_self)
  · exact .inl member

theorem mem_idsFor_of {name : String} {id : Nat} (found : c.env.ifaceId name = some id)
    (listed : family ∈ c.env.familyList name) : id ∈ c.idsFor family := by
  have sections : ∃ iface ∈ c.sections, iface.name = name ∧ family ∈ iface.family.list := by
    obtain ⟨index, place, -, -⟩ := ifaceId_eq_some.mp found
    unfold Env.familyList at listed
    split at listed
    · rename_i iface first
      obtain ⟨own, member⟩ := And.intro (List.find?_some first) (List.mem_of_find?_eq_some first)
      obtain ⟨entry, inside, rfl⟩ := List.mem_map.mp member
      exact ⟨entry, inside, of_decide_eq_true own, listed⟩
    · rename_i none
      rw [List.findIdx?_eq_some_iff_getElem] at place
      obtain ⟨bound, own, -⟩ := place
      exact absurd own (List.find?_eq_none.mp none _ (List.getElem_mem bound))
  obtain ⟨iface, inside, rfl, serves⟩ := sections
  exact List.mem_filterMap.mpr ⟨iface.name,
    List.mem_map_of_mem (List.mem_filter.mpr ⟨inside, decide_eq_true serves⟩), found⟩

theorem createIfaceRules_adds {name device : String} {rules : List IpRule} {rule : IpRule}
    (member : rule ∈ createIfaceRules c.env name device family rules) :
    rule ∈ rules ∨ rule.pref ∈ usedPrefs c family := by
  unfold createIfaceRules at member
  split at member
  · exact .inl member
  · rename_i id found
    split at member
    · rename_i serves
      have inside := mem_idsFor_of found serves.1
      have used : usedPrefs c family = [mmBlackhole c.mask + 2000, mmUnreachable c.mask + 2000] ++
          (c.idsFor family).flatMap fun id : Nat => [(id : Int) + 1000, (id : Int) + 2000] := if_pos serves.2
      have own : ∀ pref ∈ [(id : Int) + 1000, (id : Int) + 2000], pref ∈ usedPrefs c family := by
        intro pref pair
        rw [used]
        exact List.mem_append_right _ (List.mem_flatMap.mpr ⟨id, inside, pair⟩)
      rw [delIfacePrefs_eq] at member
      rcases List.mem_append.mp member with old | new
      · exact .inl (List.mem_of_mem_filter old)
      · rcases List.mem_cons.mp new with rfl | last
        · exact .inr (own _ List.mem_cons_self)
        · obtain rfl := List.mem_singleton.mp last
          exact .inr (own _ (List.mem_cons_of_mem _ (List.mem_singleton_self _)))
    · exact .inl member

theorem deleteIfaceRules_subset {env : Env} {name : String} {rules : List IpRule} {rule : IpRule}
    (member : rule ∈ deleteIfaceRules env name family rules) : rule ∈ rules := by
  unfold deleteIfaceRules at member
  split at member
  · exact member
  · split at member
    · rw [delIfacePrefs_eq] at member
      exact List.mem_of_mem_filter member
    · exact member

section History

variable {before s : Family → FamilyRules}

theorem Added.general (added : Added c before s) : Added c before (setGeneral c.env s) := by
  intro family rule member
  rcases setGeneralRules_adds member with old | new
  · exact added family rule old
  · exact .inr new

theorem Added.update (added : Added c before s) {turn : Family} {rules : FamilyRules}
    (adds : ∀ rule ∈ rules.rules, rule ∈ (s turn).rules ∨ rule.pref ∈ usedPrefs c turn) :
    Added c before (Function.update s turn rules) := by
  intro family rule member
  by_cases same : family = turn
  · subst same
    rw [Function.update_self] at member
    rcases adds rule member with old | new
    · exact added family rule old
    · exact .inr new
  · rw [Function.update_of_ne same] at member
    exact added family rule member

theorem Added.handleFamily (added : Added c before s) (e : IfaceEvent) (interface : String) (turn : Family) :
    Added c before (handleFamily c e interface s turn) := by
  unfold Mwan3.handleFamily
  split
  · have general : Added c before (if e.startup then s else setGeneral c.env s) := by
      split
      · exact added
      · exact added.general
    exact general.update fun rule member => createIfaceRules_adds member
  · exact added.update fun rule member => .inl (deleteIfaceRules_subset member)

theorem Added.handle (added : Added c before s) (e : IfaceEvent) : Added c before (handle c s e) := by
  rw [handle_eq]
  split
  · exact added
  · rename_i interface families _
    exact List.foldlRecOn _ _ (motive := Added c before) added fun s added family _ =>
      added.handleFamily e interface family

/-- A history adds rules with used preferences only. -/
theorem history_added (c : IfaceConfig) (before : Family → FamilyRules) (history : List RuleEvent) :
    Added c before (history.foldl (RuleEvent.run c) before) := by
  refine List.foldlRecOn _ _ (motive := Added c before) (fun _ _ member => .inl member) fun s added event _ => ?_
  cases event with
  | start => exact added.general
  | event e => exact added.handle e

end History

/-! ### Stops -/

/-- With at most ten bits all used preferences match the pattern. -/
theorem usedPrefs_deleted (bits : 3 ≤ countOneBits c.mask) (few : countOneBits c.mask ≤ 10) :
    ∀ pref ∈ usedPrefs c family, deletedPref pref = true := by
  have low : 2 ^ 3 ≤ 2 ^ countOneBits c.mask := Nat.pow_le_pow_right (by decide) bits
  have high : 2 ^ countOneBits c.mask ≤ 2 ^ 10 := Nat.pow_le_pow_right (by decide) few
  intro pref member
  unfold usedPrefs at member
  split at member
  · rcases List.mem_append.mp member with general | iface
    · simp only [List.mem_cons, List.not_mem_nil, or_false, mmBlackhole, mmUnreachable, mmDefault_cast] at general
      exact deletedPref_of_le (by omega) (by omega)
    · obtain ⟨id, inside, own⟩ := List.mem_flatMap.mp iface
      obtain ⟨positive, small, -⟩ := idsFor_bounds inside
      simp only [List.mem_cons, List.not_mem_nil, or_false] at own
      exact deletedPref_of_le (by omega) (by omega)
  · cases member

/-- The start adds the rule of the blackhole unless another one has its preference. -/
theorem exists_blackhole (needed : c.need family = true) (s : Family → FamilyRules) :
    ∃ rule ∈ (setGeneral c.env s family).rules, rule.pref = mmBlackhole c.mask + 2000 := by
  have add : ∀ (other : IpRule) (rules : List IpRule), ∃ rule ∈ addGeneralRule other rules, rule.pref = other.pref := by
    intro other rules
    unfold addGeneralRule
    split
    · rename_i present
      obtain ⟨rule, member, own⟩ := List.any_eq_true.mp present
      exact ⟨rule, member, of_decide_eq_true own⟩
    · exact ⟨other, List.mem_append_right _ (List.mem_singleton_self _), rfl⟩
  have kept : ∀ (other : IpRule) (rules : List IpRule), ∀ rule ∈ rules, rule ∈ addGeneralRule other rules := by
    intro other rules rule member
    unfold addGeneralRule
    split
    · exact member
    · exact List.mem_append_left _ member
  have rules : (setGeneral c.env s family).rules = setGeneralRules c.env family (s family).rules := rfl
  rw [rules, setGeneralRules, if_pos (show c.env.need family = true from needed)]
  obtain ⟨rule, member, own⟩ := add ⟨mmBlackhole c.env.mask + 2000,
    .blackhole (id2mask (mmBlackhole c.env.mask) c.env.mask) c.env.mask⟩ (s family).rules
  exact ⟨rule, kept _ _ rule member, own⟩

/-- From eleven bits on the rule of the blackhole stays. -/
theorem not_stopsClean (many : 10 < countOneBits c.mask) (needed : c.need family = true) : ¬ StopsClean c := by
  intro clean
  have used : mmBlackhole c.mask + 2000 ∈ usedPrefs c family := by
    rw [usedPrefs, if_pos needed]
    exact List.mem_cons_self
  have above : ¬ deletedPref (mmBlackhole c.mask + 2000) = true := by
    have high : 2 ^ 11 ≤ 2 ^ countOneBits c.mask := Nat.pow_le_pow_right (by decide) many
    rw [mmBlackhole, mmDefault_cast, deletedPref, Bool.and_eq_true]
    simp only [decide_eq_true_eq]
    omega
  obtain ⟨rule, member, own⟩ := exists_blackhole needed fun _ => ⟨∅, []⟩
  have left : rule ∈ stopRules (([RuleEvent.start].foldl (RuleEvent.run c) fun _ => ⟨∅, []⟩) family).rules := by
    rw [stopRules_filter]
    refine List.mem_filter.mpr ⟨member, ?_⟩
    rw [own]
    simpa using above
  exact ((clean family).2.2 _ _ rule left).2 (own ▸ used)

/-- A stop removes the rules of mwan3 exactly for masks of at most ten bits, and where no family is
needed. -/
theorem stopsClean_iff (c : IfaceConfig) (bits : 3 ≤ countOneBits c.mask) :
    StopsClean c ↔ countOneBits c.mask ≤ 10 ∨ ∀ family, c.need family = false := by
  constructor
  · intro clean
    refine or_iff_not_imp_left.mpr fun many family => ?_
    cases needed : c.need family with
    | true => exact absurd clean (not_stopsClean (not_le.mp many) needed)
    | false => rfl
  · intro fits family
    have deleted : ∀ pref ∈ usedPrefs c family, deletedPref pref = true := by
      rcases fits with few | idle
      · exact usedPrefs_deleted bits few
      · intro pref member
        rw [usedPrefs, if_neg (by simp [idle family])] at member
        cases member
    refine ⟨usedPrefs_nodup c family, fun pref member => ?_, fun before history rule member => ?_⟩
    · have matched := deleted pref member
      rw [deletedPref, Bool.and_eq_true] at matched
      have most := of_decide_eq_true matched.2
      omega
    · rw [stopRules_filter] at member
      obtain ⟨inside, stays⟩ := List.mem_filter.mp member
      have unused : rule.pref ∉ usedPrefs c family := fun used => by simp [deleted _ used] at stays
      exact ⟨(history_added c before history family rule inside).resolve_right unused, unused⟩

theorem stopsClean_decimalMask : StopsClean decimalMask :=
  (stopsClean_iff decimalMask (by decide +kernel)).mpr (.inl (by decide +kernel))

/-- One wan and a mask of eleven bits. -/
def elevenBits : IfaceConfig where
  sections := [⟨"wan", true, .ipv4⟩]
  maskText := "0x7ff00"
  mask := 0x7ff00
  noIpv6 := false
  distinct := List.nodup_singleton "wan"
  spelled := by decide
  bound := by decide

/-- The rule with preference 4045 stays. -/
theorem elevenBits_not_clean :
    countOneBits elevenBits.mask = 11 ∧ mmBlackhole elevenBits.mask + 2000 = 4045 ∧ ¬ StopsClean elevenBits := by
  have bits : countOneBits elevenBits.mask = 11 := by decide +kernel
  refine ⟨bits, by rw [mmBlackhole, mmDefault, bits]; rfl, ?_⟩
  exact @not_stopsClean _ .ipv4 (by rw [bits]; decide) (by decide +kernel)

end Prefs

end XWrt.Mwan3
