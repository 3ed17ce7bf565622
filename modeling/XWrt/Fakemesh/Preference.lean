import Mathlib.Data.Finset.Max
import Mathlib.Data.Prod.Lex
import Mathlib.Tactic.Linarith
import Mathlib.Tactic.NormNum
import XWrt.Fakemesh.Placement

/-!
# The preferred candidate

`prefer_client_candidate` compares two wireless candidates by their inactivity
where both report one, and by their scores otherwise. The two criteria can
disagree around a wireless candidate without an inactivity, and then the
preference goes in a circle and the loop may end with a candidate that another
one is preferred to. The scores are those of signals whose sums are exact in
doubles.
-/

namespace XWrt.Fakemesh

open XWrt.Foundation
open XWrt.Foundation.Choice

/-! ## The preference -/

/-- A wireless candidate that reports when it was last active. -/
def Timed (cand : Candidate) (inactive : ℚ) : Prop := cand.accessType = some "wireless" ∧ cand.inactiveMs = some inactive

/-- A wireless candidate that does not. -/
def Silent (cand : Candidate) : Prop := cand.accessType = some "wireless" ∧ cand.inactiveMs = none

theorem prefers_timed {candidate current : Candidate} {inactive currentInactive : ℚ} (timed : Timed candidate inactive)
    (timed' : Timed current currentInactive) :
    prefers candidate current = true ↔ inactive < currentInactive ∨
      inactive = currentInactive ∧ scoreClientCandidate current < scoreClientCandidate candidate := by
  rw [prefers, preferClientCandidate, timed.2, timed'.2]
  dsimp only
  by_cases same : inactive = currentInactive
  · simp [same]
  · simp [timed.1, timed'.1, same]

theorem prefers_score {candidate current : Candidate}
    (untimed : ¬((∃ inactive, Timed candidate inactive) ∧ ∃ inactive, Timed current inactive)) :
    prefers candidate current = true ↔ scoreClientCandidate current < scoreClientCandidate candidate := by
  rw [prefers, preferClientCandidate]
  cases inactive : candidate.inactiveMs with
  | none => simp
  | some first =>
      cases currentInactive : current.inactiveMs with
      | none => simp
      | some second =>
          dsimp only
          rw [if_neg fun both => untimed ⟨⟨first, both.1, inactive⟩, second, both.2.1, currentInactive⟩, decide_eq_true_eq]

theorem wireless_cases {cand : Candidate} (wireless : cand.accessType = some "wireless") :
    Silent cand ∨ ∃ inactive, Timed cand inactive := by
  cases inactive : cand.inactiveMs with
  | none => exact .inl ⟨wireless, inactive⟩
  | some value => exact .inr ⟨value, wireless, inactive⟩

theorem Silent.untimed {cand : Candidate} (silent : Silent cand) : ¬∃ inactive, Timed cand inactive := by
  rintro ⟨inactive, -, reported⟩
  rw [silent.2] at reported
  cases reported

theorem wireless_score {cand : Candidate} (wireless : cand.accessType = some "wireless") : 1000 ≤ scoreClientCandidate cand := by
  have rateRx : (0 : ℚ) ≤ if cand.rateRx.any (· > 0) then 50 else 0 := by split <;> norm_num
  have rateTx : (0 : ℚ) ≤ if cand.rateTx.any (· > 0) then 50 else 0 := by split <;> norm_num
  rw [scoreClientCandidate, if_pos wireless]
  cases cand.signal with
  | none =>
      dsimp only
      linarith
  | some signal =>
      have heard : 0 ≤ if signal > -95 then 100 + signal else 0 := by
        split
        next strong => linarith
        next => exact le_rfl
      dsimp only
      linarith

theorem other_score {cand : Candidate} (other : cand.accessType ≠ some "wireless") : scoreClientCandidate cand ≤ 800 := by
  rw [scoreClientCandidate, if_neg other]
  split_ifs <;> norm_num

theorem other_lt_wireless {other cand : Candidate} (notWireless : other.accessType ≠ some "wireless")
    (wireless : cand.accessType = some "wireless") : scoreClientCandidate other < scoreClientCandidate cand :=
  ((other_score notWireless).trans_lt (by norm_num)).trans_le (wireless_score wireless)

/-- What bounds the scores of the silent and of the timed candidates bounds that of every candidate. -/
theorem score_le_of_kinds {other cand : Candidate} (wireless : cand.accessType = some "wireless")
    (silent : Silent other → scoreClientCandidate other ≤ scoreClientCandidate cand)
    (timed : ∀ time, Timed other time → scoreClientCandidate other ≤ scoreClientCandidate cand) :
    scoreClientCandidate other ≤ scoreClientCandidate cand := by
  by_cases radio : other.accessType = some "wireless"
  · rcases wireless_cases radio with quiet | ⟨time, heard⟩
    · exact silent quiet
    · exact timed time heard
  · exact (other_lt_wireless radio wireless).le

/-! ## When the criteria disagree -/

/-- The candidate that was active last, and of these the one with the best score. -/
structure Latest (cands : List Candidate) (recent : Candidate) (inactive : ℚ) : Prop where
  inside : recent ∈ cands
  timed : Timed recent inactive
  least : ∀ other ∈ cands, ∀ time, Timed other time → inactive ≤ time
  best : ∀ other ∈ cands, Timed other inactive → scoreClientCandidate other ≤ scoreClientCandidate recent

/-- The best score of the silent candidates lies between that of the latest candidate and the best one of the timed
candidates, and these two differ. -/
structure Clash (cands : List Candidate) (recent strong silent : Candidate) (inactive : ℚ) : Prop where
  latest : Latest cands recent inactive
  strongInside : strong ∈ cands
  strongTimed : ∃ time, Timed strong time
  strongBest : ∀ other ∈ cands, ∀ time, Timed other time → scoreClientCandidate other ≤ scoreClientCandidate strong
  silentInside : silent ∈ cands
  isSilent : Silent silent
  silentBest : ∀ other ∈ cands, Silent other → scoreClientCandidate other ≤ scoreClientCandidate silent
  lower : scoreClientCandidate recent ≤ scoreClientCandidate silent
  upper : scoreClientCandidate silent ≤ scoreClientCandidate strong
  apart : scoreClientCandidate recent < scoreClientCandidate strong

/-- No such three candidates. -/
def Agree (cands : List Candidate) : Prop := ∀ recent strong silent inactive, ¬Clash cands recent strong silent inactive

section Lists

variable {cands : List Candidate}

/-- A silent candidate with the best score of all, better than that of every timed one. -/
theorem unbeaten_of_score {key : Candidate} (top : ∀ other ∈ cands, scoreClientCandidate other ≤ scoreClientCandidate key)
    (timed : ∀ other ∈ cands, ∀ time, Timed other time → scoreClientCandidate other < scoreClientCandidate key) {best : Candidate}
    (inside : best ∈ cands) (high : scoreClientCandidate key ≤ scoreClientCandidate best) : Unbeaten prefers cands best := by
  intro other member
  have untimed : ¬((∃ inactive, Timed other inactive) ∧ ∃ inactive, Timed best inactive) := by
    rintro ⟨-, time, bestTimed⟩
    exact absurd high (not_le.mpr (timed best inside time bestTimed))
  rw [← Bool.not_eq_true, prefers_score untimed]
  exact not_lt.mpr ((top other member).trans high)

/-- A candidate as late as the latest one and with its score. -/
theorem unbeaten_of_latest {recent : Candidate} {inactive : ℚ} (latest : Latest cands recent inactive)
    (silent : ∀ other ∈ cands, Silent other → scoreClientCandidate other ≤ scoreClientCandidate recent) {best : Candidate}
    (timed : Timed best inactive) (high : scoreClientCandidate recent ≤ scoreClientCandidate best) :
    Unbeaten prefers cands best := by
  intro other member
  rw [← Bool.not_eq_true]
  by_cases wireless : other.accessType = some "wireless"
  · rcases wireless_cases wireless with quiet | ⟨time, otherTimed⟩
    · rw [prefers_score fun both => quiet.untimed both.1]
      exact not_lt.mpr ((silent other member quiet).trans high)
    · rw [prefers_timed otherTimed timed]
      rintro (earlier | ⟨rfl, better⟩)
      · exact absurd (latest.least other member time otherTimed) (not_le.mpr earlier)
      · exact absurd ((latest.best other member otherTimed).trans high) (not_le.mpr better)
  · have untimed : ¬((∃ inactive, Timed other inactive) ∧ ∃ inactive, Timed best inactive) :=
      fun both => wireless both.1.choose_spec.1
    rw [prefers_score untimed]
    exact not_lt.mpr (other_lt_wireless wireless timed.1).le

theorem exists_latest {timed : Candidate} (inside : timed ∈ cands) {time : ℚ} (reported : Timed timed time) :
    ∃ recent inactive, Latest cands recent inactive := by
  -- The order by inactivity first, with the scores the other way round.
  let key : Candidate → ℚ ×ₗ ℚ := fun cand => toLex (cand.inactiveMs.getD 0, -scoreClientCandidate cand)
  have some : (cands.toFinset.filter fun cand => cand.accessType = some "wireless" ∧ cand.inactiveMs.isSome).Nonempty :=
    ⟨timed, by simp [inside, reported.1, reported.2]⟩
  obtain ⟨recent, member, least⟩ := Finset.exists_min_image _ key some
  simp only [Finset.mem_filter, List.mem_toFinset] at member least
  obtain ⟨present, wireless, known⟩ := member
  obtain ⟨inactive, value⟩ := Option.isSome_iff_exists.mp known
  have order : ∀ other ∈ cands, ∀ time, Timed other time →
      inactive < time ∨ inactive = time ∧ scoreClientCandidate other ≤ scoreClientCandidate recent := by
    intro other there time otherTimed
    have after := least other ⟨there, otherTimed.1, by rw [otherTimed.2]; rfl⟩
    simp only [key, Prod.Lex.le_iff, ofLex_toLex, value, otherTimed.2, Option.getD_some, neg_le_neg_iff] at after
    exact after
  refine ⟨recent, inactive, present, ⟨wireless, value⟩, ?_, ?_⟩
  · exact fun other there time otherTimed => (order other there time otherTimed).elim le_of_lt fun same => same.1.le
  · intro other there otherTimed
    exact (order other there inactive otherTimed).elim (fun less => absurd less (lt_irrefl _)) fun same => same.2

theorem exists_best {p : Candidate → Prop} [DecidablePred p] {cand : Candidate} (inside : cand ∈ cands) (good : p cand) :
    ∃ best ∈ cands, p best ∧ ∀ other ∈ cands, p other → scoreClientCandidate other ≤ scoreClientCandidate best := by
  have some : (cands.toFinset.filter p).Nonempty := ⟨cand, by simp [inside, good]⟩
  obtain ⟨best, member, greatest⟩ := Finset.exists_max_image _ scoreClientCandidate some
  simp only [Finset.mem_filter, List.mem_toFinset] at member greatest
  exact ⟨best, member.1, member.2, fun other there fine => greatest other ⟨there, fine⟩⟩

instance : DecidablePred Silent := fun _ => inferInstanceAs (Decidable (_ ∧ _))

instance : DecidablePred fun cand => ∃ inactive, Timed cand inactive := fun cand =>
  decidable_of_iff (cand.accessType = some "wireless" ∧ cand.inactiveMs.isSome) <| by
    simp [Timed, Option.isSome_iff_exists]

/-- An unbeaten candidate that is preferred to every beaten one. -/
structure Key (cands : List Candidate) (key : Candidate) : Prop where
  inside : key ∈ cands
  unbeaten : Unbeaten prefers cands key
  beats : ∀ best ∈ cands, prefers key best = false → Unbeaten prefers cands best

theorem key_of_score {key : Candidate} (inside : key ∈ cands)
    (top : ∀ other ∈ cands, scoreClientCandidate other ≤ scoreClientCandidate key)
    (timed : ∀ other ∈ cands, ∀ time, Timed other time → scoreClientCandidate other < scoreClientCandidate key) : Key cands key := by
  refine ⟨inside, unbeaten_of_score top timed inside le_rfl, fun best member kept => ?_⟩
  have untimed : ¬((∃ inactive, Timed key inactive) ∧ ∃ inactive, Timed best inactive) := by
    rintro ⟨⟨time, keyTimed⟩, -⟩
    exact absurd (timed key inside time keyTimed) (lt_irrefl _)
  rw [← Bool.not_eq_true, prefers_score untimed, not_lt] at kept
  exact unbeaten_of_score top timed member kept

/-- The latest candidate, when no silent one has a better score, nor the same one unless no timed one has a better score. -/
theorem key_of_latest {recent : Candidate} {inactive : ℚ} (latest : Latest cands recent inactive)
    (silent : ∀ other ∈ cands, Silent other → scoreClientCandidate other ≤ scoreClientCandidate recent ∧
      (scoreClientCandidate recent ≤ scoreClientCandidate other →
        ∀ timed ∈ cands, ∀ time, Timed timed time → scoreClientCandidate timed ≤ scoreClientCandidate recent)) :
    Key cands recent := by
  have low := fun other member quiet => (silent other member quiet).1
  refine ⟨latest.inside, unbeaten_of_latest latest low latest.timed le_rfl, fun best member kept => ?_⟩
  rw [← Bool.not_eq_true] at kept
  by_cases wireless : best.accessType = some "wireless"
  · rcases wireless_cases wireless with quiet | ⟨time, timed⟩
    · rw [prefers_score fun both => quiet.untimed both.2, not_lt] at kept
      -- A silent candidate with the score of the latest one, which no timed one exceeds.
      have strong := (silent best member quiet).2 kept
      intro other there
      rw [← Bool.not_eq_true, prefers_score fun both => quiet.untimed both.2, not_lt]
      exact score_le_of_kinds wireless (fun hush => (low other there hush).trans kept)
        fun moment heard => (strong other there moment heard).trans kept
    · rw [prefers_timed latest.timed timed, not_or, not_and, not_lt, not_lt] at kept
      obtain rfl := le_antisymm kept.1 (latest.least best member time timed)
      exact unbeaten_of_latest latest low timed (kept.2 rfl)
  · have untimed : ¬((∃ inactive, Timed recent inactive) ∧ ∃ inactive, Timed best inactive) :=
      fun both => wireless both.2.choose_spec.1
    rw [prefers_score untimed] at kept
    exact absurd (other_lt_wireless wireless latest.timed.1) kept

theorem Agree.exists_key (agree : Agree cands) (some : cands ≠ []) : ∃ key, Key cands key := by
  by_cases wireless : ∃ cand ∈ cands, ∃ time, Timed cand time
  · obtain ⟨cand, inside, time, timed⟩ := wireless
    obtain ⟨recent, inactive, latest⟩ := exists_latest inside timed
    by_cases quiet : ∃ cand ∈ cands, Silent cand
    · obtain ⟨cand', inside', quiet'⟩ := quiet
      obtain ⟨silent, silentInside, isSilent, silentBest⟩ := exists_best inside' quiet'
      obtain ⟨strong, strongInside, strongTimed, strongBest⟩ := @exists_best cands (fun cand => ∃ inactive, Timed cand inactive) _ cand inside ⟨time, timed⟩
      rcases lt_or_ge (scoreClientCandidate strong) (scoreClientCandidate silent) with above | upper
      · have below : ∀ other ∈ cands, ∀ time, Timed other time → scoreClientCandidate other < scoreClientCandidate silent :=
          fun other member time timed => (strongBest other member ⟨time, timed⟩).trans_lt above
        refine ⟨silent, key_of_score silentInside (fun other member => ?_) below⟩
        exact score_le_of_kinds isSilent.1 (silentBest other member) fun moment heard => (below other member moment heard).le
      · rcases lt_or_ge (scoreClientCandidate silent) (scoreClientCandidate recent) with under | lower
        · refine ⟨recent, key_of_latest latest fun other member hush => ?_⟩
          have less := (silentBest other member hush).trans_lt under
          exact ⟨less.le, fun high => absurd less (not_lt.mpr high)⟩
        · have equal : scoreClientCandidate strong ≤ scoreClientCandidate recent := by
            by_contra apart
            exact agree recent strong silent inactive ⟨latest, strongInside, strongTimed,
              fun other member time timed => strongBest other member ⟨time, timed⟩, silentInside, isSilent, silentBest, lower,
              upper, not_le.mp apart⟩
          refine ⟨recent, key_of_latest latest fun other member hush => ⟨?_, fun _ timed inside time reported => ?_⟩⟩
          · exact (silentBest other member hush).trans (upper.trans equal)
          · exact (strongBest timed inside ⟨time, reported⟩).trans equal
    · exact ⟨recent, key_of_latest latest fun other member silent => absurd ⟨other, member, silent⟩ quiet⟩
  · obtain ⟨first, rest, rfl⟩ := List.exists_cons_of_ne_nil some
    obtain ⟨best, inside, -, top⟩ := @exists_best (first :: rest) (fun _ => True) _ first List.mem_cons_self trivial
    refine ⟨best, key_of_score inside (fun other member => top other member trivial) fun other member time timed => ?_⟩
    exact absurd ⟨other, member, time, timed⟩ wireless

theorem survivor_unbeaten (agree : Agree cands) {first : Candidate} {rest : List Candidate} (order : (first :: rest).Perm cands) :
    Unbeaten prefers cands (survivor prefers first rest) := by
  have some : cands ≠ [] := fun none => by
    rw [none] at order
    exact absurd order.eq_nil (List.cons_ne_nil _ _)
  obtain ⟨key, isKey⟩ := agree.exists_key some
  exact survivor_undominated (fun item => order.mem_iff.symm) isKey.inside isKey.unbeaten isKey.beats

/-- One candidate, then the others without a property, then those with it. -/
theorem perm_parts {first : Candidate} (inside : first ∈ cands) (p : Candidate → Bool) :
    (first :: ((cands.erase first).filter (fun cand => !p cand) ++ (cands.erase first).filter p)).Perm cands :=
  ((List.perm_append_comm.trans (List.filter_append_perm p _)).cons first).trans (List.perm_cons_erase inside).symm

section Clashing

variable {recent strong silent : Candidate} {inactive : ℚ} (clash : Clash cands recent strong silent inactive)
include clash

/-- The silent one first and the timed ones that beat it last: one of these is left, and the latest beats it. -/
theorem Clash.order_below (below : scoreClientCandidate silent < scoreClientCandidate strong) :
    ∃ first rest, (first :: rest).Perm cands ∧ ∃ other ∈ cands, prefers other (survivor prefers first rest) = true := by
  let strongs : Candidate → Bool := fun cand => (∃ time, Timed cand time) ∧ scoreClientCandidate silent < scoreClientCandidate cand
  have isStrong : ∀ {cand}, strongs cand = true ↔
      (∃ time, Timed cand time) ∧ scoreClientCandidate silent < scoreClientCandidate cand := decide_eq_true_iff
  refine ⟨silent, _, perm_parts clash.silentInside strongs, recent, clash.latest.inside, ?_⟩
  have quiet : Unbeaten prefers ((cands.erase silent).filter fun cand => !strongs cand) silent := by
    intro item member
    obtain ⟨among, weak⟩ := List.mem_filter.mp member
    rw [Bool.not_eq_true', ← Bool.not_eq_true, isStrong] at weak
    rw [← Bool.not_eq_true, prefers_score fun both => clash.isSilent.untimed both.2, not_lt]
    exact score_le_of_kinds clash.isSilent.1 (clash.silentBest item (List.mem_of_mem_erase among))
      fun time heard => not_lt.mp fun less => weak ⟨⟨time, heard⟩, less⟩
  have left : survivor prefers silent ((cands.erase silent).filter strongs) ∈ (cands.erase silent).filter strongs := by
    apply survivor_mem_of_preferred
    · refine List.ne_nil_of_mem (List.mem_filter.mpr ⟨(List.mem_erase_of_ne ?_).mpr clash.strongInside, isStrong.mpr ?_⟩)
      · rintro rfl
        exact clash.isSilent.untimed clash.strongTimed
      · exact ⟨clash.strongTimed, below⟩
    · intro item member
      rw [prefers_score fun both => clash.isSilent.untimed both.2]
      exact (isStrong.mp (List.mem_filter.mp member).2).2
  rw [survivor_append, survivor_of_unbeaten quiet]
  obtain ⟨among, strongest⟩ := List.mem_filter.mp left
  obtain ⟨⟨time, reported⟩, more⟩ := isStrong.mp strongest
  have there := List.mem_of_mem_erase among
  rw [prefers_timed clash.latest.timed reported]
  refine .inl ((clash.latest.least _ there time reported).lt_of_ne ?_)
  rintro rfl
  exact absurd ((clash.latest.best _ there reported).trans clash.lower) (not_le.mpr more)

/-- The strong one first and the other timed ones last: the latest are left, and the silent one beats them. -/
theorem Clash.order_level (level : scoreClientCandidate silent = scoreClientCandidate strong) :
    ∃ first rest, (first :: rest).Perm cands ∧ ∃ other ∈ cands, prefers other (survivor prefers first rest) = true := by
  let timed : Candidate → Bool := fun cand => ∃ time, Timed cand time
  have isTimed : ∀ {cand}, timed cand = true ↔ ∃ time, Timed cand time := decide_eq_true_iff
  have lower : scoreClientCandidate recent < scoreClientCandidate silent := level ▸ clash.apart
  refine ⟨strong, _, perm_parts clash.strongInside timed, silent, clash.silentInside, ?_⟩
  have quiet : Unbeaten prefers ((cands.erase strong).filter fun cand => !timed cand) strong := by
    intro item member
    obtain ⟨among, untimed⟩ := List.mem_filter.mp member
    rw [Bool.not_eq_true', ← Bool.not_eq_true, isTimed] at untimed
    rw [← Bool.not_eq_true, prefers_score fun both => untimed both.1, not_lt, ← level]
    exact score_le_of_kinds clash.isSilent.1 (clash.silentBest item (List.mem_of_mem_erase among))
      fun time heard => absurd ⟨time, heard⟩ untimed
  have reported : ∀ item ∈ strong :: (cands.erase strong).filter timed, item ∈ cands ∧ ∃ time, Timed item time := by
    refine List.forall_mem_cons.mpr ⟨⟨clash.strongInside, clash.strongTimed⟩, fun item member => ?_⟩
    obtain ⟨among, known⟩ := List.mem_filter.mp member
    exact ⟨List.mem_of_mem_erase among, isTimed.mp known⟩
  have late : Timed (survivor prefers strong ((cands.erase strong).filter timed)) inactive := by
    refine @survivor_enters _ _ _ _ (fun cand => Timed cand inactive) recent ?_ clash.latest.timed ?_ ?_
    · refine List.mem_cons_of_mem _ (List.mem_filter.mpr ⟨(List.mem_erase_of_ne ?_).mpr clash.latest.inside, ?_⟩)
      · rintro rfl
        exact lt_irrefl _ clash.apart
      · exact isTimed.mpr ⟨inactive, clash.latest.timed⟩
    · intro best member kept
      obtain ⟨there, time, known⟩ := reported best member
      rw [← Bool.not_eq_true, prefers_timed clash.latest.timed known, not_or, not_lt] at kept
      obtain rfl := le_antisymm kept.1 (clash.latest.least best there time known)
      exact known
    · intro item member best good preferred
      obtain ⟨there, time, known⟩ := reported item (List.mem_cons_of_mem _ member)
      rcases (prefers_timed known good).mp preferred with earlier | ⟨rfl, -⟩
      · exact absurd (clash.latest.least item there time known) (not_le.mpr earlier)
      · exact known
  rw [survivor_append, survivor_of_unbeaten quiet, prefers_score fun both => clash.isSilent.untimed both.1]
  exact (clash.latest.best _ (reported _ survivor_mem).1 late).trans_lt lower

/-- Where they clash, some order of the candidates ends with a beaten one. -/
theorem Clash.exists_order :
    ∃ first rest, (first :: rest).Perm cands ∧ ∃ other ∈ cands, prefers other (survivor prefers first rest) = true :=
  clash.upper.lt_or_eq.elim clash.order_below clash.order_level

end Clashing

end Lists

/-! ## The winner of the loop -/

section Winner

variable {nodes : List Node} {fuel : Nat} {group order : List Candidate}

theorem isEligible_perm (forwards : Forwards nodes fuel) (perm : order.Perm group) :
    isEligible nodes fuel order = isEligible nodes fuel group := by
  funext cand
  rw [Bool.eq_iff_iff, isEligible_iff forwards, isEligible_iff forwards]
  simp only [perm.mem_iff]

theorem filter_isEligible (forwards : Forwards nodes fuel) (perm : order.Perm group) :
    (order.filter (isEligible nodes fuel order)).Perm (group.filter (isEligible nodes fuel group)) := by
  rw [isEligible_perm forwards perm]
  exact perm.filter _

/-- Every order of the eligible candidates comes from an order of the group. -/
theorem exists_order_of_eligible (forwards : Forwards nodes fuel) {wanted : List Candidate}
    (perm : wanted.Perm (group.filter (isEligible nodes fuel group))) :
    ∃ order : List Candidate, order.Perm group ∧ order.filter (isEligible nodes fuel order) = wanted := by
  have whole : (wanted ++ group.filter fun cand => !isEligible nodes fuel group cand).Perm group :=
    (perm.append_right _).trans (List.filter_append_perm _ _)
  refine ⟨_, whole, ?_⟩
  have kept : wanted.filter (isEligible nodes fuel group) = wanted :=
    List.filter_eq_self.mpr fun cand inside => (List.mem_filter.mp (perm.mem_iff.mp inside)).2
  have dropped : (group.filter fun cand => !isEligible nodes fuel group cand).filter (isEligible nodes fuel group) = [] := by
    rw [List.filter_filter, List.filter_eq_nil_iff]
    intro cand _
    simp
  rw [isEligible_perm forwards whole, List.filter_append, kept, dropped, List.append_nil]

theorem pickClient_survivor (forwards : Forwards nodes fuel) {first : Candidate} {rest : List Candidate}
    (eligible : order.filter (isEligible nodes fuel order) = first :: rest) :
    pickClient nodes fuel order none order = some (some (survivor prefers first rest)) := by
  rw [pickClient_eq (fun client candidates => (forwards client candidates).1), eligible]
  rfl

end Winner

/-- In every order of a group the loop ends with a candidate to which no eligible one is preferred, and any two orders
end with tied ones, exactly when the two criteria agree on the eligible candidates. -/
theorem pickClient_best_iff {nodes : List Node} (tree : Tree nodes) :
    ∃ limit, ∀ fuel ≥ limit, ∀ group : List Candidate, group.filter (isEligible nodes fuel group) ≠ [] →
      ((∀ order, order.Perm group → ∃ best, pickClient nodes fuel order none order = some (some best) ∧
        (∀ cand ∈ group, isEligible nodes fuel group cand = true → prefers cand best = false) ∧
        ∀ order' best', order'.Perm group → pickClient nodes fuel order' none order' = some (some best') →
          prefers best' best = false ∧ prefers best best' = false) ↔
        Agree (group.filter (isEligible nodes fuel group))) := by
  obtain ⟨limit, forwards⟩ := clientForwardedDownstream_iff tree
  refine ⟨limit, fun fuel enough group some => ?_⟩
  have known : Forwards nodes fuel := forwards fuel enough
  constructor
  · intro always recent strong silent inactive clash
    obtain ⟨first, rest, perm, other, inside, preferred⟩ := clash.exists_order
    obtain ⟨order, whole, eligible⟩ := exists_order_of_eligible known perm
    obtain ⟨best, picked, unbeaten, -⟩ := always order whole
    obtain rfl := Option.some.inj (Option.some.inj ((pickClient_survivor known eligible).symm.trans picked))
    obtain ⟨member, good⟩ := List.mem_filter.mp inside
    exact absurd preferred (Bool.eq_false_iff.mp (unbeaten other member good))
  · intro agree
    -- Every winner is an eligible candidate that nothing eligible is preferred to.
    have winner : ∀ order, order.Perm group → ∃ best ∈ group.filter (isEligible nodes fuel group),
        pickClient nodes fuel order none order = .some (.some best) ∧
          Unbeaten prefers (group.filter (isEligible nodes fuel group)) best := by
      intro order perm
      have same := filter_isEligible known perm
      obtain ⟨first, rest, eligible⟩ := List.exists_cons_of_ne_nil fun none => some (same.symm.trans (none ▸ .refl _)).eq_nil
      rw [eligible] at same
      exact ⟨_, same.mem_iff.mp survivor_mem, pickClient_survivor known eligible, survivor_unbeaten agree same⟩
    intro order perm
    obtain ⟨best, inside, picked, unbeaten⟩ := winner order perm
    refine ⟨best, picked, fun cand member good => unbeaten cand (List.mem_filter.mpr ⟨member, good⟩), ?_⟩
    intro order' best' perm' picked'
    obtain ⟨other, inside', otherPicked, unbeaten'⟩ := winner order' perm'
    obtain rfl := Option.some.inj (Option.some.inj (otherPicked.symm.trans picked'))
    exact ⟨unbeaten other inside', unbeaten' best inside⟩

/-! ## A circle -/

/-- A controller alone. -/
def loneNodes : List Node := [⟨"ac", none, none, none, 0⟩]

def radioAt (signal : ℚ) (inactiveMs : Option ℚ) : Candidate :=
  { nodeId := "ac", accessType := some "wireless", ifname := none, port := none, mac := "AA:BB:CC:DD:EE:FF", signal := some signal,
    inactiveMs }

/-- The second is preferred to the first and the third to the second, but then the first to the third. -/
def circle : List Candidate := [radioAt (-90) (some 10), radioAt (-60) none, radioAt (-30) (some 900000)]

theorem pickClient_circle :
    pickClient loneNodes 1 circle none circle = some (some (radioAt (-30) (some 900000))) ∧
      radioAt (-90) (some 10) ∈ circle.filter (isEligible loneNodes 1 circle) ∧
      prefers (radioAt (-90) (some 10)) (radioAt (-30) (some 900000)) = true := by
  decide +kernel

theorem loneNodes_tree : Tree loneNodes := by
  refine ⟨⟨by decide, _, .head _, rfl, rfl⟩, ?_⟩
  simp only [loneNodes, List.forall_mem_singleton]
  exact attached_root _ _

theorem isEligible_radioAt (fuel : Nat) (group : List Candidate) (signal : ℚ) (inactiveMs : Option ℚ) :
    isEligible loneNodes fuel group (radioAt signal inactiveMs) = true := by
  simp [isEligible, clientOnUplink, clientForwardedDownstream, radioAt, loneNodes, nodeById]

theorem pickClient_best_timed :
    ∃ limit, ∀ fuel ≥ limit, ∀ order, order.Perm [radioAt (-90) (some 10), radioAt (-30) (some 900000)] →
      ∃ best, pickClient loneNodes fuel order none order = some (some best) ∧
        prefers (radioAt (-90) (some 10)) best = false ∧ prefers (radioAt (-30) (some 900000)) best = false := by
  obtain ⟨limit, best⟩ := pickClient_best_iff loneNodes_tree
  refine ⟨limit, fun fuel enough order perm => ?_⟩
  have eligible := isEligible_radioAt fuel [radioAt (-90) (some 10), radioAt (-30) (some 900000)]
  have all : [radioAt (-90) (some 10), radioAt (-30) (some 900000)].filter
      (isEligible loneNodes fuel [radioAt (-90) (some 10), radioAt (-30) (some 900000)]) =
        [radioAt (-90) (some 10), radioAt (-30) (some 900000)] := by
    simp [eligible]
  have agree : Agree [radioAt (-90) (some 10), radioAt (-30) (some 900000)] := by
    intro recent strong silent inactive clash
    have silent := clash.isSilent.2
    rcases List.mem_pair.mp clash.silentInside with rfl | rfl <;> cases silent
  obtain ⟨pick, picked, unbeaten, -⟩ := (best fuel enough _ (by rw [all]; simp)).mpr (all.symm ▸ agree) order perm
  exact ⟨pick, picked, unbeaten _ (.head _) (eligible _ _), unbeaten _ (.tail _ (.head _)) (eligible _ _)⟩

end XWrt.Fakemesh
