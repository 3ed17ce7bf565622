import XWrt.Ipops.Inclusion

/-!
# A range set after its conversion

`rangeSet2ipcidrSet` advances the starts of the ranges it is given. Every range
with an address comes back with its start past its end, so that the set is
empty for a second conversion and for a membership test.
-/

namespace XWrt.Ipops

open XWrt.Foundation
open XWrt.Foundation.IntervalList

/-- What the loop leaves of a range. -/
structure Drained (range left : Range) : Prop where
  sameEnd : left.hi = range.hi
  past : left.hi < left.lo
  untouched : range.hi < range.lo → left = range

theorem splitRange_drains {fuel : ℕ} {range left : Range} {ipcidrSet strings : List String}
    (done : splitRange fuel range ipcidrSet = some (strings, left)) : Drained range left := by
  induction fuel generalizing range ipcidrSet with
  | zero => cases done
  | succ fuel ih =>
      rw [splitRange] at done
      split at done
      next ordered =>
        have nonempty : ¬range.hi < range.lo := not_lt.mpr ordered
        split at done
        next cidr _ =>
          have later := ih done
          exact ⟨later.sameEnd, later.past, fun empty => absurd empty nonempty⟩
        next =>
          have later := ih done
          exact ⟨later.sameEnd, later.past, fun empty => absurd empty nonempty⟩
      next empty =>
        obtain ⟨-, rfl⟩ := Prod.mk.inj (Option.some.inj done)
        exact ⟨rfl, not_le.mp empty, fun _ => rfl⟩

section Conversion

variable {fuel : ℕ} {rangeSet updated : RangeSet} {strings : List String}

/-- The loop of `rangeSet2ipcidrSet` from a range on. -/
theorem foldlM_drains {ipcidrSet : List String} {before : RangeSet}
    (done : rangeSet.foldlM (fun (ipcidrSet, updated) range => do
      let (ipcidrSet, range) ← splitRange fuel range ipcidrSet
      pure (ipcidrSet, updated ++ [range])) (ipcidrSet, before) = some (strings, updated)) :
    ∃ left, updated = before ++ left ∧ List.Forall₂ Drained rangeSet left := by
  induction rangeSet generalizing ipcidrSet before with
  | nil =>
      obtain ⟨-, rfl⟩ := Prod.mk.inj (Option.some.inj done)
      exact ⟨[], (List.append_nil _).symm, .nil⟩
  | cons range rest ih =>
      rw [List.foldlM_cons] at done
      obtain ⟨⟨middle, extended⟩, first, done⟩ := Option.bind_eq_some_iff.mp done
      obtain ⟨⟨printed, drained⟩, split, same⟩ := Option.bind_eq_some_iff.mp first
      obtain ⟨-, rfl⟩ := Prod.mk.inj (Option.some.inj same)
      obtain ⟨left, rfl, each⟩ := ih done
      exact ⟨drained :: left, by rw [List.append_assoc, List.singleton_append], .cons (splitRange_drains split) each⟩

theorem rangeSet2ipcidrSet_drains (done : rangeSet2ipcidrSet fuel rangeSet = some (strings, updated)) :
    List.Forall₂ Drained rangeSet updated := by
  obtain ⟨left, rfl, each⟩ := foldlM_drains done
  exact each

theorem past_of_drained (drained : List.Forall₂ Drained rangeSet updated) : ∀ range ∈ updated, range.hi < range.lo := by
  induction drained with
  | nil => exact List.forall_mem_nil _
  | cons drained _ ih => exact List.forall_mem_cons.mpr ⟨drained.past, ih⟩

/-- There is nothing to print of ranges that start past their ends. -/
theorem foldlM_of_past (again : ℕ) (past : ∀ range ∈ rangeSet, range.hi < range.lo) (ipcidrSet : List String) (before : RangeSet) :
    rangeSet.foldlM (fun (ipcidrSet, updated) range => do
      let (ipcidrSet, range) ← splitRange (again + 1) range ipcidrSet
      pure (ipcidrSet, updated ++ [range])) (ipcidrSet, before) = some (ipcidrSet, before ++ rangeSet) := by
  induction rangeSet generalizing before with
  | nil =>
      rw [List.foldlM_nil, List.append_nil]
      rfl
  | cons range rest ih =>
      rw [List.forall_mem_cons] at past
      have here : splitRange (again + 1) range ipcidrSet = some (ipcidrSet, range) := by
        rw [splitRange, if_neg (not_le.mpr past.1)]
      rw [List.foldlM_cons]
      simp only [here]
      have later := ih past.2 (before ++ [range])
      rw [List.append_assoc, List.singleton_append] at later
      exact later

/-- A second conversion of the set prints nothing. -/
theorem rangeSet2ipcidrSet_again (done : rangeSet2ipcidrSet fuel rangeSet = some (strings, updated)) (again : ℕ) :
    rangeSet2ipcidrSet (again + 1) updated = some ([], updated) :=
  foldlM_of_past again (past_of_drained (rangeSet2ipcidrSet_drains done)) [] []

/-- No range with an address is in it any more. -/
theorem rangeInRangeSet_converted (done : rangeSet2ipcidrSet fuel rangeSet = some (strings, updated)) {range : Range}
    (ordered : range.lo ≤ range.hi) : rangeInRangeSet range updated = false := by
  have past := past_of_drained (rangeSet2ipcidrSet_drains done)
  rw [rangeInRangeSet, List.any_eq_false]
  intro other member fits
  rw [Bool.and_eq_true, decide_eq_true_eq, decide_eq_true_eq] at fits
  have := past other member
  omega

/-- The conversion leaves its argument as it was if and only if no range of it has an address. -/
theorem argument_kept_iff (done : rangeSet2ipcidrSet fuel rangeSet = some (strings, updated)) :
    updated = rangeSet ↔ ∀ range ∈ rangeSet, range.hi < range.lo := by
  have drained := rangeSet2ipcidrSet_drains done
  constructor
  · rintro rfl
    exact past_of_drained drained
  · intro empty
    clear done
    induction drained with
    | nil => rfl
    | cons first _ ih =>
        rw [List.forall_mem_cons] at empty
        rw [first.untouched empty.1, ih empty.2]

end Conversion

theorem argument_kept_iff_two : ([⟨2, 1⟩] : RangeSet) = [⟨0, 1⟩] ↔ ∀ range ∈ ([⟨0, 1⟩] : RangeSet), range.hi < range.lo :=
  argument_kept_iff (show rangeSet2ipcidrSet 2 [⟨0, 1⟩] = some (["0.0.0.0/31"], [⟨2, 1⟩]) by decide +kernel)

/-- Two addresses are printed and gone. -/
theorem argument_drained : rangeSet2ipcidrSet 2 [⟨0, 1⟩] = some (["0.0.0.0/31"], [⟨2, 1⟩]) ∧ ([⟨2, 1⟩] : RangeSet) ≠ [⟨0, 1⟩] ∧
    rangeSet2ipcidrSet 2 [⟨2, 1⟩] = some ([], [⟨2, 1⟩]) ∧ rangeInRangeSet ⟨1, 1⟩ [⟨0, 1⟩] = true ∧
      rangeInRangeSet ⟨1, 1⟩ [⟨2, 1⟩] = false := by
  decide +kernel

end XWrt.Ipops
