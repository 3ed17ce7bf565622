import Mathlib.Order.SuccPred.Basic
import Mathlib.Order.Interval.Set.Basic

/-!
# Sorted lists of closed intervals

A finite union of closed intervals over a linear order with successors. A list
is canonical when its intervals are proper, sorted and separated by at least
one missing point. A canonical list is determined by the set it denotes.
-/

namespace XWrt.Foundation

/-- The closed interval from `lo` to `hi`. -/
structure ClosedInterval (α : Type*) where
  lo : α
  hi : α
  deriving DecidableEq, Repr

namespace IntervalList

/-- The union of the listed intervals. -/
def denote {α : Type*} [Preorder α] (ranges : List (ClosedInterval α)) : Set α :=
  {x | ∃ range ∈ ranges, range.lo ≤ x ∧ x ≤ range.hi}

section Denotation

variable {α : Type*} [Preorder α]

@[simp] theorem denote_nil : denote ([] : List (ClosedInterval α)) = ∅ := by
  ext x
  simp [denote]

theorem mem_denote {ranges : List (ClosedInterval α)} {x : α} :
    x ∈ denote ranges ↔ ∃ range ∈ ranges, range.lo ≤ x ∧ x ≤ range.hi := Iff.rfl

@[simp] theorem mem_denote_cons {range : ClosedInterval α} {ranges : List (ClosedInterval α)} {x : α} :
    x ∈ denote (range :: ranges) ↔ (range.lo ≤ x ∧ x ≤ range.hi) ∨ x ∈ denote ranges := by
  simp [mem_denote]

@[simp] theorem mem_denote_append {first second : List (ClosedInterval α)} {x : α} :
    x ∈ denote (first ++ second) ↔ x ∈ denote first ∨ x ∈ denote second := by
  simp [mem_denote, or_and_right, exists_or]

end Denotation

variable {α : Type*} [LinearOrder α] [SuccOrder α]

/-- At least one point lies strictly between the two intervals. -/
def Gap (first second : ClosedInterval α) : Prop := Order.succ first.hi < second.lo

/-- Proper intervals in ascending order, neither overlapping nor adjacent. -/
structure Canonical (ranges : List (ClosedInterval α)) : Prop where
  proper : ∀ range ∈ ranges, range.lo ≤ range.hi
  gaps : ranges.Pairwise Gap

theorem canonical_nil : Canonical ([] : List (ClosedInterval α)) :=
  ⟨by simp, List.Pairwise.nil⟩

theorem canonical_singleton {range : ClosedInterval α} (proper : range.lo ≤ range.hi) :
    Canonical [range] :=
  ⟨by simpa using proper, List.pairwise_singleton _ _⟩

theorem canonical_cons {range : ClosedInterval α} {ranges : List (ClosedInterval α)} :
    Canonical (range :: ranges) ↔
      range.lo ≤ range.hi ∧ (∀ other ∈ ranges, Gap range other) ∧ Canonical ranges := by
  constructor
  · rintro ⟨proper, gaps⟩
    obtain ⟨apart, gaps⟩ := List.pairwise_cons.mp gaps
    exact ⟨proper _ (.head _), apart, fun other member => proper other (.tail _ member), gaps⟩
  · rintro ⟨proper, apart, rest⟩
    refine ⟨?_, List.pairwise_cons.mpr ⟨apart, rest.gaps⟩⟩
    intro other member
    rcases List.mem_cons.mp member with rfl | member
    · exact proper
    · exact rest.proper other member

theorem canonical_append {first second : List (ClosedInterval α)} :
    Canonical (first ++ second) ↔
      Canonical first ∧ Canonical second ∧
        ∀ range ∈ first, ∀ other ∈ second, Gap range other := by
  constructor
  · rintro ⟨proper, gaps⟩
    obtain ⟨gapsFirst, gapsSecond, apart⟩ := List.pairwise_append.mp gaps
    exact ⟨⟨fun r m => proper r (List.mem_append_left _ m), gapsFirst⟩,
      ⟨fun r m => proper r (List.mem_append_right _ m), gapsSecond⟩, apart⟩
  · rintro ⟨canonFirst, canonSecond, apart⟩
    refine ⟨fun r member => ?_, List.pairwise_append.mpr ⟨canonFirst.gaps, canonSecond.gaps, apart⟩⟩
    rcases List.mem_append.mp member with member | member
    · exact canonFirst.proper r member
    · exact canonSecond.proper r member

/-- Every point of a canonical list is at or after the first start. -/
theorem Canonical.lo_le {range : ClosedInterval α} {ranges : List (ClosedInterval α)} {x : α}
    (canon : Canonical (range :: ranges)) (member : x ∈ denote (range :: ranges)) :
    range.lo ≤ x := by
  obtain ⟨proper, apart, _⟩ := canonical_cons.mp canon
  rcases mem_denote_cons.mp member with inside | ⟨other, inRest, inside⟩
  · exact inside.1
  · calc range.lo ≤ range.hi := proper
      _ ≤ Order.succ range.hi := Order.le_succ _
      _ ≤ other.lo := (apart other inRest).le
      _ ≤ x := inside.1

/-- The point right after the first interval is missing. -/
theorem Canonical.succ_hi_notMem {range : ClosedInterval α} {ranges : List (ClosedInterval α)} {y : α}
    (canon : Canonical (range :: ranges)) (above : range.hi < y) (next : y ≤ Order.succ range.hi) :
    y ∉ denote (range :: ranges) := by
  intro member
  obtain ⟨_, apart, _⟩ := canonical_cons.mp canon
  rcases mem_denote_cons.mp member with inside | ⟨other, inRest, inside⟩
  · exact absurd inside.2 above.not_ge
  · exact absurd (next.trans_lt (apart other inRest)) inside.1.not_gt

/-- An interval inside a canonical list lies inside one of its intervals. -/
theorem Canonical.exists_of_Icc_subset {ranges : List (ClosedInterval α)} (canon : Canonical ranges) {lo hi : α}
    (ordered : lo ≤ hi) (inside : Set.Icc lo hi ⊆ denote ranges) : ∃ range ∈ ranges, range.lo ≤ lo ∧ hi ≤ range.hi := by
  obtain ⟨range, member, starts, reaches⟩ := mem_denote.mp (inside (Set.left_mem_Icc.mpr ordered))
  refine ⟨range, member, starts, ?_⟩
  by_contra short
  have short := not_le.mp short
  have above := Order.lt_succ_of_not_isMax fun top : IsMax range.hi => top.not_lt short
  obtain ⟨before, after, rfl⟩ := List.append_of_mem member
  obtain ⟨-, later, gaps⟩ := canonical_append.mp canon
  -- The point after the interval is in none of the others.
  rcases mem_denote_append.mp (inside ⟨reaches.trans above.le, Order.succ_le_of_lt short⟩) with early | late
  · obtain ⟨other, here, -, last⟩ := mem_denote.mp early
    have apart : other.hi < range.hi :=
      ((Order.le_succ _).trans_lt (gaps other here range List.mem_cons_self)).trans_le (starts.trans reaches)
    exact absurd (above.trans_le last) apart.not_gt
  · exact later.succ_hi_notMem above le_rfl late

theorem Canonical.hi_le_hi {range other : ClosedInterval α} {ranges others : List (ClosedInterval α)}
    (canon : Canonical (range :: ranges)) (proper : range.lo ≤ range.hi)
    (starts : other.lo = range.lo)
    (same : denote (range :: ranges) = denote (other :: others)) : other.hi ≤ range.hi := by
  by_contra longer
  have longer := not_le.mp longer
  have notMax : ¬ IsMax range.hi := fun top => (top.not_lt longer).elim
  have above := Order.lt_succ_of_not_isMax notMax
  have missing := canon.succ_hi_notMem above le_rfl
  rw [same] at missing
  exact missing (mem_denote_cons.mpr (.inl
    ⟨starts ▸ proper.trans (Order.le_succ _), Order.succ_le_of_lt longer⟩))

theorem Canonical.denote_tail {range : ClosedInterval α} {ranges : List (ClosedInterval α)}
    (canon : Canonical (range :: ranges)) :
    denote ranges = {x ∈ denote (range :: ranges) | range.hi < x} := by
  obtain ⟨_, apart, _⟩ := canonical_cons.mp canon
  ext x
  constructor
  · rintro ⟨other, inRest, inside⟩
    refine ⟨mem_denote_cons.mpr (.inr ⟨other, inRest, inside⟩), ?_⟩
    exact ((Order.le_succ _).trans_lt (apart other inRest)).trans_le inside.1
  · rintro ⟨member, above⟩
    rcases mem_denote_cons.mp member with inside | inRest
    · exact absurd inside.2 above.not_ge
    · exact inRest

/-- Canonical lists that denote the same set are equal. -/
theorem Canonical.eq_of_denote_eq {first second : List (ClosedInterval α)}
    (canonFirst : Canonical first) (canonSecond : Canonical second)
    (same : denote first = denote second) : first = second := by
  induction first generalizing second with
  | nil =>
      cases second with
      | nil => rfl
      | cons other others =>
          have proper := (canonical_cons.mp canonSecond).1
          have member : other.lo ∈ denote (other :: others) :=
            mem_denote_cons.mpr (.inl ⟨le_rfl, proper⟩)
          rw [← same, denote_nil] at member
          cases member
  | cons range ranges ih =>
      have proper := (canonical_cons.mp canonFirst).1
      cases second with
      | nil =>
          have member : range.lo ∈ denote (range :: ranges) :=
            mem_denote_cons.mpr (.inl ⟨le_rfl, proper⟩)
          rw [same, denote_nil] at member
          cases member
      | cons other others =>
          have properOther := (canonical_cons.mp canonSecond).1
          have starts : other.lo = range.lo := by
            apply le_antisymm
            · exact canonSecond.lo_le (same ▸ mem_denote_cons.mpr (.inl ⟨le_rfl, proper⟩))
            · exact canonFirst.lo_le (same.symm ▸ mem_denote_cons.mpr (.inl ⟨le_rfl, properOther⟩))
          have ends : other.hi = range.hi :=
            le_antisymm (canonFirst.hi_le_hi proper starts same)
              (canonSecond.hi_le_hi properOther starts.symm same.symm)
          have tails : ranges = others := by
            apply ih (canonical_cons.mp canonFirst).2.2 (canonical_cons.mp canonSecond).2.2
            rw [canonFirst.denote_tail, canonSecond.denote_tail, same, ends]
          have heads : range = other := by
            cases range
            cases other
            exact congrArg₂ ClosedInterval.mk starts.symm ends.symm
          rw [heads, tails]

end IntervalList

end XWrt.Foundation
