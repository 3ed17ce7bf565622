import Mathlib.Algebra.Order.SuccPred
import Mathlib.Data.Int.ConditionallyCompleteOrder
import Mathlib.Data.Int.SuccPred
import Mathlib.Data.List.Pairwise
import XWrt.Foundation.Double
import XWrt.Foundation.IntervalList

/-!
# Range sets

The range-set operations of `ipops.lua`. A range `{s, e}` is a closed interval
of integers and a range set is the list the Lua loops rebuild. Each loop is a
left fold over the old list with the accumulators of the source. The numbers of
Lua are doubles: past `2 ^ 53` the number after an end is rounded, and a set
takes two ranges for adjacent that have a number between them.
-/

namespace XWrt.Ipops

open XWrt.Foundation
open XWrt.Foundation.IntervalList
open XWrt.Foundation.Double (IsDouble)

abbrev Range := ClosedInterval Int
abbrev RangeSet := List Range

/-- `x + y` on Lua numbers. -/
def plus (x y : Int) : Int := Double.roundInt (x + y)

/-! ## Insertion -/

/-- The body of the loop in `rangeSet_add_range`: the list built so far and the
pending range, against one old range. -/
def addStep (state : RangeSet × Range) (r : Range) : RangeSet × Range :=
  let (rangeSetNew, range) := state
  if range.lo < r.lo then
    if range.hi < r.lo then
      if plus range.hi 1 < r.lo then (rangeSetNew ++ [range], r)
      else (rangeSetNew, ⟨range.lo, r.hi⟩)
    else if range.hi ≤ r.hi then (rangeSetNew, ⟨range.lo, r.hi⟩)
    else (rangeSetNew, range)
  else if range.lo ≤ r.hi then
    if range.hi ≤ r.hi then (rangeSetNew, ⟨r.lo, r.hi⟩)
    else (rangeSetNew, ⟨r.lo, range.hi⟩)
  else if range.lo = plus r.hi 1 then (rangeSetNew, ⟨r.lo, range.hi⟩)
  else (rangeSetNew ++ [r], range)

/-- `rangeSet_add_range`. A `nil` range is ignored. -/
def rangeSetAddRange (rangeSet : RangeSet) : Option Range → RangeSet
  | none => rangeSet
  | some range =>
      if rangeSet.length = 0 then [range]
      else
        let (rangeSetNew, last) := rangeSet.foldl addStep ([], range)
        rangeSetNew ++ [last]

/-! ## Deletion and difference -/

/-- The body of the loop in `rangeSet_del_range`. -/
def delStep (range : Range) (rangeSetNew : RangeSet) (r : Range) : RangeSet :=
  if r.hi < range.lo then rangeSetNew ++ [r]
  else
    let kept :=
      if r.lo < range.lo then rangeSetNew ++ [⟨r.lo, plus range.lo (-1)⟩] else rangeSetNew
    if r.hi > range.hi then
      if r.lo > range.hi then kept ++ [r] else kept ++ [⟨plus range.hi 1, r.hi⟩]
    else kept

/-- `rangeSet_del_range`. -/
def rangeSetDelRange (rangeSet : RangeSet) : Option Range → RangeSet
  | none => rangeSet
  | some range =>
      if rangeSet.length = 0 then rangeSet else rangeSet.foldl (delStep range) []

/-- `rangeSet_sub_rangeSet`. -/
def rangeSetSubRangeSet (rangeSetA rangeSetB : RangeSet) : RangeSet :=
  if rangeSetA.length = 0 then rangeSetA
  else rangeSetB.foldl (fun rangeSet range => rangeSetDelRange rangeSet (some range)) rangeSetA

/-! ## Ranges of doubles -/

/-- Both ends are doubles. -/
def Doubles (range : Range) : Prop := IsDouble range.lo ∧ IsDouble range.hi

/-- The ends are numbers up to which Lua counts without gaps. -/
def Small (range : Range) : Prop := -2 ^ 53 ≤ range.lo ∧ range.hi ≤ 2 ^ 53

/-- The test of the insertion for ranges that are not merged. -/
def Apart (first second : Range) : Prop := plus first.hi 1 < second.lo

/-- `x` lies between two ranges that Lua takes for adjacent. -/
def Between (first second : Range) (x : Int) : Prop :=
  first.hi < x ∧ x < second.lo ∧ second.lo ≤ plus first.hi 1

/-- The numbers of the ranges, and those between ranges that Lua takes for adjacent. -/
def joined (ranges : RangeSet) : Set Int :=
  denote ranges ∪ {x | ∃ first ∈ ranges, ∃ second ∈ ranges, Between first second x}

theorem gap_iff (first second : Range) : Gap first second ↔ first.hi + 1 < second.lo := Iff.rfl

theorem plus_exact {x y : Int} (least : -2 ^ 53 ≤ x + y) (most : x + y ≤ 2 ^ 53) : plus x y = x + y :=
  Double.roundInt_exact least most

theorem le_plus_one {x : Int} (double : IsDouble x) : x ≤ plus x 1 := double.le_round (by omega)

theorem plus_one_le {x y : Int} (double : IsDouble y) (above : x < y) : plus x 1 ≤ y := double.round_le above

/-- Ranges that are not merged have a number between them. -/
theorem Apart.gap {first second : Range} (apart : Apart first second) (here : Doubles first) (there : Doubles second) :
    Gap first second := by
  have above : first.hi < second.lo := (le_plus_one here.2).trans_lt apart
  rcases (show first.hi + 1 ≤ second.lo from above).eq_or_lt with next | further
  · -- The number after the first range is a double, so that it is not rounded.
    have exact : plus first.hi 1 = second.lo := by rw [plus, next, there.1]
    exact absurd exact apart.ne
  · exact further

theorem Gap.apart {first second : Range} (gap : Gap first second) (here : Small first) (there : Small second)
    (proper : first.lo ≤ first.hi) (proper' : second.lo ≤ second.hi) : Apart first second := by
  rw [gap_iff] at gap
  rw [Apart, plus_exact] <;> unfold Small at here there <;> omega

theorem Small.doubles {range : Range} (small : Small range) (proper : range.lo ≤ range.hi) : Doubles range :=
  ⟨Double.isDouble_of_small small.1 (proper.trans small.2), Double.isDouble_of_small (small.1.trans proper) small.2⟩

/-- Small ranges that Lua takes for adjacent are. -/
theorem joined_small {ranges : RangeSet} (small : ∀ range ∈ ranges, Small range) (proper : ∀ range ∈ ranges, range.lo ≤ range.hi) :
    joined ranges = denote ranges := by
  apply Set.union_eq_self_of_subset_right
  rintro x ⟨first, isFirst, second, isSecond, above, below, adjacent⟩
  have least := (small first isFirst).1.trans (proper first isFirst)
  have most := (proper second isSecond).trans (small second isSecond).2
  rw [plus_exact (by omega) (by omega)] at adjacent
  omega

/-! ## The insertion loop -/

/-- Proper ranges of doubles in ascending order that are not merged. -/
structure Separate (rangeSet : RangeSet) : Prop where
  proper : ∀ range ∈ rangeSet, range.lo ≤ range.hi
  doubles : ∀ range ∈ rangeSet, Doubles range
  apart : rangeSet.Pairwise Apart

namespace Separate

theorem nil : Separate [] := ⟨List.forall_mem_nil _, List.forall_mem_nil _, .nil⟩

theorem canonical {rangeSet : RangeSet} (separate : Separate rangeSet) : Canonical rangeSet :=
  ⟨separate.proper, separate.apart.imp_of_mem fun isFirst isSecond apart =>
    apart.gap (separate.doubles _ isFirst) (separate.doubles _ isSecond)⟩

theorem of_canonical {rangeSet : RangeSet} (canon : Canonical rangeSet) (small : ∀ range ∈ rangeSet, Small range) :
    Separate rangeSet where
  proper := canon.proper
  doubles range member := (small range member).doubles (canon.proper range member)
  apart := canon.gaps.imp_of_mem fun isFirst isSecond gap =>
    Gap.apart gap (small _ isFirst) (small _ isSecond) (canon.proper _ isFirst) (canon.proper _ isSecond)

theorem append {first second : RangeSet} : Separate (first ++ second) ↔
    Separate first ∧ Separate second ∧ ∀ range ∈ first, ∀ other ∈ second, Apart range other := by
  constructor
  · rintro ⟨proper, doubles, apart⟩
    rw [List.forall_mem_append] at proper doubles
    obtain ⟨apartFirst, apartSecond, across⟩ := List.pairwise_append.mp apart
    exact ⟨⟨proper.1, doubles.1, apartFirst⟩, ⟨proper.2, doubles.2, apartSecond⟩, across⟩
  · rintro ⟨one, two, across⟩
    exact ⟨List.forall_mem_append.mpr ⟨one.proper, two.proper⟩, List.forall_mem_append.mpr ⟨one.doubles, two.doubles⟩,
      List.pairwise_append.mpr ⟨one.apart, two.apart, across⟩⟩

theorem singleton {range : Range} (proper : range.lo ≤ range.hi) (doubles : Doubles range) : Separate [range] :=
  ⟨by simpa using proper, by simpa using doubles, List.pairwise_singleton _ _⟩

theorem cons {range : Range} {rest : RangeSet} : Separate (range :: rest) ↔
    range.lo ≤ range.hi ∧ Doubles range ∧ (∀ other ∈ rest, Apart range other) ∧ Separate rest := by
  constructor
  · rintro ⟨proper, doubles, apart⟩
    rw [List.forall_mem_cons] at proper doubles
    exact ⟨proper.1, doubles.1, (List.pairwise_cons.mp apart).1, proper.2, doubles.2, (List.pairwise_cons.mp apart).2⟩
  · rintro ⟨proper, doubles, across, rest⟩
    exact ⟨List.forall_mem_cons.mpr ⟨proper, rest.proper⟩, List.forall_mem_cons.mpr ⟨doubles, rest.doubles⟩,
      List.pairwise_cons.mpr ⟨across, rest.apart⟩⟩

end Separate

/-- What the loop keeps true of the built list and the pending range while the
old ranges `rest` are still to come. -/
structure AddInvariant (state : RangeSet × Range) (rest : RangeSet) : Prop where
  built : Separate state.1
  pending : state.2.lo ≤ state.2.hi
  doubles : Doubles state.2
  old : Separate rest
  apart : ∀ range ∈ state.1, Apart range state.2
  apartRest : ∀ range ∈ state.1, ∀ other ∈ rest, Apart range other

theorem addStep_invariant {state : RangeSet × Range} {r : Range} {rest : RangeSet}
    (inv : AddInvariant state (r :: rest)) : AddInvariant (addStep state r) rest := by
  obtain ⟨rangeSetNew, range⟩ := state
  obtain ⟨built, pending, doubles, old, apart, apartRest⟩ := inv
  obtain ⟨proper, oldDoubles, gaps, restSeparate⟩ := Separate.cons.mp old
  simp only at built pending doubles apart apartRest
  have beforeOld : ∀ other ∈ rangeSetNew, Apart other r := fun other member => apartRest other member r (.head _)
  have beforeRest : ∀ other ∈ rangeSetNew, ∀ next ∈ rest, Apart other next :=
    fun other member next inRest => apartRest other member next (.tail _ inRest)
  have oldNext := le_plus_one oldDoubles.2
  -- Every merge keeps the built list; the new pending range starts at one of
  -- the two old starts, and both are past the built list.
  have merged (lo hi : Int) (start : lo = range.lo ∨ lo = r.lo) (stop : hi = range.hi ∨ hi = r.hi) (ordered : lo ≤ hi) :
      AddInvariant (rangeSetNew, ⟨lo, hi⟩) rest := by
    refine ⟨built, ordered, ⟨?_, ?_⟩, restSeparate, fun other member => ?_, beforeRest⟩
    · rcases start with rfl | rfl
      · exact doubles.1
      · exact oldDoubles.1
    · rcases stop with rfl | rfl
      · exact doubles.2
      · exact oldDoubles.2
    · rcases start with rfl | rfl
      · exact apart other member
      · exact beforeOld other member
  unfold addStep
  dsimp only
  split_ifs with starts ends distant short long longer adjacent
  · refine ⟨Separate.append.mpr ⟨built, .singleton pending doubles, by simpa using apart⟩, proper, oldDoubles, restSeparate, ?_, ?_⟩
    · simp only [List.mem_append, List.mem_singleton]
      rintro other (member | rfl)
      · exact beforeOld other member
      · exact distant
    · simp only [List.mem_append, List.mem_singleton]
      rintro other (member | rfl) next inRest
      · exact beforeRest other member next inRest
      · have further : plus r.hi 1 < next.lo := gaps next inRest
        exact (distant.trans_le (proper.trans oldNext)).trans further
  · exact merged _ _ (.inl rfl) (.inr rfl) (by omega)
  · exact merged _ _ (.inl rfl) (.inr rfl) (by omega)
  · exact merged _ _ (.inl rfl) (.inl rfl) pending
  · exact merged _ _ (.inr rfl) (.inr rfl) proper
  · exact merged _ _ (.inr rfl) (.inl rfl) (by omega)
  · exact merged _ _ (.inr rfl) (.inl rfl) (by omega)
  · have next : plus r.hi 1 ≤ range.lo := plus_one_le doubles.1 (by omega)
    refine ⟨Separate.append.mpr ⟨built, .singleton proper oldDoubles, by simpa using beforeOld⟩, pending, doubles, restSeparate, ?_, ?_⟩
    · simp only [List.mem_append, List.mem_singleton]
      rintro other (member | rfl)
      · exact apart other member
      · exact next.lt_of_ne' adjacent
    · simp only [List.mem_append, List.mem_singleton]
      rintro other (member | rfl) next inRest
      · exact beforeRest other member next inRest
      · exact gaps next inRest

/-- The ranges `working` stand for the ranges that were put in: their ends are ends of
these, they hold all their numbers and no other ones than those between adjacent ranges. -/
structure StandFor (working ranges : RangeSet) : Prop where
  starts : ∀ range ∈ working, ∃ other ∈ ranges, range.lo = other.lo
  stops : ∀ range ∈ working, ∃ other ∈ ranges, range.hi = other.hi
  covers : denote ranges ⊆ denote working
  within : denote working ⊆ joined ranges

theorem StandFor.refl (ranges : RangeSet) : StandFor ranges ranges :=
  ⟨fun range member => ⟨range, member, rfl⟩, fun range member => ⟨range, member, rfl⟩, subset_rfl,
    Set.subset_union_left⟩

/-- One round puts the old range into the built list or the pending range. What it adds
lies between the two. -/
theorem addStep_denote (state : RangeSet × Range) (r : Range) (rest : RangeSet) (pending : state.2.lo ≤ state.2.hi)
    (doubles : Doubles state.2) (proper : r.lo ≤ r.hi) (oldDoubles : Doubles r) (x : Int) :
    x ∈ denote ((addStep state r).1 ++ (addStep state r).2 :: rest) ↔
      x ∈ denote (state.1 ++ state.2 :: r :: rest) ∨ Between state.2 r x ∨ Between r state.2 x := by
  obtain ⟨rangeSetNew, range⟩ := state
  simp only at pending doubles
  have next := le_plus_one doubles.2
  have oldNext := le_plus_one oldDoubles.2
  have before : r.hi < range.lo → plus r.hi 1 ≤ range.lo := plus_one_le doubles.1
  have after : range.hi < r.lo → plus range.hi 1 ≤ r.lo := plus_one_le oldDoubles.1
  unfold addStep Between
  dsimp only
  split_ifs <;>
    simp only [mem_denote_append, mem_denote_cons, denote_nil, Set.mem_empty_iff_false, or_false] <;>
    by_cases inBuilt : x ∈ denote rangeSetNew <;> by_cases inRest : x ∈ denote rest <;>
    simp only [inBuilt, inRest, true_or, or_true, false_or, or_false] <;>
    omega

/-- Every start of a range after the round is one from before it. -/
theorem addStep_starts (state : RangeSet × Range) (r : Range) (rest : RangeSet) :
    ∀ range ∈ (addStep state r).1 ++ (addStep state r).2 :: rest, ∃ other ∈ state.1 ++ state.2 :: r :: rest,
      range.lo = other.lo := by
  obtain ⟨rangeSetNew, range⟩ := state
  unfold addStep
  dsimp only
  split_ifs <;> simp only [List.append_assoc, List.mem_append, List.mem_cons] <;> grind

theorem addStep_stops (state : RangeSet × Range) (r : Range) (rest : RangeSet) :
    ∀ range ∈ (addStep state r).1 ++ (addStep state r).2 :: rest, ∃ other ∈ state.1 ++ state.2 :: r :: rest,
      range.hi = other.hi := by
  obtain ⟨rangeSetNew, range⟩ := state
  unfold addStep
  dsimp only
  split_ifs <;> simp only [List.append_assoc, List.mem_append, List.mem_cons] <;> grind

theorem addStep_standFor {state : RangeSet × Range} {r : Range} {rest ranges : RangeSet}
    (inv : AddInvariant state (r :: rest)) (stand : StandFor (state.1 ++ state.2 :: r :: rest) ranges) :
    StandFor ((addStep state r).1 ++ (addStep state r).2 :: rest) ranges := by
  obtain ⟨proper, oldDoubles, -⟩ := Separate.cons.mp inv.old
  have points := addStep_denote state r rest inv.pending inv.doubles proper oldDoubles
  have isPending : state.2 ∈ state.1 ++ state.2 :: r :: rest := by simp
  have isOld : r ∈ state.1 ++ state.2 :: r :: rest := by simp
  -- A number between two working ranges lies between the ranges that gave them their ends.
  have between {first second : Range} {x : Int} (isFirst : first ∈ state.1 ++ state.2 :: r :: rest)
      (isSecond : second ∈ state.1 ++ state.2 :: r :: rest) (inside : Between first second x) : x ∈ joined ranges := by
    obtain ⟨one, isOne, stop⟩ := stand.stops first isFirst
    obtain ⟨two, isTwo, start⟩ := stand.starts second isSecond
    refine Or.inr ⟨one, isOne, two, isTwo, ?_⟩
    rwa [Between, ← stop, ← start]
  refine ⟨fun range member => ?_, fun range member => ?_, fun x inside => ?_, fun x inside => ?_⟩
  · obtain ⟨other, isOther, same⟩ := addStep_starts state r rest range member
    obtain ⟨origin, isOrigin, start⟩ := stand.starts other isOther
    exact ⟨origin, isOrigin, same.trans start⟩
  · obtain ⟨other, isOther, same⟩ := addStep_stops state r rest range member
    obtain ⟨origin, isOrigin, stop⟩ := stand.stops other isOther
    exact ⟨origin, isOrigin, same.trans stop⟩
  · exact (points x).mpr (Or.inl (stand.covers inside))
  · rcases (points x).mp inside with already | before | after
    · exact stand.within already
    · exact between isPending isOld before
    · exact between isOld isPending after

theorem addLoop_spec {ranges : RangeSet} (rest : RangeSet) (state : RangeSet × Range) (inv : AddInvariant state rest)
    (stand : StandFor (state.1 ++ state.2 :: rest) ranges) :
    let final := rest.foldl addStep state
    Separate (final.1 ++ [final.2]) ∧ StandFor (final.1 ++ [final.2]) ranges := by
  induction rest generalizing state with
  | nil =>
      exact ⟨Separate.append.mpr ⟨inv.built, .singleton inv.pending inv.doubles, by simpa using inv.apart⟩, stand⟩
  | cons r rest ih => exact ih (addStep state r) (addStep_invariant inv) (addStep_standFor inv stand)

/-- A separate set that stands for some ranges holds their numbers and those between
adjacent ones. -/
theorem StandFor.denote_eq {rangeSet ranges : RangeSet} (stand : StandFor rangeSet ranges) (separate : Separate rangeSet)
    (proper : ∀ range ∈ ranges, range.lo ≤ range.hi) : denote rangeSet = joined ranges := by
  apply stand.within.antisymm
  rintro x (inside | ⟨first, isFirst, second, isSecond, above, below, adjacent⟩)
  · exact stand.covers inside
  · have here : first.hi ∈ denote rangeSet := stand.covers ⟨first, isFirst, proper first isFirst, le_rfl⟩
    have there : second.lo ∈ denote rangeSet := stand.covers ⟨second, isSecond, le_rfl, proper second isSecond⟩
    obtain ⟨one, isOne, starts, reaches⟩ := here
    obtain ⟨two, isTwo, starts', reaches'⟩ := there
    by_contra outside
    have short : one.hi < x := by
      by_contra long
      exact outside ⟨one, isOne, starts.trans above.le, not_lt.mp long⟩
    have late : x < two.lo := by
      by_contra early
      exact outside ⟨two, isTwo, not_lt.mp early, below.le.trans reaches'⟩
    -- The two ranges of the set are apart, so that those put in are not adjacent.
    have apart : Apart one two := by
      have differ : one ≠ two := by
        rintro rfl
        have := separate.proper one isOne
        omega
      have either : rangeSet.Pairwise fun one two => Apart one two ∨ Apart two one := separate.apart.imp Or.inl
      have symmetric : Std.Symm fun one two => Apart one two ∨ Apart two one := ⟨fun _ _ => Or.symm⟩
      rcases either.forall isOne isTwo differ with right | wrong
      · exact right
      · have := le_plus_one (separate.doubles two isTwo).2
        have := separate.proper two isTwo
        have := separate.proper one isOne
        unfold Apart at wrong
        omega
    have order : plus first.hi 1 ≤ plus one.hi 1 := Double.roundInt_mono (by omega)
    unfold Apart at apart
    omega

theorem rangeSetAddRange_standFor {rangeSet ranges : RangeSet} (separate : Separate rangeSet) (stand : StandFor rangeSet ranges)
    {range : Range} (proper : range.lo ≤ range.hi) (doubles : Doubles range) :
    Separate (rangeSetAddRange rangeSet (some range)) ∧ StandFor (rangeSetAddRange rangeSet (some range)) (range :: ranges) := by
  have start : AddInvariant ([], range) rangeSet :=
    ⟨.nil, proper, doubles, separate, List.forall_mem_nil _, List.forall_mem_nil _⟩
  have both : StandFor (range :: rangeSet) (range :: ranges) := by
    refine ⟨?_, ?_, fun x inside => ?_, fun x inside => ?_⟩
    · refine List.forall_mem_cons.mpr ⟨⟨range, List.mem_cons_self, rfl⟩, fun other member => ?_⟩
      obtain ⟨origin, isOrigin, same⟩ := stand.starts other member
      exact ⟨origin, List.mem_cons_of_mem _ isOrigin, same⟩
    · refine List.forall_mem_cons.mpr ⟨⟨range, List.mem_cons_self, rfl⟩, fun other member => ?_⟩
      obtain ⟨origin, isOrigin, same⟩ := stand.stops other member
      exact ⟨origin, List.mem_cons_of_mem _ isOrigin, same⟩
    · exact mem_denote_cons.mpr ((mem_denote_cons.mp inside).imp_right (stand.covers ·))
    · rcases mem_denote_cons.mp inside with here | there
      · exact Or.inl (mem_denote_cons.mpr (Or.inl here))
      · rcases stand.within there with already | ⟨first, isFirst, second, isSecond, between⟩
        · exact Or.inl (mem_denote_cons.mpr (Or.inr already))
        · exact Or.inr ⟨first, List.mem_cons_of_mem _ isFirst, second, List.mem_cons_of_mem _ isSecond, between⟩
  cases rangeSet with
  | nil => exact ⟨.singleton proper doubles, both⟩
  | cons first rest => exact addLoop_spec (first :: rest) ([], range) start both

theorem StandFor.small {working ranges : RangeSet} (stand : StandFor working ranges) (small : ∀ range ∈ ranges, Small range) :
    ∀ range ∈ working, Small range := by
  intro range member
  obtain ⟨first, isFirst, start⟩ := stand.starts range member
  obtain ⟨last, isLast, stop⟩ := stand.stops range member
  exact ⟨start ▸ (small first isFirst).1, stop ▸ (small last isLast).2⟩

/-- A canonical set of small ranges. -/
structure SmallSet (rangeSet : RangeSet) : Prop where
  canon : Canonical rangeSet
  small : ∀ range ∈ rangeSet, Small range

theorem rangeSetAddRange_spec {rangeSet : RangeSet} (set : SmallSet rangeSet) {range : Range} (proper : range.lo ≤ range.hi)
    (small : Small range) :
    SmallSet (rangeSetAddRange rangeSet (some range)) ∧
      denote (rangeSetAddRange rangeSet (some range)) = denote rangeSet ∪ Set.Icc range.lo range.hi := by
  have separate := Separate.of_canonical set.canon set.small
  obtain ⟨separate', stand⟩ := rangeSetAddRange_standFor separate (.refl rangeSet) proper (small.doubles proper)
  have allProper : ∀ other ∈ range :: rangeSet, other.lo ≤ other.hi := List.forall_mem_cons.mpr ⟨proper, separate.proper⟩
  have allSmall : ∀ other ∈ range :: rangeSet, Small other := List.forall_mem_cons.mpr ⟨small, set.small⟩
  refine ⟨⟨separate'.canonical, stand.small allSmall⟩, ?_⟩
  rw [stand.denote_eq separate' allProper, joined_small allSmall allProper]
  ext x
  rw [mem_denote_cons, Set.mem_union, Set.mem_Icc, or_comm]

/-! ## The deletion loop -/

/-- The pieces of one old range that survive the deletion. -/
def delPieces (range r : Range) : RangeSet := delStep range [] r

theorem delStep_eq_append (range : Range) (rangeSetNew : RangeSet) (r : Range) :
    delStep range rangeSetNew r = rangeSetNew ++ delPieces range r := by
  unfold delPieces delStep
  dsimp only
  split_ifs <;> simp

theorem delLoop_eq_flatMap (range : Range) (rest rangeSetNew : RangeSet) :
    rest.foldl (delStep range) rangeSetNew = rangeSetNew ++ rest.flatMap (delPieces range) := by
  induction rest generalizing rangeSetNew with
  | nil => simp
  | cons r rest ih => rw [List.foldl_cons, ih, delStep_eq_append, List.flatMap_cons, List.append_assoc]

theorem rangeSetDelRange_eq_flatMap (rangeSet : RangeSet) (range : Range) :
    rangeSetDelRange rangeSet (some range) = rangeSet.flatMap (delPieces range) := by
  cases rangeSet with
  | nil => rfl
  | cons r rest => exact delLoop_eq_flatMap range (r :: rest) []

section Pieces

variable {range r : Range} (ordered : range.lo ≤ range.hi) (proper : r.lo ≤ r.hi) (small : Small range) (oldSmall : Small r)
include ordered proper small oldSmall

/-- What survives is the part before the deleted range and the part after it. -/
theorem delPieces_eq :
    delPieces range r =
      (if r.lo < range.lo then [⟨r.lo, min r.hi (range.lo - 1)⟩] else []) ++
        (if range.hi < r.hi then [⟨max r.lo (range.hi + 1), r.hi⟩] else []) := by
  have previous : r.lo < range.lo → plus range.lo (-1) = range.lo - 1 := fun after => by
    rw [plus_exact] <;> unfold Small at small oldSmall <;> omega
  have next : range.hi < r.hi → plus range.hi 1 = range.hi + 1 := fun before => by
    rw [plus_exact] <;> unfold Small at small oldSmall <;> omega
  clear small oldSmall
  obtain ⟨lo, hi⟩ := r
  simp only at proper previous next
  unfold delPieces delStep
  dsimp only
  split_ifs <;>
    simp only [List.nil_append, List.append_nil, List.cons_append, List.cons.injEq, and_true,
      ClosedInterval.mk.injEq, true_and, reduceCtorEq] <;>
    omega

theorem delPieces_within {piece : Range} (member : piece ∈ delPieces range r) : r.lo ≤ piece.lo ∧ piece.hi ≤ r.hi := by
  rw [delPieces_eq ordered proper small oldSmall] at member
  rcases List.mem_append.mp member with member | member
  · split_ifs at member
    · rw [List.mem_singleton.mp member]
      exact ⟨le_rfl, min_le_left _ _⟩
    · cases member
  · split_ifs at member
    · rw [List.mem_singleton.mp member]
      exact ⟨le_max_left _ _, le_rfl⟩
    · cases member

theorem delPieces_canonical : Canonical (delPieces range r) := by
  rw [delPieces_eq ordered proper small oldSmall]
  clear small oldSmall
  refine canonical_append.mpr ⟨?_, ?_, ?_⟩
  · split_ifs
    · exact canonical_singleton (by simp only; omega)
    · exact canonical_nil
  · split_ifs
    · exact canonical_singleton (by simp only; omega)
    · exact canonical_nil
  · intro left inLeft right inRight
    split_ifs at inLeft inRight
    · rw [List.mem_singleton.mp inLeft, List.mem_singleton.mp inRight, gap_iff]
      simp only
      omega
    all_goals simp at inLeft inRight

theorem mem_denote_delPieces (x : Int) :
    x ∈ denote (delPieces range r) ↔ (r.lo ≤ x ∧ x ≤ r.hi) ∧ ¬ (range.lo ≤ x ∧ x ≤ range.hi) := by
  rw [delPieces_eq ordered proper small oldSmall]
  clear small oldSmall
  split_ifs <;>
    simp only [mem_denote_append, mem_denote_cons, denote_nil, Set.mem_empty_iff_false, or_false,
      false_or, false_iff] <;>
    omega

end Pieces

theorem rangeSetDelRange_spec {rangeSet : RangeSet} (set : SmallSet rangeSet) {range : Range}
    (proper : range.lo ≤ range.hi) (small : Small range) :
    SmallSet (rangeSetDelRange rangeSet (some range)) ∧
      denote (rangeSetDelRange rangeSet (some range)) = denote rangeSet \ Set.Icc range.lo range.hi := by
  rw [rangeSetDelRange_eq_flatMap]
  induction rangeSet with
  | nil => exact ⟨⟨canonical_nil, List.forall_mem_nil _⟩, by simp⟩
  | cons r rest ih =>
      obtain ⟨properOld, gaps, restCanon⟩ := canonical_cons.mp set.canon
      obtain ⟨oldSmall, restSmall⟩ := List.forall_mem_cons.mp set.small
      obtain ⟨⟨tailCanon, tailSmall⟩, tailDenote⟩ := ih ⟨restCanon, restSmall⟩
      rw [List.flatMap_cons]
      refine ⟨⟨canonical_append.mpr ⟨delPieces_canonical proper properOld small oldSmall, tailCanon, ?_⟩,
        List.forall_mem_append.mpr ⟨fun piece member => ?_, tailSmall⟩⟩, ?_⟩
      · intro piece member other inTail
        obtain ⟨next, inRest, inPieces⟩ := List.mem_flatMap.mp inTail
        have left := (delPieces_within proper properOld small oldSmall member).2
        have right := (delPieces_within proper (restCanon.proper next inRest) small (restSmall next inRest) inPieces).1
        have apart := gaps next inRest
        rw [gap_iff] at apart ⊢
        omega
      · obtain ⟨starts, stops⟩ := delPieces_within proper properOld small oldSmall member
        exact ⟨oldSmall.1.trans starts, stops.trans oldSmall.2⟩
      · ext x
        rw [mem_denote_append, tailDenote, mem_denote_delPieces proper properOld small oldSmall]
        simp only [Set.mem_sdiff, mem_denote_cons, Set.mem_Icc]
        tauto

/-! ## Runs of operations -/

/-- A range with `s <= e`, the only ranges the callers build. -/
abbrev ProperRange := {range : Range // range.lo ≤ range.hi}

/-- One call of a range-set operation on the set kept so far. -/
inductive Operation where
  | add (range : ProperRange)
  | del (range : ProperRange)
  | sub (rangeSetB : List ProperRange)

def Operation.apply (rangeSet : RangeSet) : Operation → RangeSet
  | .add range => rangeSetAddRange rangeSet (some range.1)
  | .del range => rangeSetDelRange rangeSet (some range.1)
  | .sub rangeSetB => rangeSetSubRangeSet rangeSet (rangeSetB.map Subtype.val)

/-- What the operation means for the set of integers. -/
def Operation.meaning (points : Set Int) : Operation → Set Int
  | .add range => points ∪ Set.Icc range.1.lo range.1.hi
  | .del range => points \ Set.Icc range.1.lo range.1.hi
  | .sub rangeSetB => points \ denote (rangeSetB.map Subtype.val)

/-- The operands are small. -/
def Operation.Small : Operation → Prop
  | .add range => Ipops.Small range.1
  | .del range => Ipops.Small range.1
  | .sub rangeSetB => ∀ range ∈ rangeSetB, Ipops.Small range.1

def runOperations (operations : List Operation) : RangeSet :=
  operations.foldl Operation.apply []

def meaningOf (operations : List Operation) : Set Int :=
  operations.foldl Operation.meaning ∅

theorem subLoop_spec {rangeSetB : List ProperRange} (small : ∀ range ∈ rangeSetB, Small range.1) {rangeSet : RangeSet}
    (set : SmallSet rangeSet) :
    let result := (rangeSetB.map Subtype.val).foldl (fun rs range => rangeSetDelRange rs (some range)) rangeSet
    SmallSet result ∧ denote result = denote rangeSet \ denote (rangeSetB.map Subtype.val) := by
  induction rangeSetB generalizing rangeSet with
  | nil => exact ⟨set, by simp⟩
  | cons range rest ih =>
      rw [List.forall_mem_cons] at small
      obtain ⟨stepSet, stepDenote⟩ := rangeSetDelRange_spec set range.2 small.1
      obtain ⟨resultSet, resultDenote⟩ := ih small.2 stepSet
      refine ⟨resultSet, ?_⟩
      simp only [List.map_cons, List.foldl_cons, resultDenote, stepDenote]
      ext x
      simp only [Set.mem_sdiff, mem_denote_cons, Set.mem_Icc]
      tauto

theorem rangeSetSubRangeSet_spec {rangeSet : RangeSet} (set : SmallSet rangeSet)
    {rangeSetB : List ProperRange} (small : ∀ range ∈ rangeSetB, Small range.1) :
    SmallSet (rangeSetSubRangeSet rangeSet (rangeSetB.map Subtype.val)) ∧
      denote (rangeSetSubRangeSet rangeSet (rangeSetB.map Subtype.val)) =
        denote rangeSet \ denote (rangeSetB.map Subtype.val) := by
  cases rangeSet with
  | nil => exact ⟨⟨canonical_nil, List.forall_mem_nil _⟩, by simp [rangeSetSubRangeSet]⟩
  | cons first rest => exact subLoop_spec small set

/-- One operation keeps the list canonical and acts on its points as it should. -/
theorem Operation.apply_spec {operation : Operation} (small : operation.Small) {rangeSet : RangeSet} (set : SmallSet rangeSet) :
    SmallSet (operation.apply rangeSet) ∧
      denote (operation.apply rangeSet) = operation.meaning (denote rangeSet) := by
  cases operation with
  | add range => exact rangeSetAddRange_spec set range.2 small
  | del range => exact rangeSetDelRange_spec set range.2 small
  | sub rangeSetB => exact rangeSetSubRangeSet_spec set small

theorem runOperations_spec {operations : List Operation} (small : ∀ operation ∈ operations, operation.Small) :
    Canonical (runOperations operations) ∧
      denote (runOperations operations) = meaningOf operations := by
  unfold runOperations meaningOf
  rw [← denote_nil (α := Int)]
  have run : ∀ rangeSet : RangeSet, SmallSet rangeSet →
      Canonical (operations.foldl Operation.apply rangeSet) ∧
        denote (operations.foldl Operation.apply rangeSet) =
          operations.foldl Operation.meaning (denote rangeSet) := by
    induction operations with
    | nil => exact fun _ set => ⟨set.canon, rfl⟩
    | cons operation rest ih =>
        intro rangeSet set
        rw [List.forall_mem_cons] at small
        obtain ⟨stepSet, stepDenote⟩ := operation.apply_spec small.1 set
        rw [List.foldl_cons, List.foldl_cons, ← stepDenote]
        exact ih small.2 _ stepSet
  exact run [] ⟨canonical_nil, List.forall_mem_nil _⟩

end XWrt.Ipops
