import Mathlib.Data.List.Induction
import XWrt.Ipops.Bits
import XWrt.Ipops.RangeSet

/-!
# Network strings

Parsing the address, prefix, netmask and range forms of `ipops.lua` into
ranges. Every maximal run of digits of the text is one number and the parser
looks at how many there are. Numbers are read and computed in doubles.
-/

namespace XWrt.Ipops

open XWrt.Foundation
open XWrt.Foundation.IntervalList

/-- The number that a run of digits writes. -/
def tonumber (part : List Char) : Nat :=
  part.foldl (fun n digit => n * 10 + (digit.toNat - '0'.toNat)) 0

/-- `get_parts_as_number`: the numbers matched by `"%d+"`, in order, as doubles. -/
def getPartsAsNumber (str : String) : List Nat :=
  ((str.toList.splitOnP fun char => !char.isDigit).filter fun part => part ≠ []).map fun part => Double.round (tonumber part)

/-- `n * 256 + part` in doubles, where the product is exact. -/
def shiftIn (n part : Nat) : Nat := Double.round (n * 256 + part)

/-- The four parts of an address as one integer. -/
def partsToInt (a b c d : Nat) : Nat := shiftIn (shiftIn (shiftIn a b) c) d

/-- `netString2range`. -/
def netString2range (netString : String) : Option Range :=
  match getPartsAsNumber netString with
  | [a, b, c, d] =>
      let i := partsToInt a b c d
      some ⟨i, i⟩
  | [a, b, c, d, cidr] =>
      if cidr ≤ 32 then
        let i := partsToInt a b c d
        let m := cidr2int cidr
        some ⟨band i m, bor i (bnot m)⟩
      else none
  | [a, b, c, d, a', b', c', d'] =>
      let i := partsToInt a b c d
      let m := partsToInt a' b' c' d'
      if '/' ∈ netString.toList then
        let s := band i m
        let e := bor s (bnot m)
        if s ≤ e then some ⟨s, e⟩ else none
      else if i ≤ m then some ⟨i, m⟩ else none
  | _ => none

/-- `netStringSet2rangeSet`. -/
def netStringSet2rangeSet (netStringSet : List String) : RangeSet :=
  netStringSet.foldl (fun rangeSet netString => rangeSetAddRange rangeSet (netString2range netString)) []

example : netString2range "192.168.11.6/24" = some ⟨3232238336, 3232238591⟩ := by decide +kernel

theorem shiftIn_exact {n part : Nat} (small : n * 256 + part < 2 ^ 32) : shiftIn n part = n * 256 + part :=
  Double.round_exact (small.le.trans (by decide))

theorem partsToInt_exact {a b c d : Nat} (small : ((a * 256 + b) * 256 + c) * 256 + d < 2 ^ 32) :
    partsToInt a b c d = ((a * 256 + b) * 256 + c) * 256 + d := by
  have grows (n part : Nat) : n ≤ n * 256 + part := by omega
  have second := (grows _ d).trans_lt small
  have first := (grows _ c).trans_lt second
  rw [partsToInt, shiftIn_exact first, shiftIn_exact second, shiftIn_exact small]

theorem isDouble_partsToInt (a b c d : Nat) : Double.IsDouble (partsToInt a b c d) :=
  Double.isDouble_roundInt (shiftIn (shiftIn a b) c * 256 + d : Nat)

theorem isDouble_bits {x : Int} (nonneg : 0 ≤ x) (below : x < 2 ^ 32) : Double.IsDouble x :=
  Double.isDouble_of_small (by omega) (by omega)

theorem band_le_bor_bnot (i cidr : Nat) (bound : cidr ≤ 32) :
    band i (cidr2int cidr) ≤ bor i (bnot (cidr2int cidr)) := by
  rw [bnot_cidr2int cidr bound, cidr2int_eq cidr bound, band_natCast, bor_natCast,
    Nat.and_mod_two_pow, Nat.or_mod_two_pow]
  exact_mod_cast Nat.and_le_left.trans Nat.left_le_or

/-- A parsed range starts no later than it ends. -/
theorem netString2range_proper {netString : String} {range : Range}
    (parsed : netString2range netString = some range) : range.lo ≤ range.hi := by
  unfold netString2range at parsed
  split at parsed
  · cases parsed
    exact le_rfl
  · split at parsed
    · next bound =>
        cases parsed
        exact band_le_bor_bnot _ _ bound
    · cases parsed
  · dsimp only at parsed
    split at parsed <;> split at parsed
    · next ordered =>
        cases parsed
        exact ordered
    · cases parsed
    · next ordered =>
        cases parsed
        exact Int.ofNat_le.mpr ordered
    · cases parsed
  · cases parsed

/-- Both ends of a parsed range are doubles. -/
theorem netString2range_doubles {netString : String} {range : Range}
    (parsed : netString2range netString = some range) : Doubles range := by
  have masked (x y x' y' : Int) : Doubles ⟨band x y, bor x' y'⟩ :=
    ⟨isDouble_bits (band_nonneg _ _) (band_lt _ _), isDouble_bits (bor_nonneg _ _) (bor_lt _ _)⟩
  unfold netString2range at parsed
  split at parsed
  · cases parsed
    exact ⟨isDouble_partsToInt _ _ _ _, isDouble_partsToInt _ _ _ _⟩
  · split at parsed
    · cases parsed
      exact masked _ _ _ _
    · cases parsed
  · dsimp only at parsed
    split at parsed <;> split at parsed
    · cases parsed
      exact masked _ _ _ _
    · cases parsed
    · cases parsed
      exact ⟨isDouble_partsToInt _ _ _ _, isDouble_partsToInt _ _ _ _⟩
    · cases parsed
  · cases parsed

/-! ## Sets of network strings -/

/-- The ranges that a list of strings reads as. -/
def parsedRanges (netStringSet : List String) : RangeSet := netStringSet.filterMap netString2range

/-- The numbers a list of strings denotes; a string that does not parse denotes none. -/
def denoteStrings (netStringSet : List String) : Set Int := joined (parsedRanges netStringSet)

theorem mem_parsedRanges {netStringSet : List String} {range : Range} :
    range ∈ parsedRanges netStringSet ↔ ∃ netString ∈ netStringSet, netString2range netString = some range := List.mem_filterMap

theorem parsedRanges_proper {netStringSet : List String} : ∀ range ∈ parsedRanges netStringSet, range.lo ≤ range.hi := by
  intro range member
  obtain ⟨netString, -, parsed⟩ := mem_parsedRanges.mp member
  exact netString2range_proper parsed

/-- A number of a range that a string of the list reads as. -/
theorem mem_denoteStrings_of_parsed {netStringSet : List String} {netString : String} (member : netString ∈ netStringSet)
    {range : Range} (parsed : netString2range netString = some range) {x : Int} (lower : range.lo ≤ x) (upper : x ≤ range.hi) :
    x ∈ denoteStrings netStringSet :=
  Or.inl ⟨range, mem_parsedRanges.mpr ⟨netString, member, parsed⟩, lower, upper⟩

theorem denoteStrings_eq_empty {netStringSet : List String} (none : ∀ netString ∈ netStringSet, netString2range netString = none) :
    denoteStrings netStringSet = ∅ := by
  have ranges : parsedRanges netStringSet = [] := List.filterMap_eq_nil_iff.mpr none
  simp [denoteStrings, ranges, joined]

theorem mem_denoteStrings_singleton {netString : String} {x : Int} :
    x ∈ denoteStrings [netString] ↔ ∃ range, netString2range netString = some range ∧ range.lo ≤ x ∧ x ≤ range.hi := by
  rw [denoteStrings]
  cases parsed : netString2range netString with
  | none => simp [parsedRanges, parsed, joined]
  | some range =>
      have proper := netString2range_proper parsed
      simp only [parsedRanges, parsed, List.filterMap_cons_some, List.filterMap_nil, joined, Between, denote, List.mem_singleton,
        exists_eq_left, Set.mem_union, Set.mem_ofPred_eq, Option.some.injEq, exists_eq_left']
      omega

/-- Below the numbers that are rounded there is nothing else. -/
theorem mem_denoteStrings_small {netStringSet : List String} {x : Int} (small : -2 ^ 53 ≤ x) (bound : x ≤ 2 ^ 53) :
    x ∈ denoteStrings netStringSet ↔
      ∃ netString ∈ netStringSet, ∃ range, netString2range netString = some range ∧ range.lo ≤ x ∧ x ≤ range.hi := by
  constructor
  · rintro (⟨range, member, inside⟩ | ⟨first, -, second, -, above, below, adjacent⟩)
    · obtain ⟨netString, isString, parsed⟩ := mem_parsedRanges.mp member
      exact ⟨netString, isString, range, parsed, inside⟩
    · exact absurd (plus_one_le (Double.isDouble_of_small small bound) above) (not_le.mpr (below.trans_le adjacent))
  · rintro ⟨netString, isString, range, parsed, lower, upper⟩
    exact mem_denoteStrings_of_parsed isString parsed lower upper

/-- So a list whose ranges end there denotes the numbers of these ranges. -/
theorem denoteStrings_small {netStringSet : List String}
    (small : ∀ netString ∈ netStringSet, ∀ range, netString2range netString = some range → Small range) (x : Int) :
    x ∈ denoteStrings netStringSet ↔
      ∃ netString ∈ netStringSet, ∃ range, netString2range netString = some range ∧ range.lo ≤ x ∧ x ≤ range.hi := by
  have each : ∀ range ∈ parsedRanges netStringSet, Small range := by
    intro range member
    obtain ⟨netString, isString, parsed⟩ := mem_parsedRanges.mp member
    exact small netString isString range parsed
  rw [denoteStrings, joined_small each parsedRanges_proper, mem_denote]
  constructor
  · rintro ⟨range, member, inside⟩
    obtain ⟨netString, isString, parsed⟩ := mem_parsedRanges.mp member
    exact ⟨netString, isString, range, parsed, inside⟩
  · rintro ⟨netString, isString, range, parsed, inside⟩
    exact ⟨range, mem_parsedRanges.mpr ⟨netString, isString, parsed⟩, inside⟩

/-- The set that is built stands for the ranges read. -/
theorem netStringSet2rangeSet_standFor (netStringSet : List String) :
    Separate (netStringSet2rangeSet netStringSet) ∧ StandFor (netStringSet2rangeSet netStringSet) (parsedRanges netStringSet).reverse := by
  induction netStringSet using List.reverseRecOn with
  | nil => exact ⟨.nil, .refl []⟩
  | append_singleton rest netString ih =>
      have step : netStringSet2rangeSet (rest ++ [netString]) =
          rangeSetAddRange (netStringSet2rangeSet rest) (netString2range netString) := by
        rw [netStringSet2rangeSet, List.foldl_append]
        rfl
      rw [step, parsedRanges, List.filterMap_append, List.reverse_append]
      cases parsed : netString2range netString with
      | none => simpa [parsed, rangeSetAddRange, parsedRanges] using ih
      | some range =>
          have added := rangeSetAddRange_standFor ih.1 ih.2 (netString2range_proper parsed) (netString2range_doubles parsed)
          simpa [parsed, parsedRanges] using added

theorem joined_reverse (ranges : RangeSet) : joined ranges.reverse = joined ranges := by
  simp only [joined, denote, List.mem_reverse]

theorem netStringSet2rangeSet_spec (netStringSet : List String) :
    Canonical (netStringSet2rangeSet netStringSet) ∧
      denote (netStringSet2rangeSet netStringSet) = denoteStrings netStringSet := by
  obtain ⟨separate, stand⟩ := netStringSet2rangeSet_standFor netStringSet
  refine ⟨separate.canonical, ?_⟩
  rw [stand.denote_eq separate, joined_reverse, denoteStrings]
  exact fun range member => parsedRanges_proper range (List.mem_reverse.mp member)

/-- Lists with the same strings give the same canonical list. -/
theorem netStringSet2rangeSet_congr {first second : List String}
    (same : ∀ netString, netString ∈ first ↔ netString ∈ second) :
    netStringSet2rangeSet first = netStringSet2rangeSet second := by
  obtain ⟨canonFirst, pointsFirst⟩ := netStringSet2rangeSet_spec first
  obtain ⟨canonSecond, pointsSecond⟩ := netStringSet2rangeSet_spec second
  have ranges : ∀ range, range ∈ parsedRanges first ↔ range ∈ parsedRanges second := by
    simp only [mem_parsedRanges, same, implies_true]
  apply canonFirst.eq_of_denote_eq canonSecond
  rw [pointsFirst, pointsSecond]
  simp only [denoteStrings, joined, denote, ranges]

/-- Range sets stay canonical over every run of operations on small ranges and denote the union
or difference of the operands. Parsing gives a canonical set for every list of strings, with
exactly the small numbers of their ranges, and ignores order and repetition. -/
theorem rangeSets_canonical_exact :
    (∀ operations : List Operation, (∀ operation ∈ operations, operation.Small) →
      (∀ range ∈ runOperations operations, range.lo ≤ range.hi) ∧
        (runOperations operations).Pairwise (fun first second => first.hi + 1 < second.lo) ∧
        denote (runOperations operations) = meaningOf operations) ∧
      (∀ netStringSet : List String,
        (∀ range ∈ netStringSet2rangeSet netStringSet, range.lo ≤ range.hi) ∧
          (netStringSet2rangeSet netStringSet).Pairwise (fun first second => first.hi + 1 < second.lo) ∧
          ∀ x : Int, 0 ≤ x → x ≤ 2 ^ 53 → (x ∈ denote (netStringSet2rangeSet netStringSet) ↔
            ∃ netString ∈ netStringSet, ∃ range, netString2range netString = some range ∧ range.lo ≤ x ∧ x ≤ range.hi)) ∧
      ∀ first second : List String, (∀ netString, netString ∈ first ↔ netString ∈ second) →
        netStringSet2rangeSet first = netStringSet2rangeSet second := by
  refine ⟨fun operations small => ?_, fun netStringSet => ?_, fun _ _ => netStringSet2rangeSet_congr⟩
  · obtain ⟨canon, points⟩ := runOperations_spec small
    exact ⟨canon.proper, canon.gaps, points⟩
  · obtain ⟨canon, points⟩ := netStringSet2rangeSet_spec netStringSet
    refine ⟨canon.proper, canon.gaps, fun x nonneg small => ?_⟩
    rw [points]
    exact mem_denoteStrings_small (le_trans (by decide) nonneg) small

theorem rangeSets_canonical_exact_bridged :
    denote (runOperations [.add ⟨⟨1, 4⟩, by decide⟩, .add ⟨⟨8, 9⟩, by decide⟩, .add ⟨⟨5, 7⟩, by decide⟩, .del ⟨⟨2, 3⟩, by decide⟩]) =
        meaningOf [.add ⟨⟨1, 4⟩, by decide⟩, .add ⟨⟨8, 9⟩, by decide⟩, .add ⟨⟨5, 7⟩, by decide⟩, .del ⟨⟨2, 3⟩, by decide⟩] ∧
      netStringSet2rangeSet ["10.0.0.0/8", "1.1.1.1-1.1.1.9"] =
        netStringSet2rangeSet ["1.1.1.1-1.1.1.9", "10.0.0.0/8", "1.1.1.1-1.1.1.9"] := by
  constructor
  · exact (rangeSets_canonical_exact.1 _ (by simp [Operation.Small, Small])).2.2
  · exact rangeSets_canonical_exact.2.2 _ _ (by simp)

/-- Past `2 ^ 53` the number after 9007199254740994 is rounded to the next double, and the
two ranges are merged over the number between them. -/
theorem wide_ranges_merged :
    netStringSet2rangeSet ["0.0.0.9007199254740994", "0.0.0.9007199254740996"] = [⟨9007199254740994, 9007199254740996⟩] ∧
      ¬∀ operations : List Operation, denote (runOperations operations) = meaningOf operations := by
  refine ⟨by decide +kernel, fun exact => ?_⟩
  have merged : (9007199254740995 : Int) ∈ denote (runOperations
      [.add ⟨⟨9007199254740994, 9007199254740994⟩, le_rfl⟩, .add ⟨⟨9007199254740996, 9007199254740996⟩, le_rfl⟩]) := by
    rw [show runOperations [.add ⟨⟨9007199254740994, 9007199254740994⟩, le_rfl⟩, .add ⟨⟨9007199254740996, 9007199254740996⟩, le_rfl⟩] =
      [⟨9007199254740994, 9007199254740996⟩] by decide +kernel]
    exact ⟨_, List.mem_singleton_self _, by decide, by decide⟩
  rw [exact] at merged
  simp [meaningOf, Operation.meaning] at merged

end XWrt.Ipops
