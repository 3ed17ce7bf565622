import XWrt.Ipops.Membership

/-!
# Printed range sets

The two printers of `ipops.lua` and the parser. A set is printed as pairs of
addresses or as CIDR blocks. Either way every printed string reads as the
range it was printed from, the pieces denote the same addresses, and the parser
merges them into the one canonical set with these addresses.
-/

namespace XWrt.Ipops

open XWrt.Foundation
open XWrt.Foundation.IntervalList
open XWrt.Foundation.Text

/-- `range2netString` -/
def range2netString (range : Range) : Option String :=
  if range.lo ≤ range.hi then some (int2ipstr range.lo ++ "-" ++ int2ipstr range.hi) else none

/-- `rangeSet2netStringSet` -/
def rangeSet2netStringSet (rangeSet : RangeSet) : List String :=
  rangeSet.map fun range => int2ipstr range.lo ++ "-" ++ int2ipstr range.hi

example : rangeSet2netStringSet [⟨0, 255⟩] = ["0.0.0.0-0.0.0.255"] := by decide

/-! ## One string -/

/-- The characters of a printed address. -/
theorem mem_int2ipstr {x : Nat} {char : Char} (member : char ∈ (int2ipstr x).toList) :
    char.isDigit = true ∨ char = '.' := by
  rw [int2ipstr_toList] at member
  apply (mem_printedParts member).imp_right
  simp

/-- Two printed addresses in order read as the range between them. -/
theorem netString2range_pair {range : Range} (addresses : Addresses range) (ordered : range.lo ≤ range.hi) :
    netString2range (int2ipstr range.lo ++ "-" ++ int2ipstr range.hi) = some range := by
  obtain ⟨lo, hi⟩ := range
  obtain ⟨nonneg, below⟩ := addresses
  simp only at nonneg below ordered
  obtain ⟨x, rfl⟩ := Int.eq_ofNat_of_zero_le nonneg
  obtain ⟨y, rfl⟩ := Int.eq_ofNat_of_zero_le (nonneg.trans ordered)
  have yBound : y < 2 ^ 32 := by omega
  have order : x ≤ y := Int.ofNat_le.mp ordered
  have written : (int2ipstr x ++ "-" ++ int2ipstr y).toList =
      printedParts ['.', '.', '.', '-', '.', '.', '.'] (octets x ++ octets y) := by
    rw [String.toList_append, String.toList_append, int2ipstr_toList, int2ipstr_toList]
    simp [octets, printedParts]
  have parts : getPartsAsNumber (int2ipstr x ++ "-" ++ int2ipstr y) = octets x ++ octets y := by
    rw [getPartsAsNumber_eq, written, words_printedParts (by simp [Char.isDigit]) rfl]
    exact map_round_exact (List.forall_mem_append.mpr ⟨octets_small x, octets_small y⟩)
  have slash : '/' ∉ (int2ipstr x ++ "-" ++ int2ipstr y).toList := by
    rw [String.toList_append, String.toList_append]
    intro member
    simp only [List.mem_append] at member
    rcases member with (inFirst | dash) | inSecond
    · rcases mem_int2ipstr inFirst with digit | dot
      · exact absurd digit (by decide)
      · exact absurd dot (by decide)
    · exact absurd dash (by decide)
    · rcases mem_int2ipstr inSecond with digit | dot
      · exact absurd digit (by decide)
      · exact absurd dot (by decide)
  unfold netString2range
  simp only [parts, octets, List.cons_append, List.nil_append, partsToInt_octets (order.trans_lt yBound),
    partsToInt_octets yBound, if_neg slash, if_pos order]

/-- What `range2netString` prints is read back. -/
theorem netString2range_range2netString {range : Range} (addresses : Addresses range)
    (ordered : range.lo ≤ range.hi) : (range2netString range).bind netString2range = some range := by
  rw [range2netString, if_pos ordered, Option.bind_some]
  exact netString2range_pair addresses ordered

/-! ## Sets -/

theorem parsedRanges_of_reads {texts : List String} {ranges : RangeSet}
    (reads : List.Forall₂ (fun text range => netString2range text = some range) texts ranges) :
    parsedRanges texts = ranges := by
  induction reads with
  | nil => rfl
  | cons first _ ih =>
      rw [parsedRanges, List.filterMap_cons_some first]
      exact congrArg _ ih

theorem Addresses.small {range : Range} (addresses : Addresses range) : Small range := by
  obtain ⟨nonneg, below⟩ := addresses
  constructor <;> omega

/-- Strings that read as ranges with the addresses of a canonical set parse to that set. -/
theorem netStringSet2rangeSet_of_reads {texts : List String} {ranges rangeSet : RangeSet}
    (reads : List.Forall₂ (fun text range => netString2range text = some range) texts ranges)
    (addresses : ∀ range ∈ ranges, Addresses range) (canon : Canonical rangeSet) (same : denote ranges = denote rangeSet) :
    netStringSet2rangeSet texts = rangeSet := by
  obtain ⟨parsed, points⟩ := netStringSet2rangeSet_spec texts
  have proper := @parsedRanges_proper texts
  rw [parsedRanges_of_reads reads] at proper
  apply parsed.eq_of_denote_eq canon
  rw [points, denoteStrings, parsedRanges_of_reads reads, joined_small (fun range member => (addresses range member).small) proper,
    same]

theorem netStringSet2rangeSet_pairs {rangeSet : RangeSet} (canon : Canonical rangeSet)
    (addresses : ∀ range ∈ rangeSet, Addresses range) :
    netStringSet2rangeSet (rangeSet2netStringSet rangeSet) = rangeSet := by
  apply netStringSet2rangeSet_of_reads _ addresses canon rfl
  apply List.forall₂_map_left_iff.mpr
  apply List.forall₂_same.mpr
  exact fun range member => netString2range_pair (addresses range member) (canon.proper range member)

/-- Blocks inside 32 bits read as their addresses, so they parse to the set that they cover. -/
theorem netStringSet2rangeSet_blocks {rangeSet : RangeSet} (canon : Canonical rangeSet)
    (addresses : ∀ range ∈ rangeSet, Addresses range) {blocks : List CidrBlock}
    (cover : AlignedBlock.cover blocks = denote rangeSet) :
    netStringSet2rangeSet (blocks.map CidrBlock.ipcidr) = rangeSet := by
  have within (block : CidrBlock) (member : block ∈ blocks) (x : Int) (lower : block.base ≤ x) (upper : x ≤ block.last) :
      0 ≤ x ∧ x < 2 ^ 32 := by
    have covered : x ∈ denote rangeSet := cover ▸ AlignedBlock.mem_cover.mpr ⟨block, member, lower, upper⟩
    obtain ⟨range, inSet, above, below⟩ := mem_denote.mp covered
    exact ⟨(addresses range inSet).1.trans above, below.trans_lt (addresses range inSet).2⟩
  have reads : List.Forall₂ (fun text range => netString2range text = some range)
      (blocks.map CidrBlock.ipcidr) (blocks.map AlignedBlock.toInterval) := by
    apply List.forall₂_map_left_iff.mpr
    apply List.forall₂_map_right_iff.mpr
    apply List.forall₂_same.mpr
    intro block member
    have ordered := block.base_le_last
    exact netString2range_ipcidr (within block member block.base le_rfl ordered).1
      (within block member block.last ordered le_rfl).2
  apply netStringSet2rangeSet_of_reads reads _ canon cover
  intro interval member
  obtain ⟨block, isBlock, rfl⟩ := List.mem_map.mp member
  have ordered := block.base_le_last
  exact ⟨(within block isBlock block.base le_rfl ordered).1, (within block isBlock block.last ordered le_rfl).2⟩

/-- A canonical set of 32-bit addresses is read back from either printer; the CIDR printer
ends on it, and whatever it returns is a text of the set it was called with. -/
theorem printed_rangeSet_reads_back (rangeSet : RangeSet) (canon : Canonical rangeSet)
    (addresses : ∀ range ∈ rangeSet, 0 ≤ range.lo ∧ range.hi ≤ 2 ^ 32 - 1) :
    netStringSet2rangeSet (rangeSet2netStringSet rangeSet) = rangeSet ∧
      (∃ fuel, (rangeSet2ipcidrSet fuel rangeSet).isSome) ∧
        ∀ fuel ipcidrSet updated, rangeSet2ipcidrSet fuel rangeSet = some (ipcidrSet, updated) →
          netStringSet2rangeSet ipcidrSet = rangeSet := by
  have narrow : ∀ range ∈ rangeSet, Addresses range := fun range member =>
    ⟨(addresses range member).1, Int.lt_of_le_sub_one (addresses range member).2⟩
  obtain ⟨blocks, left, run, -, cover, -⟩ :=
    rangeSet2ipcidrSet_exact_minimal (2 ^ 32 + 1) (Nat.lt_succ_self _) rangeSet canon addresses
  refine ⟨netStringSet2rangeSet_pairs canon narrow, ⟨2 ^ 32 + 1, by rw [run]; rfl⟩, ?_⟩
  intro fuel ipcidrSet updated done
  have first := rangeSet2ipcidrSet_mono (Nat.le_max_left fuel (2 ^ 32 + 1)) done
  have second := rangeSet2ipcidrSet_mono (Nat.le_max_right fuel (2 ^ 32 + 1)) run
  obtain ⟨rfl, -⟩ := Prod.mk.inj (Option.some.inj (first.symm.trans second))
  exact netStringSet2rangeSet_blocks canon narrow cover

theorem printed_rangeSet_reads_back_whole_space :
    netStringSet2rangeSet (rangeSet2netStringSet [⟨0, 2 ^ 32 - 1⟩]) = [⟨0, 2 ^ 32 - 1⟩] :=
  (printed_rangeSet_reads_back _ (canonical_singleton (by decide)) (by simp)).1

end XWrt.Ipops
