import XWrt.Foundation.AlignedBlock
import XWrt.Ipops.NetString

/-!
# From range sets to CIDR blocks

`rangeSet2ipcidrSet` cuts every range into address blocks. The `while` loop
takes fuel and advances the start of the range in place, as the source does; on
canonical sets of 32-bit addresses it ends and its output is a least cover.
-/

namespace XWrt.Ipops

open XWrt.Foundation
open XWrt.Foundation.IntervalList

/-- `int2ipstr`. -/
def int2ipstr (x : Int) : String :=
  let a := rshift x 24 % 0x100
  let b := rshift x 16 % 0x100
  let c := rshift x 8 % 0x100
  let d := rshift x 0 % 0x100
  toString a ++ "." ++ toString b ++ "." ++ toString c ++ "." ++ toString d

/-- The network part of `range[1]` under a prefix length. -/
def blockStart (range : Range) (cidr : Nat) : Int := band range.lo (cidr2int cidr)

/-- The last address of the block at `blockStart`. -/
def blockEnd (range : Range) (cidr : Nat) : Int :=
  bor (blockStart range cidr) (bnot (cidr2int cidr))

/-- The test of the `for` loop: the block starts at `range[1]` and fits. -/
def blockFits (range : Range) (cidr : Nat) : Bool :=
  blockStart range cidr = range.lo ∧ blockEnd range cidr ≤ range.hi

/-- The `while` loop on one range. Without a fitting block the source repeats the
round unchanged, so only the fuel ends it. -/
def splitRange : Nat → Range → List String → Option (List String × Range)
  | 0, _, _ => none
  | fuel + 1, range, ipcidrSet =>
      if range.lo ≤ range.hi then
        match (List.range 33).find? (blockFits range) with
        | some cidr =>
            splitRange fuel ⟨blockEnd range cidr + 1, range.hi⟩
              (ipcidrSet ++ [int2ipstr (blockStart range cidr) ++ "/" ++ toString cidr])
        | none => splitRange fuel range ipcidrSet
      else some (ipcidrSet, range)

/-- `rangeSet2ipcidrSet`: the strings, and the argument as the call leaves it. -/
def rangeSet2ipcidrSet (fuel : Nat) (rangeSet : RangeSet) : Option (List String × RangeSet) :=
  rangeSet.foldlM (fun (ipcidrSet, updated) range => do
    let (ipcidrSet, range) ← splitRange fuel range ipcidrSet
    pure (ipcidrSet, updated ++ [range])) ([], [])

/-! ## Blocks of IPv4 addresses -/

/-- A CIDR block: an aligned block of at most `2 ^ 32` addresses. -/
abbrev CidrBlock := AlignedBlock 32

def CidrBlock.cidr (block : CidrBlock) : Nat := 32 - block.exp

/-- The string `rangeSet2ipcidrSet` inserts for a block. -/
def CidrBlock.ipcidr (block : CidrBlock) : String :=
  int2ipstr block.base ++ "/" ++ toString block.cidr

/-- Both ends are 32-bit addresses. -/
def Addresses (range : Range) : Prop := 0 ≤ range.lo ∧ range.hi < 2 ^ 32

theorem blockStart_eq (x : Nat) (hi : Int) (xBound : x < 2 ^ 32) {cidr : Nat} (bound : cidr ≤ 32) :
    blockStart ⟨x, hi⟩ cidr = (2 ^ (32 - cidr) * (x / 2 ^ (32 - cidr)) : Nat) :=
  band_cidr2int x cidr xBound bound

theorem blockStart_fixed_iff (x : Nat) (hi : Int) (xBound : x < 2 ^ 32) {cidr : Nat} (bound : cidr ≤ 32) :
    blockStart ⟨x, hi⟩ cidr = x ↔ 2 ^ (32 - cidr) ∣ x := by
  rw [blockStart_eq x hi xBound bound, Nat.dvd_iff_div_mul_eq, Nat.mul_comm]
  exact Int.ofNat_inj

theorem blockEnd_eq (x : Nat) (hi : Int) (xBound : x < 2 ^ 32) {cidr : Nat} (bound : cidr ≤ 32)
    (aligned : 2 ^ (32 - cidr) ∣ x) : blockEnd ⟨x, hi⟩ cidr = (x + (2 ^ (32 - cidr) - 1) : Nat) := by
  obtain ⟨q, rfl⟩ := aligned
  have whole : 2 ^ 32 = 2 ^ (32 - cidr) * 2 ^ cidr := by
    rw [← Nat.pow_add, Nat.sub_add_cancel bound]
  have room : q + 1 ≤ 2 ^ cidr := by
    rw [whole] at xBound
    exact Nat.lt_of_mul_lt_mul_left xBound
  have fits : 2 ^ (32 - cidr) * q + 2 ^ (32 - cidr) ≤ 2 ^ 32 := by
    rw [whole, ← Nat.mul_succ]
    exact Nat.mul_le_mul_left _ room
  have starts := (blockStart_fixed_iff _ hi xBound bound).mpr (Nat.dvd_mul_right (2 ^ (32 - cidr)) q)
  rw [blockEnd, starts, bnot_cidr2int cidr bound, bor_hostmask q (32 - cidr) fits]

theorem blockFits_iff (x : Nat) (hi : Int) (xBound : x < 2 ^ 32) {cidr : Nat} (bound : cidr ≤ 32) :
    blockFits ⟨x, hi⟩ cidr = true ↔
      2 ^ (32 - cidr) ∣ x ∧ (x + (2 ^ (32 - cidr) - 1) : Nat) ≤ hi := by
  simp only [blockFits, decide_eq_true_eq, blockStart_fixed_iff x hi xBound bound]
  refine and_congr_right fun aligned => ?_
  rw [blockEnd_eq x hi xBound bound aligned]

theorem CidrBlock.last_natCast {block : CidrBlock} {x : Nat} (starts : block.base = x) :
    block.last = (x + (2 ^ block.exp - 1) : Nat) := by
  have pos : 0 < 2 ^ block.exp := Nat.two_pow_pos _
  have power : block.size = (2 ^ block.exp : Nat) := by
    unfold AlignedBlock.size
    push_cast
    rfl
  unfold AlignedBlock.last
  rw [starts, power]
  omega

theorem CidrBlock.sub_cidr (block : CidrBlock) : 32 - block.cidr = block.exp :=
  Nat.sub_sub_self block.exp_le

/-- Every block that starts at `range[1]` and ends inside the range passes the test. -/
theorem blockFits_of_block {x : Nat} {hi : Int} (xBound : x < 2 ^ 32) {block : CidrBlock}
    (starts : block.base = x) (stops : block.last ≤ hi) : blockFits ⟨x, hi⟩ block.cidr = true := by
  have bound : block.cidr ≤ 32 := Nat.sub_le _ _
  refine (blockFits_iff x hi xBound bound).mpr ⟨?_, ?_⟩
  · rw [block.sub_cidr]
    have aligned := block.aligned
    rw [starts] at aligned
    exact_mod_cast aligned
  · rw [block.sub_cidr, ← CidrBlock.last_natCast starts]
    exact stops

/-- The `for` loop finds the largest block that starts at `range[1]` and fits. -/
theorem find_blockFits {range : Range} (addresses : Addresses range) (ordered : range.lo ≤ range.hi) :
    ∃ block : CidrBlock, (List.range 33).find? (blockFits range) = some block.cidr ∧
      block.base = range.lo ∧ block.last ≤ range.hi ∧
        blockStart range block.cidr = block.base ∧ blockEnd range block.cidr = block.last ∧
          ∀ other : CidrBlock, other.base = range.lo → other.last ≤ range.hi → other.last ≤ block.last := by
  obtain ⟨lo, hi⟩ := range
  obtain ⟨nonneg, below⟩ := addresses
  simp only at nonneg below ordered
  obtain ⟨x, rfl⟩ := Int.eq_ofNat_of_zero_le nonneg
  have xBound : x < 2 ^ 32 := by omega
  -- A single address always fits, so the search succeeds.
  have single : blockFits ⟨x, hi⟩ 32 = true :=
    (blockFits_iff x hi xBound le_rfl).mpr ⟨by simp, by simpa using ordered⟩
  cases found : (List.range 33).find? (blockFits ⟨x, hi⟩) with
  | none =>
      have := List.find?_eq_none.mp found 32 (by simp)
      exact absurd single this
  | some cidr =>
      obtain ⟨fits, inRange, first⟩ := List.find?_range_eq_some.mp found
      have bound : cidr ≤ 32 := Nat.lt_succ_iff.mp (List.mem_range.mp inRange)
      obtain ⟨aligned, ends⟩ := (blockFits_iff x hi xBound bound).mp fits
      let block : CidrBlock := ⟨x, 32 - cidr, Nat.sub_le _ _, by exact_mod_cast aligned⟩
      have cidrEq : block.cidr = cidr := Nat.sub_sub_self bound
      have lastEq : block.last = (x + (2 ^ (32 - cidr) - 1) : Nat) := CidrBlock.last_natCast rfl
      refine ⟨block, by rw [cidrEq], rfl, lastEq ▸ ends, ?_, ?_, ?_⟩
      · rw [cidrEq]
        exact (blockStart_fixed_iff x hi xBound bound).mpr aligned
      · rw [cidrEq, lastEq]
        exact blockEnd_eq x hi xBound bound aligned
      · intro other starts stops
        have later : cidr ≤ other.cidr := by
          by_contra earlier
          have rejected := first other.cidr (not_le.mp earlier)
          rw [blockFits_of_block xBound starts stops] at rejected
          cases rejected
        have smaller : other.exp ≤ 32 - cidr := by
          have := other.sub_cidr
          omega
        have sizes := Nat.pow_le_pow_right (show 0 < 2 by decide) smaller
        rw [CidrBlock.last_natCast starts, lastEq]
        exact_mod_cast Nat.add_le_add_left (Nat.sub_le_sub_right sizes 1) x

/-! ## The loops -/

/-- The `while` loop tiles the range greedily and leaves its start past its end. -/
theorem splitRange_spec (fuel : Nat) {range : Range} (addresses : Addresses range)
    (started : range.lo ≤ range.hi + 1) (enough : range.hi + 1 - range.lo < fuel) (ipcidrSet : List String) :
    ∃ (blocks : List CidrBlock) (left : Range),
      AlignedBlock.GreedyTiling range.hi range.lo blocks ∧
        splitRange fuel range ipcidrSet = some (ipcidrSet ++ blocks.map CidrBlock.ipcidr, left) := by
  induction fuel generalizing range ipcidrSet with
  | zero => omega
  | succ fuel ih =>
      by_cases ordered : range.lo ≤ range.hi
      · obtain ⟨block, found, starts, fits, startEq, endEq, largest⟩ := find_blockFits addresses ordered
        have progress := block.base_le_last
        obtain ⟨blocks, left, tiling, result⟩ := @ih ⟨block.last + 1, range.hi⟩
          ⟨by have := addresses.1; simp only; omega, addresses.2⟩ (by simp only; omega)
          (by push_cast at enough; simp only; omega) (ipcidrSet ++ [block.ipcidr])
        refine ⟨block :: blocks, left, .step block starts fits largest tiling, ?_⟩
        rw [splitRange, if_pos ordered, found]
        simp only [startEq, endEq]
        rw [List.map_cons, List.append_cons ipcidrSet block.ipcidr]
        exact result
      · refine ⟨[], range, .done (not_le.mp ordered), ?_⟩
        rw [splitRange, if_neg ordered]
        simp

theorem rangeSet2ipcidrSet_spec (fuel : Nat) (enough : 2 ^ 32 < fuel) {rangeSet : RangeSet}
    (proper : ∀ range ∈ rangeSet, range.lo ≤ range.hi) (addresses : ∀ range ∈ rangeSet, Addresses range) :
    ∃ (blocks : List CidrBlock) (updated : RangeSet),
      AlignedBlock.TilesAll rangeSet blocks ∧
        rangeSet2ipcidrSet fuel rangeSet = some (blocks.map CidrBlock.ipcidr, updated) := by
  have loop : ∀ (ipcidrSet : List String) (updated : RangeSet),
      ∃ (blocks : List CidrBlock) (result : RangeSet), AlignedBlock.TilesAll rangeSet blocks ∧
        rangeSet.foldlM (fun (ipcidrSet, updated) range => do
          let (ipcidrSet, range) ← splitRange fuel range ipcidrSet
          pure (ipcidrSet, updated ++ [range])) (ipcidrSet, updated) =
            some (ipcidrSet ++ blocks.map CidrBlock.ipcidr, result) := by
    induction rangeSet with
    | nil => exact fun ipcidrSet updated => ⟨[], updated, .nil, by simp⟩
    | cons range rest ih =>
        intro ipcidrSet updated
        have here := addresses range (.head _)
        have ordered := proper range (.head _)
        have small : range.hi + 1 - range.lo < fuel := by
          have := here.1
          have := here.2
          have : ((2 ^ 32 : Nat) : Int) < fuel := by exact_mod_cast enough
          push_cast at this
          omega
        obtain ⟨blocks, left, tiling, split⟩ := splitRange_spec fuel here (by omega) small ipcidrSet
        obtain ⟨others, result, tiles, run⟩ := ih (fun r member => proper r (.tail _ member))
          (fun r member => addresses r (.tail _ member)) (ipcidrSet ++ blocks.map CidrBlock.ipcidr)
          (updated ++ [left])
        refine ⟨blocks ++ others, result, .cons tiling tiles, ?_⟩
        rw [List.foldlM_cons, List.map_append, ← List.append_assoc]
        simp only [split]
        exact run
  obtain ⟨blocks, updated, tiles, run⟩ := loop [] []
  exact ⟨blocks, updated, tiles, run⟩

/-- On canonical sets of IPv4 addresses the loop ends, and the printed blocks are
ascending, disjoint, cover exactly the set and are as few as possible. -/
theorem rangeSet2ipcidrSet_exact_minimal (fuel : Nat) (enough : 2 ^ 32 < fuel) (rangeSet : RangeSet)
    (canon : Canonical rangeSet) (addresses : ∀ range ∈ rangeSet, 0 ≤ range.lo ∧ range.hi ≤ 2 ^ 32 - 1) :
    ∃ (blocks : List CidrBlock) (updated : RangeSet),
      rangeSet2ipcidrSet fuel rangeSet = some (blocks.map CidrBlock.ipcidr, updated) ∧
        blocks.Pairwise (fun first second => first.last < second.base) ∧
          AlignedBlock.cover blocks = denote rangeSet ∧
            ∀ others : List CidrBlock, AlignedBlock.cover others = denote rangeSet →
              blocks.length ≤ others.length := by
  obtain ⟨blocks, updated, tiles, run⟩ := rangeSet2ipcidrSet_spec fuel enough canon.proper
    fun range member => ⟨(addresses range member).1, Int.lt_of_le_sub_one (addresses range member).2⟩
  exact ⟨blocks, updated, run, tiles.ascending canon, tiles.cover_eq,
    fun others same => tiles.length_le canon same⟩

theorem rangeSet2ipcidrSet_exact_minimal_whole_space :
    ∃ (blocks : List CidrBlock) (updated : RangeSet),
      rangeSet2ipcidrSet (2 ^ 32 + 1) [⟨0, 2 ^ 32 - 1⟩] = some (blocks.map CidrBlock.ipcidr, updated) ∧
        blocks.Pairwise (fun first second => first.last < second.base) ∧
          AlignedBlock.cover blocks = denote [⟨0, 2 ^ 32 - 1⟩] ∧
            ∀ others : List CidrBlock, AlignedBlock.cover others = denote [⟨0, 2 ^ 32 - 1⟩] →
              blocks.length ≤ others.length :=
  rangeSet2ipcidrSet_exact_minimal (2 ^ 32 + 1) (by decide) [⟨0, 2 ^ 32 - 1⟩]
    (canonical_singleton (by decide)) (by simp)

end XWrt.Ipops
