import Mathlib.Algebra.Order.SuccPred
import Mathlib.Data.Int.ConditionallyCompleteOrder
import Mathlib.Data.Int.SuccPred
import Mathlib.Data.List.Perm.Subperm
import Mathlib.Tactic.Ring
import XWrt.Foundation.IntervalList

/-!
# Aligned blocks and minimal covers

A block of `2 ^ exp` consecutive integers starting at a multiple of its size,
with `exp` at most a fixed width. Two blocks are disjoint or nested. Tiling an
interval from its start with the largest block that fits gives blocks that no
other block inside the interval properly contains, and such a tiling has the
least number of blocks.
-/

namespace XWrt.Foundation

open IntervalList

structure AlignedBlock (width : Nat) where
  base : Int
  exp : Nat
  exp_le : exp ≤ width
  aligned : (2 : Int) ^ exp ∣ base

namespace AlignedBlock

variable {width : Nat}

def size (block : AlignedBlock width) : Int := 2 ^ block.exp

def last (block : AlignedBlock width) : Int := block.base + block.size - 1

def toInterval (block : AlignedBlock width) : ClosedInterval Int := ⟨block.base, block.last⟩

/-- The integers in some block of the list. -/
def cover (blocks : List (AlignedBlock width)) : Set Int := denote (blocks.map toInterval)

theorem mem_cover {blocks : List (AlignedBlock width)} {x : Int} :
    x ∈ cover blocks ↔ ∃ block ∈ blocks, block.base ≤ x ∧ x ≤ block.last := by
  simp [cover, mem_denote, toInterval]

@[simp] theorem mem_cover_cons {block : AlignedBlock width} {blocks : List (AlignedBlock width)}
    {x : Int} : x ∈ cover (block :: blocks) ↔ (block.base ≤ x ∧ x ≤ block.last) ∨ x ∈ cover blocks := by
  simp [mem_cover]

@[simp] theorem mem_cover_append {first second : List (AlignedBlock width)} {x : Int} :
    x ∈ cover (first ++ second) ↔ x ∈ cover first ∨ x ∈ cover second := by
  simp [mem_cover, or_and_right, exists_or]

@[simp] theorem cover_nil : cover ([] : List (AlignedBlock width)) = ∅ := by
  ext x
  simp [mem_cover]

theorem size_pos (block : AlignedBlock width) : 0 < block.size :=
  Int.pow_pos (by decide)

theorem base_le_last (block : AlignedBlock width) : block.base ≤ block.last := by
  have := block.size_pos
  unfold last
  omega

/-- Blocks of no points are none. -/
theorem eq_nil_iff_cover {blocks : List (AlignedBlock width)} : blocks = [] ↔ cover blocks = ∅ := by
  constructor
  · rintro rfl
    exact cover_nil
  · intro empty
    refine List.eq_nil_iff_forall_not_mem.mpr fun block member => ?_
    have there : block.base ∈ cover blocks := mem_cover.mpr ⟨block, member, le_rfl, block.base_le_last⟩
    rw [empty] at there
    exact there

/-- Blocks with the same ends are the same. -/
theorem ext_ends {first second : AlignedBlock width} (base : first.base = second.base) (last : first.last = second.last) :
    first = second := by
  have size : (2 : Int) ^ first.exp = 2 ^ second.exp := by
    unfold AlignedBlock.last size at last
    omega
  have power : (2 : Nat) ^ first.exp = 2 ^ second.exp := by exact_mod_cast size
  obtain ⟨_, _, _, _⟩ := first
  obtain ⟨_, _, _, _⟩ := second
  cases base
  cases Nat.pow_right_injective le_rfl power
  rfl

/-- A block no larger than another is apart from it or inside it. -/
theorem apart_or_inside {small large : AlignedBlock width} (order : small.exp ≤ large.exp) :
    small.last < large.base ∨ large.last < small.base ∨
      (large.base ≤ small.base ∧ small.last ≤ large.last) := by
  obtain ⟨p, smallBase⟩ := small.aligned
  obtain ⟨q, largeBase⟩ := large.aligned
  have pos := small.size_pos
  have ratio : large.size = small.size * 2 ^ (large.exp - small.exp) := by
    unfold size
    rw [← pow_add, Nat.add_sub_cancel' order]
  -- In units of the small size the large block is `[d * q, d * q + d)`.
  generalize (2 : Int) ^ (large.exp - small.exp) = d at ratio
  have smallBase' : small.base = small.size * p := smallBase
  have largeBase' : large.base = small.size * (d * q) := by
    rw [largeBase, ← mul_assoc, ← ratio]
    rfl
  have smallEnd : small.last + 1 = small.size * (p + 1) := by
    unfold last
    rw [smallBase']
    ring
  have largeEnd : large.last + 1 = small.size * (d * q + d) := by
    unfold last
    rw [largeBase', ratio]
    ring
  have scaled {a b : Int} (le : a ≤ b) : small.size * a ≤ small.size * b :=
    mul_le_mul_of_nonneg_left le pos.le
  rcases lt_or_ge p (d * q) with below | above
  · have := scaled (show p + 1 ≤ d * q by omega)
    omega
  · have starts := scaled above
    by_cases room : p + 1 ≤ d * q + d
    · have ends := scaled room
      omega
    · have := scaled (show d * q + d ≤ p by omega)
      omega

/-- Blocks form a laminar family. -/
theorem apart_or_nested (first second : AlignedBlock width) :
    first.last < second.base ∨ second.last < first.base ∨
      (second.base ≤ first.base ∧ first.last ≤ second.last) ∨
        (first.base ≤ second.base ∧ second.last ≤ first.last) := by
  rcases Nat.le_total first.exp second.exp with order | order
  · rcases apart_or_inside order with left | right | inside
    · exact .inl left
    · exact .inr (.inl right)
    · exact .inr (.inr (.inl inside))
  · rcases apart_or_inside order with left | right | inside
    · exact .inr (.inl left)
    · exact .inl right
    · exact .inr (.inr (.inr inside))

/-- Every block between the points of `region` that contains this one is equal to it. -/
def MaximalIn (region : Set Int) (block : AlignedBlock width) : Prop :=
  ∀ other : AlignedBlock width, Set.Icc other.base other.last ⊆ region →
    other.base ≤ block.base → block.last ≤ other.last →
      block.base ≤ other.base ∧ other.last ≤ block.last

/-- Disjoint maximal blocks are no more than any other blocks with the same
union: every one of them contains a block of the other list. -/
theorem length_le_of_maximal {blocks others : List (AlignedBlock width)}
    (ascending : blocks.Pairwise fun first second => first.last < second.base)
    (maximal : ∀ block ∈ blocks, MaximalIn (cover blocks) block)
    (same : cover others = cover blocks) : blocks.length ≤ others.length := by
  classical
  have inner : ∀ block : AlignedBlock width, ∃ other : AlignedBlock width,
      block ∈ blocks → other ∈ others ∧ block.base ≤ other.base ∧ other.last ≤ block.last := by
    intro block
    by_cases member : block ∈ blocks
    · have covered : block.base ∈ cover others := by
        rw [same]
        exact mem_cover.mpr ⟨block, member, le_rfl, block.base_le_last⟩
      obtain ⟨other, inOthers, starts, ends⟩ := mem_cover.mp covered
      refine ⟨other, fun _ => ⟨inOthers, ?_⟩⟩
      have within : Set.Icc other.base other.last ⊆ cover blocks := by
        rw [← same]
        exact fun x inside => mem_cover.mpr ⟨other, inOthers, inside⟩
      rcases apart_or_nested block other with before | after | inside | outside
      · have := block.base_le_last
        omega
      · omega
      · exact maximal block member other within inside.1 inside.2
      · exact outside
    · exact ⟨block, fun claim => absurd claim member⟩
  choose pick picked using inner
  have distinct : (blocks.map pick).Nodup := by
    rw [List.nodup_iff_pairwise_ne, List.pairwise_map]
    refine ascending.imp_of_mem ?_
    intro first second inFirst inSecond before clash
    have left := picked first inFirst
    have right := picked second inSecond
    have := (pick second).base_le_last
    rw [clash] at left
    omega
  have subset : blocks.map pick ⊆ others := by
    intro other member
    obtain ⟨block, inBlocks, rfl⟩ := List.mem_map.mp member
    exact (picked block inBlocks).1
  simpa using (List.subperm_of_subset distinct subset).length_le

/-! ## Greedy tilings -/

/-- The blocks tile `lo .. hi` from the left, each the largest that fits. -/
inductive GreedyTiling (hi : Int) : Int → List (AlignedBlock width) → Prop where
  | done {lo : Int} (finished : hi < lo) : GreedyTiling hi lo []
  | step {lo : Int} {rest : List (AlignedBlock width)} (block : AlignedBlock width)
      (starts : block.base = lo) (fits : block.last ≤ hi)
      (largest : ∀ other : AlignedBlock width, other.base = lo → other.last ≤ hi →
        other.last ≤ block.last)
      (tail : GreedyTiling hi (block.last + 1) rest) : GreedyTiling hi lo (block :: rest)

namespace GreedyTiling

variable {lo hi : Int} {blocks : List (AlignedBlock width)}

theorem bounds (tiling : GreedyTiling hi lo blocks) {block : AlignedBlock width}
    (member : block ∈ blocks) : lo ≤ block.base ∧ block.last ≤ hi := by
  induction tiling with
  | done => cases member
  | step first starts fits largest tail ih =>
      rcases List.mem_cons.mp member with rfl | inRest
      · exact ⟨starts.ge, fits⟩
      · have inner := ih inRest
        have := first.base_le_last
        omega

theorem mem_cover_iff (tiling : GreedyTiling hi lo blocks) (x : Int) :
    x ∈ cover blocks ↔ lo ≤ x ∧ x ≤ hi := by
  induction tiling with
  | done finished => simp only [cover_nil, Set.mem_empty_iff_false, false_iff]; omega
  | step first starts fits largest tail ih =>
      have := first.base_le_last
      rw [mem_cover_cons, ih]
      omega

theorem ascending (tiling : GreedyTiling hi lo blocks) :
    blocks.Pairwise fun first second => first.last < second.base := by
  induction tiling with
  | done => exact List.Pairwise.nil
  | step first starts fits largest tail ih =>
      refine List.pairwise_cons.mpr ⟨fun other member => ?_, ih⟩
      exact Int.lt_of_add_one_le (tail.bounds member).1

/-- The invariant is that no block inside `start .. hi` crosses the point the
tiling has reached. -/
theorem maximal_of_uncrossed (tiling : GreedyTiling hi lo blocks) {start : Int} (reached : start ≤ lo)
    (uncrossed : ∀ other : AlignedBlock width, start ≤ other.base → other.last ≤ hi →
      other.base < lo → other.last < lo) :
    ∀ block ∈ blocks, MaximalIn (Set.Icc start hi) block := by
  induction tiling with
  | done => simp
  | @step lo rest first starts fits largest tail ih =>
      have ordered := first.base_le_last
      intro block member
      rcases List.mem_cons.mp member with rfl | inRest
      · intro other within below above
        have outer := other.base_le_last
        have left := within ⟨le_rfl, outer⟩
        have right := within ⟨outer, le_rfl⟩
        by_cases crosses : other.base < lo
        · have := uncrossed other left.1 right.2 crosses
          omega
        · have := largest other (by omega) right.2
          omega
      · refine ih (by omega) ?_ block inRest
        intro other left right before
        by_cases crosses : other.base < lo
        · have := uncrossed other left right crosses
          omega
        · rcases apart_or_nested other first with apart | apart | inside | outside
          · omega
          · omega
          · omega
          · have := largest other (by omega) right
            omega

theorem maximal (tiling : GreedyTiling hi lo blocks) :
    ∀ block ∈ blocks, MaximalIn (Set.Icc lo hi) block :=
  tiling.maximal_of_uncrossed le_rfl fun _ _ _ before => by omega

theorem unique (tiling : GreedyTiling hi lo blocks) {others : List (AlignedBlock width)} (other : GreedyTiling hi lo others) :
    blocks = others := by
  induction tiling generalizing others with
  | done finished =>
      cases other with
      | done => rfl
      | step block starts fits =>
          have := block.base_le_last
          omega
  | step block starts fits largest tail ih =>
      cases other with
      | done finished =>
          have := block.base_le_last
          omega
      | step block' starts' fits' largest' tail' =>
          have same : block = block' := ext_ends (starts.trans starts'.symm)
            ((largest' block starts fits).antisymm (largest block' starts' fits'))
          subst same
          rw [ih tail']

end GreedyTiling

/-! ## Tilings of interval lists -/

/-- One greedy tiling for each interval, in order. -/
inductive TilesAll : List (ClosedInterval Int) → List (AlignedBlock width) → Prop where
  | nil : TilesAll [] []
  | cons {range : ClosedInterval Int} {ranges : List (ClosedInterval Int)} {blocks rest : List (AlignedBlock width)}
      (tiling : GreedyTiling range.hi range.lo blocks) (tail : TilesAll ranges rest) :
      TilesAll (range :: ranges) (blocks ++ rest)

namespace TilesAll

variable {ranges : List (ClosedInterval Int)} {blocks : List (AlignedBlock width)}

theorem cover_eq (tiles : TilesAll ranges blocks) : cover blocks = denote ranges := by
  induction tiles with
  | nil => rw [cover_nil, denote_nil]
  | cons tiling tail ih =>
      ext x
      rw [mem_cover_append, mem_denote_cons, tiling.mem_cover_iff, ih]

theorem unique (tiles : TilesAll ranges blocks) {others : List (AlignedBlock width)} (other : TilesAll ranges others) :
    blocks = others := by
  induction tiles generalizing others with
  | nil =>
      cases other
      rfl
  | cons tiling tail ih =>
      cases other with
      | cons tiling' tail' => rw [tiling.unique tiling', ih tail']

/-- Every block lies inside one interval and is maximal there. -/
theorem mem_range (tiles : TilesAll ranges blocks) {block : AlignedBlock width} (member : block ∈ blocks) :
    ∃ range ∈ ranges, range.lo ≤ block.base ∧ block.last ≤ range.hi ∧
      MaximalIn (Set.Icc range.lo range.hi) block := by
  induction tiles with
  | nil => cases member
  | @cons range ranges blocks rest tiling tail ih =>
      rcases List.mem_append.mp member with inFirst | inRest
      · exact ⟨range, .head _, (tiling.bounds inFirst).1, (tiling.bounds inFirst).2,
          tiling.maximal block inFirst⟩
      · obtain ⟨other, inRanges, found⟩ := ih inRest
        exact ⟨other, .tail _ inRanges, found⟩

theorem ascending (tiles : TilesAll ranges blocks) (canon : Canonical ranges) :
    blocks.Pairwise fun first second => first.last < second.base := by
  induction tiles with
  | nil => exact List.Pairwise.nil
  | @cons range ranges blocks rest tiling tail ih =>
      obtain ⟨_, gaps, restCanon⟩ := canonical_cons.mp canon
      refine List.pairwise_append.mpr ⟨tiling.ascending, ih restCanon, ?_⟩
      intro block inFirst other inRest
      obtain ⟨next, inRanges, starts, _⟩ := tail.mem_range inRest
      have apart : range.hi + 1 < next.lo := gaps next inRanges
      have := (tiling.bounds inFirst).2
      omega

theorem ends_missing {range : ClosedInterval Int} (canon : Canonical ranges) (member : range ∈ ranges) :
    range.lo - 1 ∉ denote ranges ∧ range.hi + 1 ∉ denote ranges := by
  induction ranges with
  | nil => cases member
  | cons first rest ih =>
      obtain ⟨proper, gaps, restCanon⟩ := canonical_cons.mp canon
      rcases List.mem_cons.mp member with rfl | inRest
      · refine ⟨fun inside => ?_, canon.succ_hi_notMem (Int.lt_add_one_of_le le_rfl) le_rfl⟩
        have := canon.lo_le inside
        omega
      · obtain ⟨left, right⟩ := ih restCanon inRest
        have apart : first.hi + 1 < range.lo := gaps range inRest
        have ordered := restCanon.proper range inRest
        simp only [mem_denote_cons, left, right, or_false]
        omega

/-- Inside a canonical list consecutive points stay in one interval. -/
theorem segment_within {range : ClosedInterval Int} (canon : Canonical ranges) (member : range ∈ ranges)
    {lo hi : Int} (within : Set.Icc lo hi ⊆ denote ranges) (starts : lo ≤ range.hi)
    (stops : range.lo ≤ hi) : Set.Icc lo hi ⊆ Set.Icc range.lo range.hi := by
  obtain ⟨left, right⟩ := ends_missing canon member
  have ordered := canon.proper range member
  intro x inside
  constructor
  · by_contra early
    exact left (within ⟨by have := inside.1; omega, by omega⟩)
  · by_contra late
    exact right (within ⟨by omega, by have := inside.2; omega⟩)

theorem maximal (tiles : TilesAll ranges blocks) (canon : Canonical ranges) :
    ∀ block ∈ blocks, MaximalIn (cover blocks) block := by
  intro block member other within below above
  rw [tiles.cover_eq] at within
  obtain ⟨range, inRanges, starts, stops, maximal⟩ := tiles.mem_range member
  have ordered := block.base_le_last
  exact maximal other (segment_within canon inRanges within (by omega) (by omega)) below above

/-- A greedy tiling of a canonical list has the least number of blocks. -/
theorem length_le (tiles : TilesAll ranges blocks) (canon : Canonical ranges)
    {others : List (AlignedBlock width)} (same : cover others = denote ranges) :
    blocks.length ≤ others.length :=
  length_le_of_maximal (tiles.ascending canon) (tiles.maximal canon) (same.trans tiles.cover_eq.symm)

end TilesAll

/-- The greedy tiling of the set of a canonical list: its least cover, in ascending order. -/
def Tiles (region : Set Int) (blocks : List (AlignedBlock width)) : Prop :=
  ∃ ranges, Canonical ranges ∧ denote ranges = region ∧ TilesAll ranges blocks

theorem Tiles.unique {region : Set Int} {blocks others : List (AlignedBlock width)} (tiles : Tiles region blocks)
    (other : Tiles region others) : blocks = others := by
  obtain ⟨ranges, canon, same, tiles⟩ := tiles
  obtain ⟨ranges', canon', same', tiles'⟩ := other
  obtain rfl := canon.eq_of_denote_eq canon' (same.trans same'.symm)
  exact tiles.unique tiles'

theorem Tiles.cover_eq {region : Set Int} {blocks : List (AlignedBlock width)} (tiles : Tiles region blocks) :
    cover blocks = region := by
  obtain ⟨ranges, -, same, tiles⟩ := tiles
  exact tiles.cover_eq.trans same

/-- No cover of the set has fewer blocks. -/
theorem Tiles.length_le {region : Set Int} {blocks others : List (AlignedBlock width)} (tiles : Tiles region blocks)
    (other : cover others = region) : blocks.length ≤ others.length := by
  obtain ⟨ranges, canon, same, tiles⟩ := tiles
  exact tiles.length_le canon (other.trans same.symm)

end AlignedBlock

end XWrt.Foundation
