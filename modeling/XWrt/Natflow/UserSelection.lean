import XWrt.Ipops.NetForms
import XWrt.Natflow.QosInit

/-!
# The users the two QoS front ends select

For one user list, the simple QoS worker and the QoS init script select the same
IPv4 addresses exactly when the list is empty, or the script's list has something
left after parsing, fits into the set, and is the list the worker reads. A list
of which nothing is left makes the script's rule apply to everybody and the
worker's to nobody.
-/

namespace XWrt.Natflow

open Foundation
open Foundation.IntervalList
open Foundation.Text
open Ipops

/-! ## The worker -/

/-- The items of the list that the worker hands to `ipops.lua`. -/
def v4Items (user : String) : List String := (splitList user).filter fun item => !isIpv6 item

theorem not_isIpv6_of_printed {text : String} {separators : List Char} {parts : List Nat}
    (chars : text.toList = printedParts separators parts) (free : ':' ∉ separators) : isIpv6 text = false := by
  unfold isIpv6
  rw [chars, List.contains_eq_mem, decide_eq_false_iff_not]
  intro inside
  rcases mem_printedParts inside with digit | separator
  · exact absurd digit (by decide)
  · exact free separator

theorem isIpv6_int2ipstr (x : Nat) : isIpv6 (int2ipstr x) = false :=
  not_isIpv6_of_printed (int2ipstr_toList x) (by decide)

theorem splitList_eq (value : String) :
    splitList value = (words (fun char => !isSpace char && char != ',') value.toList).map String.ofList := by
  rw [splitList, words_replace (by decide)]

/-- An item of a list: not empty, and without the characters that separate items. -/
def IsItem (item : String) : Prop :=
  item.toList ≠ [] ∧ ∀ char ∈ item.toList, (!isSpace char && char != ',') = true

theorem isItem_of_mem {user item : String} (member : item ∈ splitList user) : IsItem item := by
  rw [splitList_eq] at member
  obtain ⟨piece, inside, rfl⟩ := List.mem_map.mp member
  rw [IsItem, String.toList_ofList]
  exact ⟨ne_nil_of_mem_words inside, fun _ => inWord_of_mem_words inside⟩

/-- Joined with commas and cut again, the items are what they were. -/
theorem splitList_intercalate {items : List String} (plain : ∀ item ∈ items, IsItem item) :
    splitList (String.intercalate "," items) = items := by
  rw [splitList_eq]
  exact words_joined rfl (by decide) plain

theorem v4Items_plain (user : String) : ∀ item ∈ v4Items user, IsItem item :=
  fun _ member => isItem_of_mem (List.mem_of_mem_filter member)

theorem netStringSet2rangeSet_address {x : Nat} (bound : x < 2 ^ 32) : netStringSet2rangeSet [int2ipstr x] = [⟨x, x⟩] := by
  simp only [netStringSet2rangeSet, List.foldl_cons, List.foldl_nil, netString2range_int2ipstr bound]
  rfl

theorem normalizeMac_empty : normalizeMac "" = "" := by decide

/-- What the worker says about an IPv4 address. -/
theorem userMatches_iff (user mac : String) {x : Nat} (bound : x < 2 ^ 32) :
    userMatches (compileRule user "") (int2ipstr x) mac = true ↔
      user = "" ∨ (x : Int) ∈ denote (netStringSet2rangeSet (v4Items user)) := by
  have items : splitList (String.intercalate "," (v4Items user)) = v4Items user :=
    splitList_intercalate (v4Items_plain user)
  have anyMac : ¬((compileRule user "").mac != "" && normalizeMac mac != (compileRule user "").mac) = true := by
    simp [compileRule, normalizeMac_empty]
  rw [userMatches, if_neg anyMac]
  by_cases all : user = ""
  · simp [compileRule, all]
  · have some : ¬((compileRule user "").user == "") = true := by simpa [compileRule] using all
    rw [if_neg some, isIpv6_int2ipstr, if_neg Bool.false_ne_true, or_iff_right all]
    change (if (String.intercalate "," (v4Items user) == "") = true then false
      else ipopsTestNetstrings (String.intercalate "," (v4Items user)) (int2ipstr x)) = true ↔ _
    split
    next none =>
        rw [beq_iff_eq.mp none] at items
        rw [← items]
        simp [splitList, netStringSet2rangeSet]
    next listed =>
        rw [ipopsTestNetstrings, Bool.not_eq_true _ |>.mp listed, Bool.false_or, netStringSet2rangeSet_address bound, items]
        exact rangeSetInRangeSet_address _ _

/-! ## The script -/

/-- A set takes the first elements up to its limit. -/
theorem foldl_ipsetAdd {set nets : List String} (distinct : (set ++ nets).Nodup) (room : set.length ≤ maxelem) :
    nets.foldl ipsetAdd set = (set ++ nets).take maxelem := by
  induction nets generalizing set with
  | nil => rw [List.append_nil, List.take_of_length_le room, List.foldl_nil]
  | cons net rest ih =>
      have fresh : net ∉ set := fun there => (List.nodup_append.mp distinct).2.2 net there net List.mem_cons_self rfl
      rw [List.foldl_cons]
      by_cases full : maxelem ≤ set.length
      · have refused : ipsetAdd set net = set := if_pos (Or.inr full)
        have whole : ∀ others : List String, (set ++ others).take maxelem = set := fun others => by
          rw [List.take_append_of_le_length full, List.take_of_length_le room]
        have others : (set ++ rest).Nodup := distinct.sublist ((List.sublist_cons_self net rest).append_left set)
        rw [refused, ih others room, whole, whole]
      · have added : ipsetAdd set net = set ++ [net] := if_neg (by simp [fresh, full])
        have split : set ++ net :: rest = set ++ [net] ++ rest := by simp
        rw [split] at distinct ⊢
        rw [added, ih distinct (by rw [List.length_append]; exact Nat.lt_of_not_le full)]

/-- The IPv4 elements of the set. -/
theorem foldl_ipSetAdd_v4 (ipList : List String) (members : DualStackSet) :
    (ipList.foldl ipSetAdd members).v4 = ((ipList.flatMap halves).filter fun net => !isIpv6 net).foldl ipsetAdd members.v4 := by
  have spread : ipList.foldl ipSetAdd members = (ipList.flatMap halves).foldl ipSetAddOne members := by
    rw [List.foldl_flatMap]
    rfl
  rw [spread]
  clear spread
  generalize ipList.flatMap halves = nets
  induction nets generalizing members with
  | nil => rfl
  | cons net rest ih =>
      rw [List.foldl_cons, ih]
      by_cases v6 : isIpv6 net = true
      · simp [ipSetAddOne, v6]
      · simp [ipSetAddOne, v6]

/-- A block that the set takes as two halves. -/
def halveBlock (block : CidrBlock) : List CidrBlock :=
  if block.exp = 32 then [⟨0, 31, by decide, by decide⟩, ⟨2 ^ 31, 31, by decide, by decide⟩] else [block]

section Blocks

variable {block : CidrBlock}

theorem isIpv6_ipcidr (nonneg : 0 ≤ block.base) : isIpv6 block.ipcidr = false := by
  obtain ⟨x, starts⟩ := Int.eq_ofNat_of_zero_le nonneg
  exact not_isIpv6_of_printed (ipcidr_toList starts) (by decide)

theorem netCovers_ipcidr (nonneg : 0 ≤ block.base) (below : block.last < 2 ^ 32) (x : Nat) :
    netCovers block.ipcidr x = true ↔ block.base ≤ x ∧ (x : Int) ≤ block.last := by
  simp [netCovers, isIpv6_ipcidr nonneg, netString2range_ipcidr nonneg below]

/-- The block of all addresses is the only one of its size. -/
theorem base_eq_zero (nonneg : 0 ≤ block.base) (below : block.last < 2 ^ 32) (whole : block.exp = 32) : block.base = 0 := by
  have size : block.size = 2 ^ 32 := by rw [AlignedBlock.size, whole]
  rw [AlignedBlock.last, size] at below
  omega

theorem ipcidr_eq_zero_iff (nonneg : 0 ≤ block.base) (below : block.last < 2 ^ 32) :
    block.ipcidr = "0.0.0.0/0" ↔ block.exp = 32 := by
  constructor
  · intro same
    have read := netString2range_ipcidr nonneg below
    have zero : netString2range "0.0.0.0/0" = some ⟨0, 2 ^ 32 - 1⟩ := by decide
    rw [same, zero, Option.some.injEq, ClosedInterval.mk.injEq] at read
    have size : block.size = 2 ^ 32 := by
      have last := read.2
      rw [AlignedBlock.last, ← read.1] at last
      omega
    have power : (2 : Nat) ^ block.exp = 2 ^ 32 := by
      rw [AlignedBlock.size] at size
      exact_mod_cast size
    exact Nat.pow_right_injective le_rfl power
  · intro whole
    rw [CidrBlock.ipcidr, CidrBlock.cidr, base_eq_zero nonneg below whole, whole]
    decide

theorem halves_ipcidr (nonneg : 0 ≤ block.base) (below : block.last < 2 ^ 32) :
    halves block.ipcidr = (halveBlock block).map CidrBlock.ipcidr := by
  have notV6 : block.ipcidr ≠ "::/0" := by
    intro same
    have v4 := isIpv6_ipcidr nonneg
    rw [same] at v4
    exact absurd v4 (by decide)
  by_cases whole : block.exp = 32
  · rw [halves, if_pos ((ipcidr_eq_zero_iff nonneg below).mpr whole), halveBlock, if_pos whole]
    decide
  · rw [halves, if_neg (mt (ipcidr_eq_zero_iff nonneg below).mp whole), if_neg notV6, halveBlock, if_neg whole]
    rfl

theorem mem_halveBlock (nonneg : 0 ≤ block.base) (below : block.last < 2 ^ 32) (x : Int) :
    (∃ half ∈ halveBlock block, half.base ≤ x ∧ x ≤ half.last) ↔ block.base ≤ x ∧ x ≤ block.last := by
  unfold halveBlock
  split
  next whole =>
      have size : block.last = 2 ^ 32 - 1 := by
        rw [AlignedBlock.last, AlignedBlock.size, base_eq_zero nonneg below whole, whole, Int.zero_add]
      rw [base_eq_zero nonneg below whole, size]
      simp only [List.mem_cons, List.not_mem_nil, or_false, exists_eq_or_imp, exists_eq_left, AlignedBlock.last, AlignedBlock.size]
      omega
  next => simp

end Blocks

section Elements

variable {blocks : List CidrBlock}

/-- The blocks the set is given. -/
def elements (blocks : List CidrBlock) : List CidrBlock := blocks.flatMap halveBlock

/-- Every block is one of IPv4 addresses. -/
def Within (blocks : List CidrBlock) : Prop := ∀ block ∈ blocks, 0 ≤ block.base ∧ block.last < 2 ^ 32

theorem within_of_cover {rangeSet : RangeSet} (nonneg : ∀ range ∈ rangeSet, 0 ≤ range.lo) (narrow : Narrow rangeSet)
    (cover : AlignedBlock.cover blocks = denote rangeSet) : Within blocks := by
  intro block member
  have order := block.base_le_last
  have first : block.base ∈ AlignedBlock.cover blocks := AlignedBlock.mem_cover.mpr ⟨block, member, le_rfl, order⟩
  have last : block.last ∈ AlignedBlock.cover blocks := AlignedBlock.mem_cover.mpr ⟨block, member, order, le_rfl⟩
  rw [cover] at first last
  obtain ⟨low, inLow, lower, _⟩ := mem_denote.mp first
  obtain ⟨high, inHigh, _, upper⟩ := mem_denote.mp last
  exact ⟨(nonneg low inLow).trans lower, upper.trans_lt (narrow high inHigh)⟩

theorem mem_cover_elements (within : Within blocks) (x : Int) :
    x ∈ AlignedBlock.cover (elements blocks) ↔ x ∈ AlignedBlock.cover blocks := by
  simp only [AlignedBlock.mem_cover, elements, List.mem_flatMap]
  constructor
  · rintro ⟨half, ⟨block, member, inside⟩, bounds⟩
    exact ⟨block, member, (mem_halveBlock (within block member).1 (within block member).2 x).mp ⟨half, inside, bounds⟩⟩
  · rintro ⟨block, member, bounds⟩
    obtain ⟨half, inside, bounds'⟩ := (mem_halveBlock (within block member).1 (within block member).2 x).mpr bounds
    exact ⟨half, ⟨block, member, inside⟩, bounds'⟩

theorem within_elements (within : Within blocks) : Within (elements blocks) := by
  intro half member
  obtain ⟨block, inBlocks, inside⟩ := List.mem_flatMap.mp member
  obtain ⟨nonneg, below⟩ := within block inBlocks
  have order := half.base_le_last
  have first := (mem_halveBlock nonneg below half.base).mp ⟨half, inside, le_rfl, order⟩
  have last := (mem_halveBlock nonneg below half.last).mp ⟨half, inside, order, le_rfl⟩
  omega

theorem ascending_elements (within : Within blocks) (ascending : blocks.Pairwise fun first second => first.last < second.base) :
    (elements blocks).Pairwise fun first second => first.last < second.base := by
  refine List.pairwise_flatMap.mpr ⟨fun block _ => ?_, ?_⟩
  · unfold halveBlock
    split
    · simp [AlignedBlock.last, AlignedBlock.size]
    · exact List.pairwise_singleton _ _
  · refine (List.pairwise_iff_forall_sublist.mpr fun {first second} sub => ?_)
    have order := List.pairwise_iff_forall_sublist.mp ascending sub
    have one : first ∈ blocks := sub.subset (by simp)
    have two : second ∈ blocks := sub.subset (by simp)
    intro left inLeft right inRight
    have high := (mem_halveBlock (within first one).1 (within first one).2 left.last).mp
      ⟨left, inLeft, left.base_le_last, le_rfl⟩
    have low := (mem_halveBlock (within second two).1 (within second two).2 right.base).mp
      ⟨right, inRight, le_rfl, right.base_le_last⟩
    omega

theorem elements_nodup (within : Within blocks) (ascending : blocks.Pairwise fun first second => first.last < second.base) :
    ((elements blocks).map CidrBlock.ipcidr).Nodup := by
  rw [List.Nodup, List.pairwise_map]
  refine (ascending_elements within ascending).imp_of_mem fun {first second} one two order same => ?_
  have read := netString2range_ipcidr (within_elements within first one).1 (within_elements within first one).2
  rw [same, netString2range_ipcidr (within_elements within second two).1 (within_elements within second two).2,
    Option.some.injEq, ClosedInterval.mk.injEq] at read
  have := first.base_le_last
  omega

theorem length_le_elements (blocks : List CidrBlock) : blocks.length ≤ (elements blocks).length := by
  induction blocks with
  | nil => exact le_rfl
  | cons block rest ih =>
      have one : 1 ≤ (halveBlock block).length := by
        unfold halveBlock
        split
        · decide
        · exact le_rfl
      rw [elements, List.flatMap_cons, List.length_append, List.length_cons]
      rw [elements] at ih
      omega

/-- The block of all addresses stands alone. -/
theorem alone_of_whole (within : Within blocks) (ascending : blocks.Pairwise fun first second => first.last < second.base)
    {block : CidrBlock} (member : block ∈ blocks) (exp : block.exp = 32) : blocks = [block] := by
  obtain ⟨before, after, rfl⟩ := List.append_of_mem member
  have first : block.base = 0 := base_eq_zero (within block member).1 (within block member).2 exp
  have last : block.last = 2 ^ 32 - 1 := by rw [AlignedBlock.last, AlignedBlock.size, first, exp, Int.zero_add]
  obtain ⟨_, later, earlier⟩ := List.pairwise_append.mp ascending
  have nothingBefore : before = [] := by
    refine List.eq_nil_iff_forall_not_mem.mpr fun other inside => ?_
    have order := earlier other inside block List.mem_cons_self
    have bounds := (within other (List.mem_append_left _ inside)).1
    have := other.base_le_last
    omega
  have nothingAfter : after = [] := by
    refine List.eq_nil_iff_forall_not_mem.mpr fun other inside => ?_
    have order := (List.pairwise_cons.mp later).1 other inside
    have bounds := (within other (List.mem_append_right _ (List.mem_cons_of_mem _ inside))).2
    have := other.base_le_last
    omega
  rw [nothingBefore, nothingAfter, List.nil_append]

/-- So only a single block is halved. -/
theorem elements_eq (within : Within blocks) (ascending : blocks.Pairwise fun first second => first.last < second.base)
    (several : 1 < blocks.length) : elements blocks = blocks := by
  have kept : ∀ block ∈ blocks, halveBlock block = [block] := by
    refine fun block member => if_neg fun exp => ?_
    rw [alone_of_whole within ascending member exp] at several
    exact lt_irrefl _ several
  rw [elements, List.flatMap_congr kept]
  simp

/-- Halving the block of all addresses never fills the set. -/
theorem elements_fit_iff (within : Within blocks) (ascending : blocks.Pairwise fun first second => first.last < second.base) :
    (elements blocks).length ≤ maxelem ↔ blocks.length ≤ maxelem := by
  refine ⟨fun fits => (length_le_elements blocks).trans fits, fun fits => ?_⟩
  by_cases several : 1 < blocks.length
  · rwa [elements_eq within ascending several]
  · have few : (elements blocks).length ≤ 2 := by
      rcases blocks with _ | ⟨block, _ | ⟨second, rest⟩⟩
      · simp [elements]
      · rw [elements, List.flatMap_singleton, halveBlock]
        split <;> simp
      · simp at several
    exact few.trans (by decide)

theorem flatMap_halves (within : Within blocks) :
    (blocks.map CidrBlock.ipcidr).flatMap halves = (elements blocks).map CidrBlock.ipcidr := by
  rw [List.flatMap_map, elements, List.map_flatMap]
  exact List.flatMap_congr fun block member => halves_ipcidr (within block member).1 (within block member).2

theorem isIpv6_halves {ip net : String} (colon : isIpv6 ip = true) (half : net ∈ halves ip) : isIpv6 net = true := by
  unfold halves at half
  split at half
  next zero =>
    rw [zero] at colon
    exact absurd colon (by decide)
  next =>
    split at half
    · rcases List.mem_pair.mp half with rfl | rfl
      · decide
      · decide
    · rw [List.mem_singleton.mp half, colon]

theorem filter_halves {v6 : List String} (within : Within blocks) (colons : ∀ ip ∈ v6, isIpv6 ip = true) :
    ((blocks.map CidrBlock.ipcidr ++ v6).flatMap halves).filter (fun net => !isIpv6 net) =
      (elements blocks).map CidrBlock.ipcidr := by
  have none : (v6.flatMap halves).filter (fun net => !isIpv6 net) = [] := by
    refine List.filter_eq_nil_iff.mpr fun net member => ?_
    obtain ⟨ip, inside, half⟩ := List.mem_flatMap.mp member
    rw [isIpv6_halves (colons ip inside) half]
    decide
  rw [List.flatMap_append, List.filter_append, none, List.append_nil, flatMap_halves within]
  refine List.filter_eq_self.mpr fun net member => ?_
  obtain ⟨block, inside, rfl⟩ := List.mem_map.mp member
  rw [isIpv6_ipcidr (within_elements within block inside).1]
  rfl

theorem any_netCovers (within : Within blocks) (n x : Nat) :
    (∃ net ∈ ((elements blocks).take n).map CidrBlock.ipcidr, netCovers net x = true) ↔
      (x : Int) ∈ AlignedBlock.cover ((elements blocks).take n) := by
  simp only [List.mem_map, exists_exists_and_eq_and, AlignedBlock.mem_cover]
  refine exists_congr fun block => and_congr_right fun member => ?_
  have bounds := within_elements within block (List.mem_of_mem_take member)
  exact netCovers_ipcidr bounds.1 bounds.2 x

theorem ipset_covers {v6 : List String} (within : Within blocks) (colons : ∀ ip ∈ v6, isIpv6 ip = true)
    (ascending : blocks.Pairwise fun first second => first.last < second.base) (x : Nat) :
    (Selector.ipset ((blocks.map CidrBlock.ipcidr ++ v6).foldl ipSetAdd ⟨[], []⟩)).covers x = true ↔
      (x : Int) ∈ AlignedBlock.cover ((elements blocks).take maxelem) := by
  have members : ((blocks.map CidrBlock.ipcidr ++ v6).foldl ipSetAdd ⟨[], []⟩).v4 =
      ((elements blocks).take maxelem).map CidrBlock.ipcidr := by
    rw [foldl_ipSetAdd_v4, filter_halves within colons,
      foldl_ipsetAdd (by simpa using elements_nodup within ascending) (Nat.zero_le _), List.nil_append, List.map_take]
  rw [Selector.covers, members, List.any_eq_true]
  exact any_netCovers within maxelem x

/-- What the rule that the script writes says about an IPv4 address. -/
theorem selectorOf_covers {v6 : List String} (within : Within blocks) (colons : ∀ ip ∈ v6, isIpv6 ip = true)
    (ascending : blocks.Pairwise fun first second => first.last < second.base) (x : Nat) :
    (selectorOf (blocks.map CidrBlock.ipcidr ++ v6)).covers x = true ↔
      blocks = [] ∧ v6 = [] ∨ (x : Int) ∈ AlignedBlock.cover ((elements blocks).take maxelem) := by
  rcases words : blocks.map CidrBlock.ipcidr ++ v6 with _ | ⟨net, _ | ⟨second, rest⟩⟩
  · obtain ⟨none, rfl⟩ := List.append_eq_nil_iff.mp words
    obtain rfl := List.map_eq_nil_iff.mp none
    exact iff_of_true rfl (Or.inl ⟨rfl, rfl⟩)
  · rcases blocks with _ | ⟨block, rest⟩
    · obtain rfl : v6 = [net] := words
      have colon := colons net List.mem_cons_self
      simp [selectorOf, Selector.covers, netCovers, colon, elements]
    · obtain ⟨rfl, none⟩ := List.cons.inj words
      obtain ⟨last, rfl⟩ := List.append_eq_nil_iff.mp none
      obtain rfl := List.map_eq_nil_iff.mp last
      have bounds := within block List.mem_cons_self
      have fits : (elements [block]).take maxelem = elements [block] :=
        List.take_of_length_le ((elements_fit_iff within ascending).mpr (by simp [maxelem]))
      rw [fits, mem_cover_elements within]
      simpa [selectorOf, Selector.covers] using netCovers_ipcidr bounds.1 bounds.2 x
  · have several : ¬(blocks = [] ∧ v6 = []) := by
      rintro ⟨rfl, rfl⟩
      cases words
    rw [or_iff_right several, ← ipset_covers within colons ascending, words]
    rfl

end Elements

/-! ## Both -/

/-- The networks `ipops.lua` is given by the script. -/
def scriptItems (glob : String → List String) (user : String) : List String := splitNetStrings (v4List glob user)

/-- The script ends, and its rule and the worker's are for the same IPv4 addresses. -/
def SameUsers (glob : String → List String) (user : String) : Prop :=
  ∃ fuel selector, setupQosIpField glob fuel user = some selector ∧
    ∀ x : Nat, x < 2 ^ 32 → ∀ mac, userMatches (compileRule user "") (int2ipstr x) mac = selector.covers x

/-- The IPv4 addresses in the networks of a list. -/
def addressesOf (netStrings : List String) : Set Int :=
  {x | 0 ≤ x ∧ x < 2 ^ 32 ∧ ∃ netString ∈ netStrings, ∃ range, netString2range netString = some range ∧ range.lo ≤ x ∧ x ≤ range.hi}

theorem netStrings2ipcidrStrings_empty (fuel : Nat) : netStrings2ipcidrStrings fuel "" = some [] := by
  simp [netStrings2ipcidrStrings, splitNetStrings, netStringSet2rangeSet, rangeSet2ipcidrSet]

theorem formatIpStrings_eq (glob : String → List String) (fuel : Nat) (user : String) :
    formatIpStrings glob fuel user =
      (netStrings2ipcidrStrings fuel (v4List glob user)).map fun processed => processed ++ v6List glob user := by
  unfold formatIpStrings
  by_cases empty : v4List glob user = ""
  · rw [if_neg (not_not.mpr empty), empty, netStrings2ipcidrStrings_empty]
    rfl
  · rw [if_pos empty]
    cases netStrings2ipcidrStrings fuel (v4List glob user) with
    | none => rfl
    | some processed => rfl

/-- What the script comes to once its list is read. -/
theorem v4List_narrow {glob : String → List String} {user : String}
    (narrow : Narrow (netStringSet2rangeSet (scriptItems glob user))) :
    ∃ blocks : List CidrBlock, Within blocks ∧ blocks.Pairwise (fun first second => first.last < second.base) ∧
      AlignedBlock.Tiles (denote (netStringSet2rangeSet (scriptItems glob user))) blocks ∧
        (∃ fuel, netStrings2ipcidrStrings fuel (v4List glob user) = some (blocks.map CidrBlock.ipcidr)) ∧
          ∀ fuel line, netStrings2ipcidrStrings fuel (v4List glob user) = some line → line = blocks.map CidrBlock.ipcidr := by
  obtain ⟨blocks, ascending, tiles, run, only⟩ := netStrings2ipcidrStrings_narrow narrow
  exact ⟨blocks, within_of_cover (fun range => parsed_lo_nonneg) narrow tiles.cover_eq, ascending, tiles, ⟨2 ^ 32 + 1, run⟩, only⟩

/-- When the front ends agree. Past the empty list no network that the script reads may reach
beyond 32 bits. -/
inductive SelectsAlike (glob : String → List String) (user : String) : Prop where
  | everybody (empty : user = "")
  /-- Both read the same addresses, something is left of the list and it fits into the set. -/
  | same (ends : ∀ netString ∈ scriptItems glob user, ¬ReachesBeyond netString)
      (left : addressesOf (scriptItems glob user) ≠ ∅ ∨ v6List glob user ≠ [])
      (fits : ∃ blocks : List CidrBlock, AlignedBlock.cover blocks = addressesOf (scriptItems glob user) ∧ blocks.length ≤ maxelem)
      (same : addressesOf (v4Items user) = addressesOf (scriptItems glob user))
  /-- Nothing is left for the script, and the worker reads all addresses. -/
  | nothing (ends : ∀ netString ∈ scriptItems glob user, ¬ReachesBeyond netString)
      (none : addressesOf (scriptItems glob user) = ∅) (noWord : v6List glob user = [])
      (all : addressesOf (v4Items user) = {x | 0 ≤ x ∧ x < 2 ^ 32})
  /-- The set is too small, and the worker reads just what gets into it. -/
  | cut (ends : ∀ netString ∈ scriptItems glob user, ¬ReachesBeyond netString) {blocks : List CidrBlock}
      (tiles : AlignedBlock.Tiles (addressesOf (scriptItems glob user)) blocks) (long : maxelem < blocks.length)
      (first : addressesOf (v4Items user) = AlignedBlock.cover (blocks.take maxelem))

section Agreement

variable {glob : String → List String} {user : String}

theorem v6List_colons : ∀ ip ∈ v6List glob user, isIpv6 ip = true := fun _ member => List.of_mem_filter member

/-- A rule is written exactly when `ipops.lua` ends, from the line it prints. -/
theorem setupQosIpField_eq_some {fuel : Nat} {selector : Selector} :
    setupQosIpField glob fuel user = some selector ↔ ∃ line,
      netStrings2ipcidrStrings fuel (v4List glob user) = some line ∧ selectorOf (line ++ v6List glob user) = selector := by
  simp [setupQosIpField, formatIpStrings_eq]

theorem narrow_of_printed {fuel : Nat} {line : List String}
    (printed : netStrings2ipcidrStrings fuel (v4List glob user) = some line) :
    Narrow (netStringSet2rangeSet (scriptItems glob user)) := by
  by_contra wide
  rw [netStrings2ipcidrStrings_diverges wide fuel] at printed
  cases printed

theorem sameUsers_empty : SameUsers glob "" := by
  refine ⟨0, .none, rfl, fun x bound mac => ?_⟩
  rw [Bool.eq_iff_iff, userMatches_iff "" mac bound]
  exact iff_of_true (Or.inl rfl) rfl

/-- The rule and the worker, once the script's list is known as blocks. -/
theorem printed_agrees_iff {blocks : List CidrBlock} (within : Within blocks)
    (ascending : blocks.Pairwise fun first second => first.last < second.base) (some : user ≠ "") :
    (∀ x : Nat, x < 2 ^ 32 → ∀ mac, userMatches (compileRule user "") (int2ipstr x) mac =
      (selectorOf (blocks.map CidrBlock.ipcidr ++ v6List glob user)).covers x) ↔
        ∀ x : Nat, x < 2 ^ 32 → ((x : Int) ∈ denote (netStringSet2rangeSet (v4Items user)) ↔
          blocks = [] ∧ v6List glob user = [] ∨ (x : Int) ∈ AlignedBlock.cover ((elements blocks).take maxelem)) := by
  refine forall_congr' fun x => forall_congr' fun bound => ?_
  have each : ∀ mac, (userMatches (compileRule user "") (int2ipstr x) mac =
      (selectorOf (blocks.map CidrBlock.ipcidr ++ v6List glob user)).covers x) ↔
        ((x : Int) ∈ denote (netStringSet2rangeSet (v4Items user)) ↔
          blocks = [] ∧ v6List glob user = [] ∨ (x : Int) ∈ AlignedBlock.cover ((elements blocks).take maxelem)) := by
    intro mac
    rw [Bool.eq_iff_iff, userMatches_iff user mac bound, or_iff_right some,
      selectorOf_covers within v6List_colons ascending]
  exact ⟨fun all => (each "").mp (all ""), fun same mac => (each mac).mpr same⟩

theorem mem_addressesOf {netStrings : List String} {x : Int} :
    x ∈ addressesOf netStrings ↔ 0 ≤ x ∧ x < 2 ^ 32 ∧ x ∈ denote (netStringSet2rangeSet netStrings) := by
  rw [(netStringSet2rangeSet_spec netStrings).2]
  refine and_congr_right fun nonneg => and_congr_right fun below => ?_
  exact (mem_denoteStrings_small (by omega) (by omega)).symm

theorem denote_narrow {netStrings : List String} (narrow : Narrow (netStringSet2rangeSet netStrings)) :
    denote (netStringSet2rangeSet netStrings) = addressesOf netStrings := by
  ext x
  rw [mem_addressesOf]
  refine ⟨fun inside => ?_, fun address => address.2.2⟩
  obtain ⟨range, member, lower, upper⟩ := mem_denote.mp inside
  exact ⟨(parsed_lo_nonneg member).trans lower, upper.trans_lt (narrow range member), inside⟩

/-- What the script's rule selects is what the worker selects. -/
theorem selects_iff {blocks : List CidrBlock} (within : Within blocks) :
    (∀ x : Nat, x < 2 ^ 32 → ((x : Int) ∈ denote (netStringSet2rangeSet (v4Items user)) ↔
      blocks = [] ∧ v6List glob user = [] ∨ (x : Int) ∈ AlignedBlock.cover ((elements blocks).take maxelem))) ↔
        if blocks = [] ∧ v6List glob user = [] then addressesOf (v4Items user) = {x | 0 ≤ x ∧ x < 2 ^ 32}
        else addressesOf (v4Items user) = AlignedBlock.cover ((elements blocks).take maxelem) := by
  have inside : ∀ {x : Int}, x ∈ AlignedBlock.cover ((elements blocks).take maxelem) → 0 ≤ x ∧ x < 2 ^ 32 := by
    intro x member
    obtain ⟨block, early, lower, upper⟩ := AlignedBlock.mem_cover.mp member
    obtain ⟨nonneg, below⟩ := within_elements within block (List.mem_of_mem_take early)
    omega
  split
  next nothing =>
      simp only [nothing, and_self, true_or, iff_true]
      constructor
      · intro all
        ext x
        rw [mem_addressesOf]
        refine ⟨fun address => ⟨address.1, address.2.1⟩, fun ⟨nonneg, below⟩ => ?_⟩
        obtain ⟨n, rfl⟩ := Int.eq_ofNat_of_zero_le nonneg
        exact ⟨nonneg, below, all n (by omega)⟩
      · intro all x bound
        have address : (x : Int) ∈ addressesOf (v4Items user) := all ▸ ⟨Int.natCast_nonneg x, by omega⟩
        exact (mem_addressesOf.mp address).2.2
  next some =>
      simp only [some, false_or]
      constructor
      · intro agree
        ext x
        rw [mem_addressesOf]
        constructor
        · rintro ⟨nonneg, below, member⟩
          obtain ⟨n, rfl⟩ := Int.eq_ofNat_of_zero_le nonneg
          exact (agree n (by omega)).mp member
        · intro member
          obtain ⟨nonneg, below⟩ := inside member
          obtain ⟨n, rfl⟩ := Int.eq_ofNat_of_zero_le nonneg
          exact ⟨nonneg, below, (agree n (by omega)).mpr member⟩
      · intro agree x bound
        rw [← agree, mem_addressesOf]
        exact ⟨fun member => ⟨Int.natCast_nonneg x, by omega, member⟩, fun address => address.2.2⟩

/-- The condition, once the blocks of the script's list are known. -/
theorem selectsAlike_iff {blocks : List CidrBlock} (within : Within blocks) (some : user ≠ "")
    (ascending : blocks.Pairwise fun first second => first.last < second.base)
    (ends : ∀ netString ∈ scriptItems glob user, ¬ReachesBeyond netString)
    (tiles : AlignedBlock.Tiles (addressesOf (scriptItems glob user)) blocks) :
    SelectsAlike glob user ↔
      if blocks = [] ∧ v6List glob user = [] then addressesOf (v4Items user) = {x | 0 ≤ x ∧ x < 2 ^ 32}
      else addressesOf (v4Items user) = AlignedBlock.cover ((elements blocks).take maxelem) := by
  have none : blocks = [] ↔ addressesOf (scriptItems glob user) = ∅ := by
    rw [AlignedBlock.eq_nil_iff_cover, tiles.cover_eq]
  have whole (short : blocks.length ≤ maxelem) :
      AlignedBlock.cover ((elements blocks).take maxelem) = addressesOf (scriptItems glob user) := by
    rw [List.take_of_length_le ((elements_fit_iff within ascending).mpr short), ← tiles.cover_eq]
    ext x
    exact mem_cover_elements within x
  have part (long : maxelem < blocks.length) : elements blocks = blocks :=
    elements_eq within ascending (lt_trans (by decide) long)
  constructor
  · intro alike
    cases alike with
    | everybody empty => exact absurd empty some
    | same _ left fits same =>
        obtain ⟨others, cover, few⟩ := fits
        have short : blocks.length ≤ maxelem := (tiles.length_le cover).trans few
        rw [if_neg (fun nothing => left.elim (· (none.mp nothing.1)) (· nothing.2)), whole short, same]
    | nothing _ empty noWord all => rwa [if_pos ⟨none.mpr empty, noWord⟩]
    | cut _ tiles' long first =>
        obtain rfl := tiles.unique tiles'
        have left : ¬(blocks = [] ∧ v6List glob user = []) := by
          rintro ⟨rfl, -⟩
          cases long
        rw [if_neg left, part long, first]
  · intro alike
    split at alike
    next nothing => exact .nothing ends (none.mp nothing.1) nothing.2 alike
    next left =>
        by_cases short : blocks.length ≤ maxelem
        · rw [whole short] at alike
          refine .same ends ?_ ⟨blocks, tiles.cover_eq, short⟩ alike
          rw [← not_and_or, ← none]
          exact left
        · have long := not_le.mp short
          rw [part long] at alike
          exact .cut ends tiles long alike

/-- The two front ends select the same IPv4 users exactly on the lists described. -/
theorem sameUsers_iff : SameUsers glob user ↔ SelectsAlike glob user := by
  by_cases all : user = ""
  · exact iff_of_true (all ▸ sameUsers_empty) (.everybody all)
  by_cases ends : ∀ netString ∈ scriptItems glob user, ¬ReachesBeyond netString
  · have narrow := (narrow_iff _).mpr ends
    obtain ⟨blocks, within, ascending, tiles, ⟨fuel, run⟩, only⟩ := v4List_narrow narrow
    rw [denote_narrow narrow] at tiles
    rw [selectsAlike_iff within all ascending ends tiles, ← selects_iff within, ← printed_agrees_iff within ascending all]
    constructor
    · rintro ⟨fuel, selector, written, agree⟩
      obtain ⟨line, printed, rfl⟩ := setupQosIpField_eq_some.mp written
      rwa [only fuel line printed] at agree
    · intro agree
      exact ⟨fuel, _, setupQosIpField_eq_some.mpr ⟨_, run, rfl⟩, agree⟩
  · -- The script does not end, and no alternative but the empty list lets it.
    refine iff_of_false ?_ fun alike => ?_
    · rintro ⟨fuel, selector, written, -⟩
      obtain ⟨line, printed, -⟩ := setupQosIpField_eq_some.mp written
      exact ends ((narrow_iff _).mp (narrow_of_printed printed))
    · cases alike with
      | everybody empty => exact all empty
      | same narrow => exact ends narrow
      | nothing narrow => exact ends narrow
      | cut narrow => exact ends narrow

/-! ## Ordinary lists -/

theorem shellWords_eq (input : String) :
    shellWords input = (words (fun char => !isIfs char && char != ',') input.toList).map String.ofList := by
  rw [shellWords, words_replace (by decide)]

/-- The characters the worker cuts at and the shell does not. -/
def isOddSpace (char : Char) : Bool := isSpace char && !isIfs char

theorem isSpace_of_isIfs {char : Char} (separates : isIfs char = true) : isSpace char = true := by
  simp only [isIfs, Bool.or_eq_true, beq_iff_eq] at separates
  rcases separates with (rfl | rfl) | rfl
  · decide
  · decide
  · decide

theorem IsItem.ne_empty {item : String} (plain : IsItem item) : item ≠ "" := fun none => plain.1 (by rw [none]; rfl)

theorem intercalate_ne_empty {items : List String} (nonempty : ∀ item ∈ items, item ≠ "") (some : items ≠ []) :
    String.intercalate "," items ≠ "" := by
  obtain ⟨first, rest, rfl⟩ := List.exists_cons_of_ne_nil some
  have nonempty := nonempty first List.mem_cons_self
  cases rest with
  | nil => simpa using nonempty
  | cons second others => simp [String.intercalate_cons_cons, nonempty]

/-- The loop of the script joins its words with commas. -/
theorem foldl_appendV4 {items : List String} (nonempty : ∀ item ∈ items, item ≠ "") :
    items.foldl appendV4 "" = String.intercalate "," items := by
  induction items using List.reverseRecOn with
  | nil => simp
  | append_singleton items item ih =>
      have earlier : ∀ other ∈ items, other ≠ "" := fun other member => nonempty other (List.mem_append_left _ member)
      rw [List.foldl_append, ih earlier]
      by_cases none : items = []
      · simp [none, appendV4]
      · rw [String.intercalate_append_of_ne_nil none (List.cons_ne_nil item []), String.intercalate_singleton]
        exact if_neg (intercalate_ne_empty earlier none)

theorem splitNetStrings_intercalate {items : List String}
    (plain : ∀ item ∈ items, item.toList ≠ [] ∧ ∀ char ∈ item.toList, (char != ',') = true) :
    splitNetStrings (String.intercalate "," items) = items := words_joined rfl (by decide) plain

/-- Without such characters, and where no word is a pattern for file names, both read the same networks. -/
theorem scriptItems_of_ordinary (plain : ∀ char ∈ user.toList, isOddSpace char = false)
    (literal : ∀ word ∈ shellWords user, glob word = [word]) : scriptItems glob user = v4Items user := by
  have items : listed glob user = splitList user := by
    have words : shellWords user = splitList user := by
      rw [shellWords_eq, splitList_eq, words_congr fun char member => ?_]
      have odd := plain char member
      cases space : isSpace char with
      | true =>
          rw [isOddSpace, space, Bool.true_and, Bool.not_eq_false'] at odd
          rw [odd]
      | false =>
          have other : isIfs char = false := by
            by_contra separates
            rw [isSpace_of_isIfs (Bool.not_eq_false _ |>.mp separates)] at space
            cases space
          rw [other]
    rw [listed, List.flatMap_congr literal, words]
    simp
  have joined : v4List glob user = String.intercalate "," (v4Items user) := by
    rw [v4List, items]
    exact foldl_appendV4 fun item member => (v4Items_plain user item member).ne_empty
  have plain : ∀ item ∈ v4Items user, item.toList ≠ [] ∧ ∀ char ∈ item.toList, (char != ',') = true := fun item member =>
    have item := v4Items_plain user item member
    ⟨item.1, fun char here => (Bool.and_eq_true _ _ |>.mp (item.2 char here)).2⟩
  rw [scriptItems, joined, splitNetStrings_intercalate plain]

end Agreement

/-- A list of separators only: nobody for the worker, everybody for the script. -/
theorem separators_select_everybody : ¬SameUsers (fun word => [word]) "," := by
  have items : v4Items "," = [] := by decide
  have nothing : scriptItems (fun word => [word]) "," = [] ∧ v6List (fun word => [word]) "," = [] := by decide
  have nobody : addressesOf [] = ∅ := by
    ext x
    simp [addressesOf]
  rw [sameUsers_iff]
  intro alike
  cases alike with
  | everybody empty => exact absurd empty (by decide)
  | same _ left => exact left.elim (· (by rw [nothing.1, nobody])) (· nothing.2)
  | nothing _ _ _ all =>
      have zero : (0 : Int) ∈ addressesOf [] := by
        rw [← items, all]
        exact ⟨le_rfl, by decide⟩
      rw [nobody] at zero
      exact zero
  | cut _ tiles long =>
      rw [nothing.1, nobody] at tiles
      rw [AlignedBlock.eq_nil_iff_cover.mpr tiles.cover_eq] at long
      cases long

end XWrt.Natflow
