import XWrt.Foundation.Text
import XWrt.Ipops.Cidr

/-!
# Membership and printed networks

The inclusion test of `ipops.lua`, the command that turns network strings into
CIDR strings, and the printed forms read back: an address and a block give the
ranges they were printed from. The command ends exactly when no range of its
input reaches beyond 32 bits.
-/

namespace XWrt.Ipops

open XWrt.Foundation
open XWrt.Foundation.IntervalList
open XWrt.Foundation.Text

/-- `range_in_rangeSet` -/
def rangeInRangeSet (range : Range) (rangeSet : RangeSet) : Bool :=
  rangeSet.any fun r => r.lo ≤ range.lo && range.hi ≤ r.hi

/-- `rangeSet_in_rangeSet` -/
def rangeSetInRangeSet (rangeSetA rangeSetB : RangeSet) : Bool :=
  rangeSetA.all fun range => rangeInRangeSet range rangeSetB

/-- `netStrings:gmatch("[^,]+")` -/
def splitNetStrings (netStrings : String) : List String :=
  (words (· != ',') netStrings.toList).map String.ofList

/-- `netStrings2ipcidrStrings`: the strings of the line it prints. -/
def netStrings2ipcidrStrings (fuel : Nat) (netStrings : String) : Option (List String) :=
  (rangeSet2ipcidrSet fuel (netStringSet2rangeSet (splitNetStrings netStrings))).map Prod.fst

theorem rangeSetInRangeSet_address (x : Int) (rangeSet : RangeSet) :
    rangeSetInRangeSet [⟨x, x⟩] rangeSet = true ↔ x ∈ denote rangeSet := by
  simp [rangeSetInRangeSet, rangeInRangeSet, mem_denote]

/-! ## Reading numbers back -/

theorem tonumber_toDigits (n : Nat) : tonumber (Nat.toDigits 10 n) = n := by
  have read := Nat.ofDigitChars_ten_toDigits (n := n)
  rw [Nat.ofDigitChars_eq_foldl] at read
  simpa only [tonumber, Nat.mul_comm 10] using read

theorem toDigits_isDigit (n : Nat) : ∀ char ∈ Nat.toDigits 10 n, char.isDigit = true :=
  fun _ inside => Nat.isDigit_of_mem_toDigits (by decide) (by decide) inside

theorem getPartsAsNumber_eq (str : String) :
    getPartsAsNumber str = ((words Char.isDigit str.toList).map tonumber).map Double.round := by
  unfold getPartsAsNumber words
  rw [List.map_map]
  congr 2
  funext piece
  cases piece <;> simp

theorem map_round_exact {numbers : List Nat} (small : ∀ n ∈ numbers, n ≤ 2 ^ 53) : numbers.map Double.round = numbers :=
  (List.map_congr_left fun n member => Double.round_exact (small n member)).trans (List.map_id' numbers)

/-- The digits of numbers with separators between them. -/
def printedParts (separators : List Char) (parts : List Nat) : List Char :=
  match parts, separators with
  | [], _ => []
  | part :: _, [] => Nat.toDigits 10 part
  | part :: rest, separator :: others => Nat.toDigits 10 part ++ separator :: printedParts others rest

theorem mem_printedParts {separators : List Char} {parts : List Nat} {char : Char}
    (inside : char ∈ printedParts separators parts) : char.isDigit = true ∨ char ∈ separators := by
  induction parts generalizing separators with
  | nil => cases separators <;> cases inside
  | cons part rest ih =>
      cases separators with
      | nil => exact Or.inl (toDigits_isDigit part char inside)
      | cons separator others =>
          rcases List.mem_append.mp inside with digit | later
          · exact Or.inl (toDigits_isDigit part char digit)
          · rcases List.mem_cons.mp later with rfl | further
            · exact Or.inr List.mem_cons_self
            · exact (ih further).imp_right (List.mem_cons_of_mem _)

theorem words_printedParts {separators : List Char} {parts : List Nat}
    (outside : ∀ separator ∈ separators, separator.isDigit = false) (length : parts.length = separators.length + 1) :
    (words Char.isDigit (printedParts separators parts)).map tonumber = parts := by
  induction separators generalizing parts with
  | nil =>
      obtain ⟨part, rfl⟩ := List.length_eq_one_iff.mp length
      rw [printedParts, words_word (toDigits_isDigit part) Nat.toDigits_ne_nil]
      simp [tonumber_toDigits]
  | cons separator others ih =>
      rw [List.forall_mem_cons] at outside
      cases parts with
      | nil => simp at length
      | cons part rest =>
          rw [printedParts, words_append_separator (toDigits_isDigit part) Nat.toDigits_ne_nil outside.1, List.map_cons,
            ih outside.2 (by simpa using length), tonumber_toDigits]

theorem toList_toString_natCast (n : Nat) : (toString (n : Int)).toList = Nat.toDigits 10 n := by
  change (Nat.repr n).toList = _
  rw [Nat.repr_eq_ofList_toDigits, String.toList_ofList]

/-- The four parts of an address. -/
def octets (x : Nat) : List Nat := [x / 2 ^ 24 % 256, x / 2 ^ 16 % 256, x / 2 ^ 8 % 256, x % 256]

theorem rshift_octet (x i : Nat) : rshift x i % 0x100 = (x / 2 ^ i % 256 : Nat) := by
  rw [rshift]
  push_cast
  rfl

theorem int2ipstr_toList (x : Nat) : (int2ipstr x).toList = printedParts ['.', '.', '.'] (octets x) := by
  unfold int2ipstr
  simp only [rshift_octet, String.toList_append, toList_toString_natCast, octets, printedParts]
  simp

theorem partsToInt_octets {x : Nat} (bound : x < 2 ^ 32) :
    partsToInt (x / 2 ^ 24 % 256) (x / 2 ^ 16 % 256) (x / 2 ^ 8 % 256) (x % 256) = x := by
  have value : ((x / 2 ^ 24 % 256 * 256 + x / 2 ^ 16 % 256) * 256 + x / 2 ^ 8 % 256) * 256 + x % 256 = x := by omega
  rw [partsToInt_exact (value.trans_lt bound), value]

theorem octets_small (x : Nat) : ∀ n ∈ octets x, n ≤ 2 ^ 53 := by
  intro n member
  have below : n < 256 := by
    simp only [octets, List.mem_cons, List.not_mem_nil, or_false] at member
    rcases member with rfl | rfl | rfl | rfl <;> exact Nat.mod_lt _ (by decide)
  exact below.le.trans (by decide)

/-- A printed address reads as itself. -/
theorem netString2range_int2ipstr {x : Nat} (bound : x < 2 ^ 32) : netString2range (int2ipstr x) = some ⟨x, x⟩ := by
  have parts : getPartsAsNumber (int2ipstr x) = octets x := by
    rw [getPartsAsNumber_eq, int2ipstr_toList, words_printedParts (by simp [Char.isDigit]) rfl]
    exact map_round_exact (octets_small x)
  unfold netString2range
  simp only [parts, octets, partsToInt_octets bound]

theorem ipcidr_toList {block : CidrBlock} {x : Nat} (starts : block.base = x) :
    block.ipcidr.toList = printedParts ['.', '.', '.', '/'] (octets x ++ [block.cidr]) := by
  have cidr : (toString block.cidr).toList = Nat.toDigits 10 block.cidr := toList_toString_natCast block.cidr
  rw [CidrBlock.ipcidr, starts, String.toList_append, String.toList_append, int2ipstr_toList, cidr]
  simp [octets, printedParts]

/-- A printed block reads as the range of its addresses. -/
theorem netString2range_ipcidr {block : CidrBlock} (nonneg : 0 ≤ block.base) (below : block.last < 2 ^ 32) :
    netString2range block.ipcidr = some ⟨block.base, block.last⟩ := by
  obtain ⟨x, starts⟩ := Int.eq_ofNat_of_zero_le nonneg
  have ordered := block.base_le_last
  have bound : x < 2 ^ 32 := by omega
  have narrow : block.cidr ≤ 32 := Nat.sub_le _ _
  have parts : getPartsAsNumber block.ipcidr = octets x ++ [block.cidr] := by
    rw [getPartsAsNumber_eq, ipcidr_toList starts, words_printedParts (by simp [Char.isDigit]) rfl]
    exact map_round_exact (List.forall_mem_append.mpr ⟨octets_small x, by simpa using narrow.trans (by decide)⟩)
  have fits : blockFits ⟨x, block.last⟩ block.cidr = true := blockFits_of_block bound starts le_rfl
  obtain ⟨aligned, _⟩ := (blockFits_iff x block.last bound narrow).mp fits
  have first : band x (cidr2int block.cidr) = x := (blockStart_fixed_iff x block.last bound narrow).mpr aligned
  have last : bor x (bnot (cidr2int block.cidr)) = block.last := by
    have ends := blockEnd_eq x block.last bound narrow aligned
    rw [blockEnd, blockStart, first] at ends
    rw [ends, CidrBlock.last_natCast starts, block.sub_cidr]
  unfold netString2range
  simp only [parts, octets, List.cons_append, List.nil_append, partsToInt_octets bound, if_pos narrow, first, last, starts]

/-! ## When the conversion ends -/

/-- A block that the search finds starts and ends below `2 ^ 32`. -/
theorem blockEnd_lt (range : Range) (cidr : Nat) : blockEnd range cidr < 2 ^ 32 := bor_lt _ _

/-- Past 32 bits no block fits, so the loop never reaches the end of such a range. -/
theorem splitRange_diverges (fuel : Nat) {range : Range} (ordered : range.lo ≤ range.hi) (beyond : 2 ^ 32 ≤ range.hi)
    (ipcidrSet : List String) : splitRange fuel range ipcidrSet = none := by
  induction fuel generalizing range ipcidrSet with
  | zero => rfl
  | succ fuel ih =>
      rw [splitRange, if_pos ordered]
      cases found : (List.range 33).find? (blockFits range) with
      | none => exact ih ordered beyond ipcidrSet
      | some cidr =>
          have room := blockEnd_lt range cidr
          have rest : blockEnd range cidr + 1 ≤ range.hi := by omega
          exact @ih ⟨blockEnd range cidr + 1, range.hi⟩ rest beyond _

theorem rangeSet2ipcidrSet_diverges (fuel : Nat) {rangeSet : RangeSet} (proper : ∀ range ∈ rangeSet, range.lo ≤ range.hi)
    (beyond : ∃ range ∈ rangeSet, 2 ^ 32 ≤ range.hi) : rangeSet2ipcidrSet fuel rangeSet = none := by
  unfold rangeSet2ipcidrSet
  generalize ([], []) = acc
  induction rangeSet generalizing acc with
  | nil => simp at beyond
  | cons range rest ih =>
      obtain ⟨ipcidrSet, updated⟩ := acc
      rw [List.forall_mem_cons] at proper
      rw [List.foldlM_cons]
      by_cases here : 2 ^ 32 ≤ range.hi
      · simp only [splitRange_diverges fuel proper.1 here]
        rfl
      · have later : ∃ range ∈ rest, 2 ^ 32 ≤ range.hi := by
          obtain ⟨other, member, wide⟩ := beyond
          rcases List.mem_cons.mp member with rfl | inside
          · exact absurd wide here
          · exact ⟨other, inside, wide⟩
        cases split : splitRange fuel range ipcidrSet with
        | none =>
            simp only [split]
            rfl
        | some result =>
            simp only [split]
            exact ih proper.2 later _

/-- A number read from a network string is not negative. -/
theorem netString2range_nonneg {netString : String} {range : Range} (parsed : netString2range netString = some range) :
    0 ≤ range.lo := by
  unfold netString2range at parsed
  split at parsed
  · cases parsed
    exact Int.natCast_nonneg _
  · split at parsed
    · cases parsed
      exact band_nonneg _ _
    · cases parsed
  · dsimp only at parsed
    split at parsed
    · split at parsed
      · cases parsed
        exact band_nonneg _ _
      · cases parsed
    · split at parsed
      · cases parsed
        exact Int.natCast_nonneg _
      · cases parsed
  · cases parsed

/-- The addresses of a list of network strings are inside 32 bits. -/
def Narrow (rangeSet : RangeSet) : Prop := ∀ range ∈ rangeSet, range.hi < 2 ^ 32

theorem parsed_lo_nonneg {netStrings : List String} {range : Range} (member : range ∈ netStringSet2rangeSet netStrings) :
    0 ≤ range.lo := by
  obtain ⟨other, isOther, start⟩ := (netStringSet2rangeSet_standFor netStrings).2.starts range member
  obtain ⟨netString, -, read⟩ := mem_parsedRanges.mp (List.mem_reverse.mp isOther)
  exact start ▸ netString2range_nonneg read

/-- More fuel does not change a result. -/
theorem splitRange_mono {fuel more : Nat} (order : fuel ≤ more) {range : Range} {ipcidrSet : List String}
    {result : List String × Range} (done : splitRange fuel range ipcidrSet = some result) :
    splitRange more range ipcidrSet = some result := by
  induction fuel generalizing more range ipcidrSet with
  | zero => cases done
  | succ fuel ih =>
      obtain ⟨more, rfl⟩ := Nat.exists_eq_add_of_lt (Nat.lt_of_lt_of_le (Nat.succ_pos fuel) order)
      rw [Nat.zero_add] at order ⊢
      rw [splitRange] at done ⊢
      split at done
      next ordered =>
          rw [if_pos ordered]
          cases found : (List.range 33).find? (blockFits range) with
          | none =>
              simp only [found] at done ⊢
              exact ih (Nat.le_of_succ_le_succ order) done
          | some cidr =>
              simp only [found] at done ⊢
              exact ih (Nat.le_of_succ_le_succ order) done
      next past =>
          rw [if_neg past]
          exact done

theorem rangeSet2ipcidrSet_mono {fuel more : Nat} (order : fuel ≤ more) {rangeSet : RangeSet}
    {result : List String × RangeSet} (done : rangeSet2ipcidrSet fuel rangeSet = some result) :
    rangeSet2ipcidrSet more rangeSet = some result := by
  unfold rangeSet2ipcidrSet at done ⊢
  generalize (([], []) : List String × RangeSet) = acc at done ⊢
  induction rangeSet generalizing acc with
  | nil => exact done
  | cons range rest ih =>
      rw [List.foldlM_cons] at done ⊢
      cases split : splitRange fuel range acc.1 with
      | none => simp [split] at done
      | some left =>
          simp only [split, splitRange_mono order split] at done ⊢
          exact ih _ done

/-- The command prints the least blocks of what the strings denote, whatever fuel it ends with. -/
theorem netStrings2ipcidrStrings_narrow {netStrings : String} (narrow : Narrow (netStringSet2rangeSet (splitNetStrings netStrings))) :
    ∃ blocks : List CidrBlock, blocks.Pairwise (fun first second => first.last < second.base) ∧
      AlignedBlock.Tiles (denote (netStringSet2rangeSet (splitNetStrings netStrings))) blocks ∧
        netStrings2ipcidrStrings (2 ^ 32 + 1) netStrings = some (blocks.map CidrBlock.ipcidr) ∧
          ∀ fuel line, netStrings2ipcidrStrings fuel netStrings = some line → line = blocks.map CidrBlock.ipcidr := by
  obtain ⟨canon, _⟩ := netStringSet2rangeSet_spec (splitNetStrings netStrings)
  obtain ⟨blocks, updated, tiles, run⟩ := rangeSet2ipcidrSet_spec (2 ^ 32 + 1) (Nat.lt_succ_self _) canon.proper
    fun range member => ⟨parsed_lo_nonneg member, narrow range member⟩
  refine ⟨blocks, tiles.ascending canon, ⟨_, canon, rfl, tiles⟩, by rw [netStrings2ipcidrStrings, run]; rfl, fun fuel line printed => ?_⟩
  obtain ⟨result, done, rfl⟩ := Option.map_eq_some_iff.mp printed
  have first := rangeSet2ipcidrSet_mono (Nat.le_max_left fuel (2 ^ 32 + 1)) done
  have second := rangeSet2ipcidrSet_mono (Nat.le_max_right fuel (2 ^ 32 + 1)) run
  rw [first, Option.some.injEq] at second
  rw [second]

theorem netStrings2ipcidrStrings_diverges {netStrings : String}
    (wide : ¬Narrow (netStringSet2rangeSet (splitNetStrings netStrings))) (fuel : Nat) :
    netStrings2ipcidrStrings fuel netStrings = none := by
  obtain ⟨canon, _⟩ := netStringSet2rangeSet_spec (splitNetStrings netStrings)
  simp only [Narrow, not_forall, not_lt] at wide
  obtain ⟨range, member, beyond⟩ := wide
  rw [netStrings2ipcidrStrings, rangeSet2ipcidrSet_diverges fuel canon.proper ⟨range, member, beyond⟩]
  rfl

end XWrt.Ipops
