import XWrt.Ipops.NetForms

/-!
# The inclusion test

The test of `ipops.lua` holds every range of the one set against single ranges
of the other. On a canonical set this is inclusion of the addresses, because
neither overlapping nor adjacent ranges are left in it. The command compares
two lists of network strings this way.
-/

namespace XWrt.Ipops

open XWrt.Foundation
open XWrt.Foundation.IntervalList

/-- `netStrings_test_netStrings`: the value it returns; a missing argument is `none`. -/
def netStringsTestNetStrings (netStringsA netStringsB : Option String) : Int :=
  match netStringsA, netStringsB with
  | some netStringsA, some netStringsB =>
      let rangeSetA := netStringSet2rangeSet (splitNetStrings netStringsA)
      let rangeSetB := netStringSet2rangeSet (splitNetStrings netStringsB)
      if rangeSetInRangeSet rangeSetB rangeSetA then 0 else 1
  | _, _ => -1

example : netStringsTestNetStrings (some "192.168.15.0/24") (some "192.168.15.0/29") = 0 := by decide

/-! ## Ranges -/

theorem rangeInRangeSet_iff {range : Range} (ordered : range.lo ≤ range.hi) {rangeSet : RangeSet}
    (canon : Canonical rangeSet) :
    rangeInRangeSet range rangeSet = true ↔ Set.Icc range.lo range.hi ⊆ denote rangeSet := by
  rw [rangeInRangeSet, List.any_eq_true]
  constructor
  · rintro ⟨other, member, fits⟩ x ⟨lower, upper⟩
    rw [Bool.and_eq_true, decide_eq_true_eq, decide_eq_true_eq] at fits
    exact mem_denote.mpr ⟨other, member, fits.1.trans lower, upper.trans fits.2⟩
  · intro inside
    obtain ⟨other, member, starts, stops⟩ := canon.exists_of_Icc_subset ordered inside
    exact ⟨other, member, by simp [starts, stops]⟩

theorem rangeSetInRangeSet_iff {rangeSetA rangeSetB : RangeSet}
    (proper : ∀ range ∈ rangeSetA, range.lo ≤ range.hi) (canon : Canonical rangeSetB) :
    rangeSetInRangeSet rangeSetA rangeSetB = true ↔ denote rangeSetA ⊆ denote rangeSetB := by
  rw [rangeSetInRangeSet, List.all_eq_true]
  constructor
  · rintro all x ⟨range, member, inside⟩
    exact (rangeInRangeSet_iff (proper range member) canon).mp (all range member) inside
  · intro included range member
    apply (rangeInRangeSet_iff (proper range member) canon).mpr
    exact fun x inside => included ⟨range, member, inside⟩

/-- The command returns success exactly when the second list denotes nothing outside of the first. -/
theorem netStringsTestNetStrings_iff (netStringsA netStringsB : String) :
    netStringsTestNetStrings (some netStringsA) (some netStringsB) = 0 ↔
      denoteStrings (splitNetStrings netStringsB) ⊆ denoteStrings (splitNetStrings netStringsA) := by
  obtain ⟨canonA, pointsA⟩ := netStringSet2rangeSet_spec (splitNetStrings netStringsA)
  obtain ⟨canonB, pointsB⟩ := netStringSet2rangeSet_spec (splitNetStrings netStringsB)
  have test := rangeSetInRangeSet_iff canonB.proper canonA
  rw [pointsA, pointsB] at test
  rw [← test, netStringsTestNetStrings]
  simp

/-! ## Networks -/

/-- The form stands for consecutive addresses: a netmask has its ones in front. -/
def NetForm.Contiguous : NetForm → Prop
  | netmask _ mask => ∃ length ≤ 32, mask.value = 2 ^ 32 - 2 ^ (32 - length)
  | _ => True

theorem joinParts_toDigits (separators : List Char) (numbers : List ℕ) :
    joinParts separators (numbers.map (Nat.toDigits 10)) = printedParts separators numbers := by
  induction numbers generalizing separators with
  | nil => cases separators <;> rfl
  | cons number rest ih =>
      cases separators with
      | nil => rfl
      | cons separator others => rw [List.map_cons, joinParts, printedParts, ih]

/-- Every form has a text: its numbers in decimal with its separators. -/
theorem documented_of_printed {text : String} {form : NetForm}
    (printed : text.toList = printedParts form.separators form.numbers) : Documented text form := by
  refine ⟨form.numbers.map (Nat.toDigits 10), ?_, printed.trans (joinParts_toDigits _ _).symm⟩
  apply List.forall₂_map_left_iff.mpr
  apply List.forall₂_same.mpr
  exact fun number _ => ⟨Nat.toDigits_ne_nil, toDigits_isDigit number, tonumber_toDigits number⟩

/-- The addresses that a list of forms stands for. -/
def networks (forms : List NetForm) : Set ℕ := {x | ∃ form ∈ forms, x ∈ form.network}

theorem between_div {x y z i k : ℕ} (first : x / k = i) (last : z / k = i) (lower : x ≤ y) (upper : y ≤ z) :
    y / k = i :=
  le_antisymm (last ▸ Nat.div_le_div_right upper) (first ▸ Nat.div_le_div_right lower)

theorem NetForm.Contiguous.between {form : NetForm} (contiguous : form.Contiguous) {x y z : ℕ}
    (first : x ∈ form.network) (last : z ∈ form.network) (lower : x ≤ y) (upper : y ≤ z) : y ∈ form.network := by
  cases form with
  | address ip => exact le_antisymm (upper.trans last.le) (first.ge.trans lower)
  | cidr ip length => exact ⟨upper.trans_lt last.1, between_div first.2 last.2 lower upper⟩
  | netmask ip mask =>
      obtain ⟨length, -, leading⟩ := contiguous
      rw [network, leading, maskedNetwork_leading length ip.value_lt] at first last ⊢
      exact ⟨upper.trans_lt last.1, between_div first.2 last.2 lower upper⟩
  | span first' last' => exact ⟨first.1.trans lower, upper.trans last.2⟩

/-- A well-formed string denotes the network it was written for. -/
theorem Documented.denotes {text : String} {form : NetForm} (documented : Documented text form)
    (contiguous : form.Contiguous) (x : ℤ) :
    (∃ range, netString2range text = some range ∧ range.lo ≤ x ∧ x ≤ range.hi) ↔ ∃ n ∈ form.network, (n : ℤ) = x := by
  rcases form.network.eq_empty_or_nonempty with empty | nonempty
  · rw [netString2range_of_empty documented.reads empty, empty]
    simp
  · obtain ⟨range, parsed, first, last, rfl, least, greatest⟩ := netString2range_of_reads documented.reads nonempty
    constructor
    · rintro ⟨range, read, lower, upper⟩
      obtain rfl := Option.some.inj (parsed.symm.trans read)
      obtain ⟨n, rfl⟩ := Int.eq_ofNat_of_zero_le ((Int.natCast_nonneg first).trans lower)
      exact ⟨n, contiguous.between least.1 greatest.1 (Int.ofNat_le.mp lower) (Int.ofNat_le.mp upper), rfl⟩
    · rintro ⟨n, member, rfl⟩
      exact ⟨_, parsed, Int.ofNat_le.mpr (least.2 member), Int.ofNat_le.mpr (greatest.2 member)⟩

theorem Documented.small {text : String} {form : NetForm} (documented : Documented text form) {range : Range}
    (parsed : netString2range text = some range) : Small range := by
  have nonempty : form.network.Nonempty := by
    by_contra none
    rw [netString2range_of_empty documented.reads (Set.not_nonempty_iff_eq_empty.mp none)] at parsed
    cases parsed
  obtain ⟨_, read, first, last, rfl, -, greatest⟩ := netString2range_of_reads documented.reads nonempty
  obtain rfl := Option.some.inj (parsed.symm.trans read)
  have below := form.network_lt last greatest.1
  constructor
  · exact le_trans (by decide) (Int.natCast_nonneg first)
  · show (last : ℤ) ≤ 2 ^ 53
    omega

theorem documented_small {texts : List String} {forms : List NetForm} (documented : List.Forall₂ Documented texts forms) :
    ∀ text ∈ texts, ∀ range, netString2range text = some range → Small range := by
  induction documented with
  | nil => exact List.forall_mem_nil _
  | cons first _ ih => exact List.forall_mem_cons.mpr ⟨fun _ parsed => first.small parsed, ih⟩

theorem denoteStrings_documented {texts : List String} {forms : List NetForm}
    (documented : List.Forall₂ Documented texts forms) (contiguous : ∀ form ∈ forms, form.Contiguous) :
    denoteStrings texts = (fun n : ℕ => (n : ℤ)) '' networks forms := by
  ext x
  rw [denoteStrings_small (documented_small documented)]
  induction documented with
  | nil => simp [networks]
  | cons first _ ih =>
      rw [List.forall_mem_cons] at contiguous
      have here := first.denotes contiguous.1 x
      have later := ih contiguous.2
      simp only [networks, Set.mem_image, Set.mem_ofPred_eq, List.exists_mem_cons_iff] at later ⊢
      rw [here, later]
      constructor
      · rintro (⟨n, member, same⟩ | ⟨n, member, same⟩)
        · exact ⟨n, Or.inl member, same⟩
        · exact ⟨n, Or.inr member, same⟩
      · rintro ⟨n, member | member, same⟩
        · exact Or.inl ⟨n, member, same⟩
        · exact Or.inr ⟨n, member, same⟩

/-- The test decides inclusion of the integers of proper ranges in a canonical set. The command
decides it for the addresses that any two texts denote, which for lists written in the
documented forms are the networks they stand for. -/
theorem inclusion_test_exact :
    (∀ (rangeSetA : List ProperRange) (rangeSetB : RangeSet), Canonical rangeSetB →
      (rangeSetInRangeSet (rangeSetA.map Subtype.val) rangeSetB = true ↔
        ∀ x ∈ denote (rangeSetA.map Subtype.val), x ∈ denote rangeSetB)) ∧
    (∀ netStringsA netStringsB : String, netStringsTestNetStrings (some netStringsA) (some netStringsB) = 0 ↔
      denoteStrings (splitNetStrings netStringsB) ⊆ denoteStrings (splitNetStrings netStringsA)) ∧
    ∀ (netStringsA netStringsB : String) (formsA formsB : List NetForm),
      List.Forall₂ Documented (splitNetStrings netStringsA) formsA →
      List.Forall₂ Documented (splitNetStrings netStringsB) formsB →
      (∀ form ∈ formsA ++ formsB, form.Contiguous) →
        (netStringsTestNetStrings (some netStringsA) (some netStringsB) = 0 ↔ networks formsB ⊆ networks formsA) := by
  refine ⟨fun rangeSetA rangeSetB canon => ?_, netStringsTestNetStrings_iff, ?_⟩
  · apply rangeSetInRangeSet_iff _ canon
    intro range member
    obtain ⟨proper, -, rfl⟩ := List.mem_map.mp member
    exact proper.2
  · intro netStringsA netStringsB formsA formsB writtenA writtenB contiguous
    rw [List.forall_mem_append] at contiguous
    rw [netStringsTestNetStrings_iff, denoteStrings_documented writtenA contiguous.1,
      denoteStrings_documented writtenB contiguous.2]
    exact Set.image_subset_image_iff Nat.cast_injective

theorem inclusion_test_exact_adjacent :
    (∀ x ∈ denote [(⟨3, 6⟩ : Range)], x ∈ denote (rangeSetAddRange [⟨1, 4⟩] (some ⟨5, 9⟩))) ∧
      networks [.address ⟨10, 0, 0, 1⟩] ⊆ networks [.cidr ⟨10, 0, 0, 0⟩ 8] := by
  constructor
  · exact (inclusion_test_exact.1 [⟨⟨3, 6⟩, by decide⟩] _
      (rangeSetAddRange_spec ⟨canonical_singleton (by decide), by simp [Small]⟩ (by decide) (by simp [Small])).1.canon).mp (by decide)
  · have first : Documented "10.0.0.0/8" (.cidr ⟨10, 0, 0, 0⟩ 8) := documented_of_printed (by decide)
    have second : Documented "10.0.0.1" (.address ⟨10, 0, 0, 1⟩) := documented_of_printed (by decide)
    apply (inclusion_test_exact.2.2 "10.0.0.0/8" "10.0.0.1" [.cidr ⟨10, 0, 0, 0⟩ 8] [.address ⟨10, 0, 0, 1⟩] _ _ _).mp
    · decide
    · rw [show splitNetStrings "10.0.0.0/8" = ["10.0.0.0/8"] by decide]
      exact .cons first .nil
    · rw [show splitNetStrings "10.0.0.1" = ["10.0.0.1"] by decide]
      exact .cons second .nil
    · simp [NetForm.Contiguous]

end XWrt.Ipops
