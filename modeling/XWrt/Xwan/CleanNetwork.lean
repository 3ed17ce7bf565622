import XWrt.Xwan.WanZone

/-!
# Interfaces that are no longer there

`#clean up network` of `xwan` and `pptpxwan`. The devices and interfaces from a
number on are deleted, up to the first number that neither has. Every turn but
the first deletes a section, so the loop ends.
-/

namespace XWrt.Xwan

open Foundation
open Foundation.Uci
open Foundation.Keyed

/-- `network.xwan$idx` -/
def xwanKey (width n : ℕ) : String := String.ofList (xwanName width n)

/-- `network.device$idx` -/
def deviceKey (width n : ℕ) : String := String.ofList (deviceName width n)

/-- One of the two is there. -/
def hasNumbered (width : ℕ) (config : Config) (id : ℕ) : Bool := config.has (deviceKey width id) || config.has (xwanKey width id)

/-- One turn of the loop. -/
def removeNumbered (width id : ℕ) (config : Config) : Config := remove (xwanKey width id) (remove (deviceKey width id) config)

/-- The loop, at most so many turns. -/
def cleanNetworkFrom (width : ℕ) : ℕ → ℕ → Config → Config
  | 0, _, config => config
  | turns + 1, id, config =>
      let config := removeNumbered width id config
      if hasNumbered width config (id + 1) then cleanNetworkFrom width turns (id + 1) config else config

/-- `#clean up network`; more turns do nothing. -/
def cleanNetwork (width id : ℕ) (config : Config) : Config := cleanNetworkFrom width (config.length + 1) id config

/-! ## Keys -/

/-- The keys of both from one number to another. -/
def numberedKeys (width first stop : ℕ) : List String := (List.range' first (stop - first)).flatMap fun i => [deviceKey width i, xwanKey width i]

theorem mem_numberedKeys {width first stop : ℕ} {key : String} :
    key ∈ numberedKeys width first stop ↔ ∃ i, first ≤ i ∧ i < stop ∧ (key = deviceKey width i ∨ key = xwanKey width i) := by
  simp only [numberedKeys, List.mem_flatMap, List.mem_range'_1, List.mem_cons, List.not_mem_nil, or_false]
  refine exists_congr fun i => ?_
  rw [← and_assoc]
  refine and_congr_left fun _ => ?_
  omega

theorem xwanKey_injective (width : ℕ) : Function.Injective (xwanKey width) := fun _ _ same => xwanName_injective width (String.ofList_injective same)

theorem deviceKey_injective (width : ℕ) : Function.Injective (deviceKey width) := fun _ _ same =>
  printf_injective width (List.append_cancel_left (String.ofList_injective same))

theorem deviceKey_ne_xwanKey (width i j : ℕ) : deviceKey width i ≠ xwanKey width j := fun same => by
  have first := congrArg List.head? (String.ofList_injective same)
  cases first

/-! ## One turn -/

section Turn

variable {width id : ℕ} {config : Config}

theorem lookup_removeNumbered {key : String} (device : key ≠ deviceKey width id) (xwan : key ≠ xwanKey width id) :
    (removeNumbered width id config).lookup key = config.lookup key := by
  rw [removeNumbered, lookup_remove_of_ne _ xwan, lookup_remove_of_ne _ device]

/-- Other numbers keep their sections. -/
theorem hasNumbered_removeNumbered {other : ℕ} (apart : other ≠ id) :
    hasNumbered width (removeNumbered width id config) other = hasNumbered width config other := by
  have device := @lookup_removeNumbered width id config (deviceKey width other) (fun same => apart (deviceKey_injective width same))
    (deviceKey_ne_xwanKey width other id)
  have xwan := @lookup_removeNumbered width id config (xwanKey width other) (deviceKey_ne_xwanKey width id other).symm
    (fun same => apart (xwanKey_injective width same))
  rw [hasNumbered, hasNumbered, Config.has, Config.has, device, xwan]
  rfl

theorem removeNumbered_eq : removeNumbered width id config = config.filter fun entry => entry.1 ∉ numberedKeys width id (id + 1) := by
  rw [removeNumbered, remove, remove, List.filter_filter]
  refine List.filter_congr fun entry _ => ?_
  simp [numberedKeys, Bool.and_comm]

/-- A turn that finds something makes the configuration shorter. -/
theorem length_removeNumbered_lt (found : hasNumbered width config id = true) : (removeNumbered width id config).length < config.length := by
  have key : ∃ key ∈ numberedKeys width id (id + 1), config.has key = true := by
    rcases (Bool.or_eq_true _ _).mp found with device | xwan
    · exact ⟨_, mem_numberedKeys.mpr ⟨id, le_rfl, Nat.lt_succ_self id, .inl rfl⟩, device⟩
    · exact ⟨_, mem_numberedKeys.mpr ⟨id, le_rfl, Nat.lt_succ_self id, .inr rfl⟩, xwan⟩
  obtain ⟨key, numbered, has⟩ := key
  obtain ⟨s, here⟩ := Option.isSome_iff_exists.mp has
  rw [removeNumbered_eq, List.length_filter_lt_length_iff_exists]
  exact ⟨(key, s), mem_of_lookup here, by simpa using numbered⟩

theorem length_removeNumbered_le : (removeNumbered width id config).length ≤ config.length := by
  rw [removeNumbered_eq]
  exact List.length_filter_le ..

end Turn

theorem filter_numberedKeys (width : ℕ) {first middle stop : ℕ} (before : first ≤ middle) (behind : middle ≤ stop) (config : Config) :
    (config.filter fun entry => entry.1 ∉ numberedKeys width first middle).filter (fun entry => entry.1 ∉ numberedKeys width middle stop) =
      config.filter fun entry => entry.1 ∉ numberedKeys width first stop := by
  rw [List.filter_filter]
  refine List.filter_congr fun entry _ => ?_
  rw [← Bool.decide_and, decide_eq_decide, ← not_or, not_iff_not, mem_numberedKeys, mem_numberedKeys, mem_numberedKeys]
  constructor
  · rintro (⟨i, low, high, same⟩ | ⟨i, low, high, same⟩)
    · exact ⟨i, before.trans low, high, same⟩
    · exact ⟨i, low, high.trans_le behind, same⟩
  · rintro ⟨i, low, high, same⟩
    rcases Nat.lt_or_ge i middle with below | above
    · exact .inr ⟨i, low, below, same⟩
    · exact .inl ⟨i, above, high, same⟩

/-- The loop deletes the numbers up to the first one that is free, and ends there. -/
theorem cleanNetworkFrom_spec (width : ℕ) {turns id : ℕ} {config : Config}
    (enough : config.length < turns ∨ hasNumbered width config id = true ∧ config.length ≤ turns) :
    ∃ stop, id < stop ∧ hasNumbered width config stop = false ∧ (∀ i, id < i → i < stop → hasNumbered width config i = true) ∧
      cleanNetworkFrom width turns id config = config.filter fun entry => entry.1 ∉ numberedKeys width id stop := by
  induction turns generalizing id config with
  | zero =>
      rcases enough with less | ⟨found, none⟩
      · cases less
      · have shorter := length_removeNumbered_lt found
        omega
  | succ turns ih =>
      have next : hasNumbered width (removeNumbered width id config) (id + 1) = hasNumbered width config (id + 1) :=
        hasNumbered_removeNumbered (Nat.succ_ne_self id)
      have rest : (removeNumbered width id config).length ≤ turns := by
        rcases enough with less | ⟨found, few⟩
        · exact length_removeNumbered_le.trans (Nat.le_of_lt_succ less)
        · exact Nat.le_of_lt_succ ((length_removeNumbered_lt found).trans_le few)
      rw [cleanNetworkFrom]
      split
      next more =>
        obtain ⟨stop, behind, free, taken, result⟩ := ih (.inr ⟨more, rest⟩)
        rw [hasNumbered_removeNumbered (by omega)] at free
        refine ⟨stop, by omega, free, ?_, ?_⟩
        · intro i low high
          rcases Nat.eq_or_lt_of_le (Nat.succ_le_of_lt low) with rfl | above
          · exact next.symm.trans more
          · exact (hasNumbered_removeNumbered (by omega)).symm.trans (taken i above high)
        · rw [result, removeNumbered_eq, filter_numberedKeys width (Nat.le_succ id) behind.le]
      next stops =>
        refine ⟨id + 1, Nat.lt_succ_self id, next.symm.trans (eq_false_of_ne_true stops), ?_, removeNumbered_eq⟩
        intro i low high
        omega

theorem cleanNetwork_spec (width id : ℕ) (config : Config) :
    ∃ stop, id < stop ∧ hasNumbered width config stop = false ∧ (∀ i, id < i → i < stop → hasNumbered width config i = true) ∧
      cleanNetwork width id config = config.filter fun entry => entry.1 ∉ numberedKeys width id stop :=
  cleanNetworkFrom_spec width (.inl (Nat.lt_succ_self config.length))

/-- The loop ends: with more turns it leaves the same. -/
theorem cleanNetworkFrom_eq (width : ℕ) {turns id : ℕ} {config : Config} (enough : config.length < turns) :
    cleanNetworkFrom width turns id config = cleanNetwork width id config := by
  obtain ⟨stop, behind, free, taken, result⟩ := @cleanNetworkFrom_spec width turns id config (.inl enough)
  obtain ⟨last, behind', free', taken', result'⟩ := cleanNetwork_spec width id config
  have same : stop = last := by
    rcases Nat.lt_trichotomy stop last with less | same | more
    · exact absurd (free.symm.trans (taken' stop behind less)) Bool.false_ne_true
    · exact same
    · exact absurd (free'.symm.trans (taken last behind' more)) Bool.false_ne_true
  rw [result, result', same]

theorem hasNumbered_eq_false_iff {width id : ℕ} {config : Config} :
    hasNumbered width config id = false ↔ config.lookup (deviceKey width id) = none ∧ config.lookup (xwanKey width id) = none := by
  rw [hasNumbered, Bool.or_eq_false_iff, Config.has_eq_false_iff, Config.has_eq_false_iff]

/-- Nothing is deleted where the first two numbers are free. -/
theorem cleanNetwork_of_free {width id : ℕ} {config : Config} (free : hasNumbered width config id = false)
    (next : hasNumbered width config (id + 1) = false) : cleanNetwork width id config = config := by
  rw [hasNumbered_eq_false_iff] at free
  have nothing : removeNumbered width id config = config := by
    rw [removeNumbered, remove_of_lookup free.1, remove_of_lookup free.2]
  rw [cleanNetwork, cleanNetworkFrom]
  simp only [nothing, next, Bool.false_eq_true, if_false]

/-- Other sections stay. -/
theorem lookup_cleanNetwork {width id : ℕ} {key : String} (other : ∀ i, id ≤ i → key ≠ deviceKey width i ∧ key ≠ xwanKey width i) (config : Config) :
    (cleanNetwork width id config).lookup key = config.lookup key := by
  obtain ⟨stop, -, -, -, result⟩ := cleanNetwork_spec width id config
  have outside : key ∉ numberedKeys width id stop := fun member => by
    obtain ⟨i, low, -, same⟩ := mem_numberedKeys.mp member
    exact same.elim (other i low).1 (other i low).2
  rw [result]
  exact @lookup_filter_key _ _ _ (fun key => decide (key ∉ numberedKeys width id stop)) key (decide_eq_true outside) config

/-- A second clean-up finds nothing. -/
theorem cleanNetwork_cleanNetwork (width id : ℕ) (config : Config) : cleanNetwork width id (cleanNetwork width id config) = cleanNetwork width id config := by
  obtain ⟨stop, behind, free, -, result⟩ := cleanNetwork_spec width id config
  have gone : ∀ i, id ≤ i → i ≤ stop → hasNumbered width (cleanNetwork width id config) i = false := by
    intro i low high
    rw [result, hasNumbered_eq_false_iff]
    rcases high.eq_or_lt with rfl | below
    · rw [hasNumbered_eq_false_iff] at free
      exact ⟨lookup_filter_none free.1 _, lookup_filter_none free.2 _⟩
    · have deleted : ∀ key ∈ numberedKeys width id stop, (config.filter fun entry => entry.1 ∉ numberedKeys width id stop).lookup key = none :=
        fun key member => @lookup_filter_key_none _ _ _ (fun key => decide (key ∉ numberedKeys width id stop)) key
          (decide_eq_false (not_not.mpr member)) config
      exact ⟨deleted _ (mem_numberedKeys.mpr ⟨i, low, below, .inl rfl⟩), deleted _ (mem_numberedKeys.mpr ⟨i, low, below, .inr rfl⟩)⟩
  exact cleanNetwork_of_free (gone id le_rfl behind.le) (gone (id + 1) (Nat.le_succ id) behind)

end XWrt.Xwan
