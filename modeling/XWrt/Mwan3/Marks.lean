import Mathlib.Data.Nat.Bitwise
import Mathlib.Data.Nat.Count
import Mathlib.Data.Nat.ModEq
import Mathlib.Data.Int.Bitwise
import XWrt.Foundation.Transducer

/-!
# Firewall marks

`mwan3_count_one_bits` and `mwan3_id2mask` of `lib/mwan3/mwan3.sh`, and the
constants that `mwan3_init` computes from the mark mask. An id is spread over
the set bits of the mask, so ids below two to the number of set bits have
different marks, all inside the mask. The mask and the limit on ids that one
run of `mwan3_init` leaves behind for the next belong together.
-/

namespace XWrt.Mwan3

/-- The `while` loop of `mwan3_count_one_bits`; `n & (n - 1)` clears the lowest set
bit. -/
def countOneBits (n : Nat) : Nat :=
  if _positive : 0 < n then countOneBits (n &&& (n - 1)) + 1 else 0
termination_by n
decreasing_by
  exact lt_of_le_of_lt Nat.and_le_right (Nat.sub_lt _positive Nat.one_pos)

/-- The variables of `mwan3_id2mask`. -/
structure Spread where
  bitVal : Nat
  result : Nat
  deriving DecidableEq, Repr

def id2maskStep (id : Int) (mask : Nat) (s : Spread) (bitMsk : Nat) : Spread :=
  if (mask >>> bitMsk) &&& 1 = 1 then
    { result := if (id >>> s.bitVal) % 2 = 1 then s.result ||| (1 <<< bitMsk) else s.result
      bitVal := s.bitVal + 1 }
  else s

/-- `mwan3_id2mask`; the low bit of a shifted shell integer is its remainder mod 2. -/
def id2mask (id : Int) (mask : Nat) : Nat :=
  ((List.range 32).foldl (id2maskStep id mask) ⟨0, 0⟩).result

/-- `MWAN3_INTERFACE_HARD_MAX`. -/
def interfaceHardMax : Int := 250

/-- `mmdefault` of `mwan3_init`: all bits that the mask has room for. -/
def mmDefault (mask : Nat) : Int := 2 ^ countOneBits mask - 1

/-- `MM_BLACKHOLE`. -/
def mmBlackhole (mask : Nat) : Int := mmDefault mask - 2

/-- `MM_UNREACHABLE`. -/
def mmUnreachable (mask : Nat) : Int := mmDefault mask - 1

/-- `MWAN3_INTERFACE_MAX` after `mwan3_limit_iface_max`. -/
def interfaceMax (mask : Nat) : Int :=
  let max := mmDefault mask - 3
  if max > interfaceHardMax then interfaceHardMax else max

theorem mmDefault_cast (mask : Nat) :
    mmDefault mask = ((2 ^ countOneBits mask - 1 : Nat) : Int) := by
  have positive : 1 ≤ 2 ^ countOneBits mask := Nat.one_le_two_pow
  rw [mmDefault, Nat.cast_sub positive]
  push_cast
  rfl

theorem interfaceMax_le (mask : Nat) : interfaceMax mask ≤ mmDefault mask - 3 := by
  simp only [interfaceMax]
  split
  · omega
  · exact le_refl _

/-! ## Counting bits -/

/-- The number of set bits of `mask` below position `k`. -/
def bitsBelow (mask k : Nat) : Nat := Nat.count (fun j => mask.testBit j = true) k

theorem bitsBelow_succ (mask k : Nat) :
    bitsBelow mask (k + 1) = bitsBelow mask k + if mask.testBit k = true then 1 else 0 :=
  Nat.count_succ _ k

theorem countOneBits_zero : countOneBits 0 = 0 := by
  rw [countOneBits]
  rfl

theorem countOneBits_succ {n : Nat} (positive : 0 < n) :
    countOneBits n = countOneBits (n &&& (n - 1)) + 1 := by
  rw [countOneBits, dif_pos positive]

theorem countOneBits_double (n : Nat) : countOneBits (2 * n) = countOneBits n := by
  induction n using Nat.strongRecOn with
  | ind n ih =>
      rcases Nat.eq_zero_or_pos n with zero | positive
      · rw [zero]
      · have cleared : 2 * n &&& (2 * n - 1) = 2 * (n &&& (n - 1)) := by
          have odd : 2 * n - 1 = Nat.bit true (n - 1) := by
            change 2 * n - 1 = 2 * (n - 1) + 1
            omega
          rw [odd]
          exact Nat.land_bit false n true (n - 1)
        rw [countOneBits_succ (by omega : 0 < 2 * n), countOneBits_succ positive, cleared, ih]
        exact lt_of_le_of_lt Nat.and_le_right (Nat.sub_lt positive Nat.one_pos)

theorem countOneBits_double_add_one (n : Nat) : countOneBits (2 * n + 1) = countOneBits n + 1 := by
  have cleared : (2 * n + 1) &&& (2 * n + 1 - 1) = 2 * n := by
    have bits := Nat.land_bit true n false n
    rwa [Nat.and_self] at bits
  rw [countOneBits_succ (by omega), cleared, countOneBits_double]

/-- The loop counts the set bits. -/
theorem countOneBits_eq_bitsBelow {mask k : Nat} (bound : mask < 2 ^ k) :
    countOneBits mask = bitsBelow mask k := by
  induction k generalizing mask with
  | zero =>
      obtain rfl : mask = 0 := by omega
      rw [countOneBits_zero]
      rfl
  | succ k ih =>
      have half : mask / 2 < 2 ^ k := by omega
      have shifted : bitsBelow mask (k + 1) = bitsBelow (mask / 2) k + mask % 2 := by
        simp only [bitsBelow, Nat.count_succ', Nat.testBit_add_one, Nat.testBit_zero,
          decide_eq_true_eq]
        rcases Nat.mod_two_eq_zero_or_one mask with even | odd
        · rw [even]
          rfl
        · rw [odd]
          rfl
      rw [shifted, ← ih half]
      rcases Nat.mod_two_eq_zero_or_one mask with even | odd
      · have split : mask = 2 * (mask / 2) := by omega
        rw [even]
        nth_rewrite 1 [split]
        exact countOneBits_double _
      · have split : mask = 2 * (mask / 2) + 1 := by omega
        rw [odd]
        nth_rewrite 1 [split]
        exact countOneBits_double_add_one _

/-! ## Spreading ids -/

theorem testBit_eq_shift (n k : Nat) : (n >>> k) &&& 1 = 1 ↔ n.testBit k = true := by
  rw [Nat.testBit, Nat.one_and_eq_mod_two, Nat.and_one_is_mod, bne_iff_ne, Nat.mod_two_ne_zero]

theorem natCast_shift_mod_two (n k : Nat) :
    ((n : Int) >>> k) % 2 = 1 ↔ n.testBit k = true := by
  have cast : ((n : Int) >>> k) % 2 = (((n >>> k) % 2 : Nat) : Int) := rfl
  rw [cast, Nat.cast_eq_one, ← testBit_eq_shift, Nat.and_one_is_mod]

/-- The loop of `id2mask` puts bit number `bitsBelow mask j` of the id at each set
position `j` of the mask. -/
theorem id2mask_loop (id mask k : Nat) :
    let s := (List.range k).foldl (id2maskStep id mask) ⟨0, 0⟩
    s.bitVal = bitsBelow mask k ∧ ∀ j, s.result.testBit j = true ↔
      j < k ∧ mask.testBit j = true ∧ id.testBit (bitsBelow mask j) = true := by
  induction k with
  | zero => simp [bitsBelow]
  | succ k ih =>
      obtain ⟨bitVal, result⟩ := ih
      rw [List.range_succ, List.foldl_append, List.foldl_cons, List.foldl_nil]
      generalize (List.range k).foldl (id2maskStep id mask) ⟨0, 0⟩ = s at bitVal result
      unfold id2maskStep
      simp only [testBit_eq_shift, natCast_shift_mod_two, bitVal, bitsBelow_succ]
      -- At most position `k` is new, and it carries bit `bitsBelow mask k` of the id.
      have upTo : ∀ j, j < k + 1 ↔ j < k ∨ j = k := fun j => Nat.lt_succ_iff_lt_or_eq
      by_cases set : mask.testBit k = true
      · simp only [set, if_true, true_and, upTo]
        intro j
        by_cases carried : id.testBit (bitsBelow mask k) = true
        · have shifted : (1 <<< k).testBit j = true ↔ j = k := by
            rw [Nat.one_shiftLeft, Nat.testBit_two_pow, decide_eq_true_eq, eq_comm]
          rw [if_pos carried, Nat.testBit_or, Bool.or_eq_true, shifted, result]
          constructor
          · rintro (⟨below, rest⟩ | rfl)
            · exact ⟨.inl below, rest⟩
            · exact ⟨.inr rfl, set, carried⟩
          · rintro ⟨below | rfl, rest⟩
            · exact .inl ⟨below, rest⟩
            · exact .inr rfl
        · rw [if_neg carried, result]
          constructor
          · rintro ⟨below, rest⟩
            exact ⟨.inl below, rest⟩
          · rintro ⟨below | rfl, rest⟩
            · exact ⟨below, rest⟩
            · exact absurd rest.2 carried
      · simp only [set, if_false, upTo, bitVal, true_and, Nat.add_zero, Bool.false_eq_true]
        intro j
        rw [result]
        constructor
        · rintro ⟨below, rest⟩
          exact ⟨.inl below, rest⟩
        · rintro ⟨below | rfl, rest⟩
          · exact ⟨below, rest⟩
          · exact absurd rest.1 set

theorem id2mask_testBit (id mask j : Nat) :
    (id2mask id mask).testBit j = true ↔
      j < 32 ∧ mask.testBit j = true ∧ id.testBit (bitsBelow mask j) = true :=
  (id2mask_loop id mask 32).2 j

/-- Every step sets bits of the mask only, also for an id below zero. -/
theorem id2mask_inside (id : Int) (mask : Nat) : id2mask id mask &&& mask = id2mask id mask := by
  have step : ∀ (s : Spread) (bitMsk : Nat), s.result &&& mask = s.result →
      (id2maskStep id mask s bitMsk).result &&& mask = (id2maskStep id mask s bitMsk).result := by
    intro s bitMsk inside
    unfold id2maskStep
    split
    · rename_i set
      have bit : (1 <<< bitMsk) &&& mask = 1 <<< bitMsk := by
        rw [Nat.one_shiftLeft, Nat.two_pow_and, (testBit_eq_shift _ _).mp set, Bool.toNat_true, Nat.mul_one]
      simp only
      split
      · rw [Nat.and_or_distrib_right, inside, bit]
      · exact inside
    · exact inside
  have loop : ∀ (bits : List Nat) (s : Spread), s.result &&& mask = s.result →
      (bits.foldl (id2maskStep id mask) s).result &&& mask = (bits.foldl (id2maskStep id mask) s).result := by
    intro bits
    induction bits with
    | nil => exact fun s inside => inside
    | cons bit bits ih => exact fun s inside => ih _ (step s bit inside)
  exact loop (List.range 32) ⟨0, 0⟩ (Nat.zero_and mask)

theorem id2mask_and_mask (id mask : Nat) : id2mask id mask &&& mask = id2mask id mask := id2mask_inside id mask

/-- Every bit of an id that fits has a place in the mask. -/
theorem exists_place {mask i k : Nat} (fits : i < bitsBelow mask k) :
    ∃ j < k, mask.testBit j = true ∧ bitsBelow mask j = i := by
  induction k with
  | zero => exact absurd fits (Nat.not_lt_zero i)
  | succ k ih =>
      rw [bitsBelow_succ] at fits
      by_cases early : i < bitsBelow mask k
      · obtain ⟨j, below, set, place⟩ := ih early
        exact ⟨j, by omega, set, place⟩
      · by_cases set : mask.testBit k = true
        · rw [if_pos set] at fits
          exact ⟨k, Nat.lt_succ_self k, set, by omega⟩
        · rw [if_neg set] at fits
          omega

theorem id2mask_injective {mask first second : Nat} (bound : mask < 2 ^ 32)
    (firstFits : first < 2 ^ countOneBits mask) (secondFits : second < 2 ^ countOneBits mask)
    (same : id2mask first mask = id2mask second mask) : first = second := by
  refine Nat.eq_of_testBit_eq fun i => ?_
  by_cases fits : i < countOneBits mask
  · rw [countOneBits_eq_bitsBelow bound] at fits
    obtain ⟨j, inRange, set, rfl⟩ := exists_place fits
    rw [Bool.eq_iff_iff]
    have atFirst := id2mask_testBit first mask j
    have atSecond := id2mask_testBit second mask j
    simp only [inRange, set, true_and] at atFirst atSecond
    rw [← atFirst, ← atSecond, same]
  · have wide : 2 ^ countOneBits mask ≤ 2 ^ i := Nat.pow_le_pow_right (by decide) (by omega)
    rw [Nat.testBit_lt_two_pow (firstFits.trans_le wide),
      Nat.testBit_lt_two_pow (secondFits.trans_le wide)]

/-- A set position of the mask carries one of its `countOneBits mask` places. -/
theorem bitsBelow_lt {mask j : Nat} (bound : mask < 2 ^ 32) (inRange : j < 32) (set : mask.testBit j = true) :
    bitsBelow mask j < countOneBits mask := by
  have next : bitsBelow mask (j + 1) = bitsBelow mask j + 1 := by rw [bitsBelow_succ, if_pos set]
  have whole : bitsBelow mask (j + 1) ≤ bitsBelow mask 32 := Nat.count_monotone _ inRange
  rw [countOneBits_eq_bitsBelow bound]
  omega

/-- The bits of an id that find no place are lost. -/
theorem id2mask_mod {mask : Nat} (bound : mask < 2 ^ 32) (id : Nat) :
    id2mask ((id % 2 ^ countOneBits mask : Nat) : Int) mask = id2mask id mask := by
  refine Nat.eq_of_testBit_eq fun j => ?_
  rw [Bool.eq_iff_iff, id2mask_testBit, id2mask_testBit]
  refine and_congr_right fun inRange => and_congr_right fun set => ?_
  rw [Nat.testBit_mod_two_pow, decide_eq_true (bitsBelow_lt bound inRange set), Bool.true_and]

/-- Ids have the same mark exactly when they agree in the bits that find a place. -/
theorem id2mask_eq_iff {mask : Nat} (bound : mask < 2 ^ 32) (first second : Nat) :
    id2mask first mask = id2mask second mask ↔ first ≡ second [MOD 2 ^ countOneBits mask] := by
  rw [← id2mask_mod bound first, ← id2mask_mod bound second]
  constructor
  · exact id2mask_injective bound (Nat.mod_lt _ (Nat.two_pow_pos _)) (Nat.mod_lt _ (Nat.two_pow_pos _))
  · intro same
    rw [show first % 2 ^ countOneBits mask = second % 2 ^ countOneBits mask from same]

theorem id2mask_zero (mask : Nat) : id2mask 0 mask = 0 := by
  refine Nat.eq_of_testBit_eq fun j => ?_
  have atZero := id2mask_testBit 0 mask j
  simp only [Nat.zero_testBit, Bool.false_eq_true, and_false, iff_false] at atZero
  rw [Nat.zero_testBit]
  exact Bool.eq_false_iff.mpr atZero

/-! ## Initialising -/

/-- `mwan3_limit_iface_max` -/
def limitIfaceMax (max : Int) : Int := if max > interfaceHardMax then interfaceHardMax else max

/-- The file `mmx_mask` and the UCI state `iface_max`. -/
structure Status where
  mmxMask : Option Nat
  ifaceMax : Option Int

structure MarkConstants where
  mmxMask : Nat
  interfaceMax : Int
  mmxDefault : Nat
  mmxBlackhole : Nat
  mmxUnreachable : Nat
  deriving DecidableEq

/-- `mwan3_init` with the mask of the configuration, which counts only while there is no file. -/
def mwan3Init (status : Status) (config : Nat) : Status × MarkConstants :=
  let (mask, max) :=
    match status.mmxMask with
    | some mask => (mask, status.ifaceMax.getD (mmDefault mask - 3))
    | none => (config, mmDefault config - 3)
  let max := limitIfaceMax max
  (⟨some mask, some max⟩,
    { mmxMask := mask
      interfaceMax := max
      mmxDefault := id2mask (mmDefault mask) mask
      mmxBlackhole := id2mask (mmBlackhole mask) mask
      mmxUnreachable := id2mask (mmUnreachable mask) mask })

/-- What happens to the status: `mwan3_init`, the removal of the status directory, the loss of the UCI state. -/
inductive InitEvent where
  | init (config : Nat)
  | removeStatus
  | loseState

def initSystem : Foundation.Transducer Status InitEvent MarkConstants where
  step status
    | .init config =>
        let (status', constants) := mwan3Init status config
        (status', [constants])
    | .removeStatus => ({ status with mmxMask := none }, [])
    | .loseState => ({ status with ifaceMax := none }, [])

/-- The marks of all interface ids and of the last resorts. -/
def MarkConstants.marks (constants : MarkConstants) : List Nat :=
  (List.range constants.interfaceMax.toNat).map (fun i => id2mask (i + 1 : Nat) constants.mmxMask) ++
    [constants.mmxDefault, constants.mmxUnreachable, constants.mmxBlackhole]

/-- A saved limit is the one for the saved mask. -/
def Status.Consistent (status : Status) : Prop :=
  ∀ mask ∈ status.mmxMask, ∀ max ∈ status.ifaceMax, max = interfaceMax mask

/-- The constants that follow from a mask. -/
def constantsOf (mask : Nat) : MarkConstants where
  mmxMask := mask
  interfaceMax := interfaceMax mask
  mmxDefault := id2mask (mmDefault mask) mask
  mmxBlackhole := id2mask (mmBlackhole mask) mask
  mmxUnreachable := id2mask (mmUnreachable mask) mask

theorem limitIfaceMax_interfaceMax (mask : Nat) : limitIfaceMax (interfaceMax mask) = interfaceMax mask := by
  unfold limitIfaceMax interfaceMax
  simp only
  split
  next => rw [if_neg (lt_irrefl _)]
  next => rfl

theorem mwan3Init_spec {status : Status} (consistent : status.Consistent) (config : Nat) :
    mwan3Init status config =
      (⟨some (status.mmxMask.getD config), some (interfaceMax (status.mmxMask.getD config))⟩,
        constantsOf (status.mmxMask.getD config)) := by
  obtain ⟨file, state⟩ := status
  cases file with
  | none => rfl
  | some mask =>
      cases state with
      | none => rfl
      | some max =>
          obtain rfl : max = interfaceMax mask := consistent mask rfl max rfl
          simp only [mwan3Init, Option.getD_some, limitIfaceMax_interfaceMax]
          rfl

theorem consistent_step (status : Status) (event : InitEvent) (consistent : status.Consistent) :
    (initSystem.step status event).1.Consistent := by
  cases event with
  | init config =>
      simp only [initSystem, mwan3Init_spec consistent]
      intro mask file max state
      cases file
      cases state
      rfl
  | removeStatus => exact fun mask file => nomatch file
  | loseState => exact fun mask _ max state => nomatch state

theorem emitted_constants (events : List InitEvent) :
    ∀ constants ∈ initSystem.emitted ⟨none, none⟩ events, constants = constantsOf constants.mmxMask := by
  have start : Status.Consistent ⟨none, none⟩ := fun mask file => nomatch file
  have emits : ∀ status event, status.Consistent → ∀ constants ∈ (initSystem.step status event).2,
      constants = constantsOf constants.mmxMask := by
    intro status event consistent constants spoken
    cases event with
    | init config =>
        simp only [initSystem, mwan3Init_spec consistent, List.mem_singleton] at spoken
        rw [spoken]
        rfl
    | removeStatus => cases spoken
    | loseState => cases spoken
  exact initSystem.emitted_invariant consistent_step emits start events

theorem id2mask_ne_zero {mask id : Nat} (bound : mask < 2 ^ 32) (positive : 0 < id) (fits : id < 2 ^ countOneBits mask) :
    id2mask id mask ≠ 0 := by
  intro zero
  rw [← id2mask_zero mask] at zero
  exact positive.ne' (id2mask_injective bound fits (Nat.two_pow_pos _) zero)

/-- The id with all bits set has the mask itself as its mark. -/
theorem id2mask_mmDefault {mask : Nat} (bound : mask < 2 ^ 32) : id2mask (mmDefault mask) mask = mask := by
  refine Nat.eq_of_testBit_eq fun j => ?_
  rw [mmDefault_cast, Bool.eq_iff_iff, id2mask_testBit, Nat.testBit_two_pow_sub_one, decide_eq_true_eq,
    countOneBits_eq_bitsBelow bound]
  constructor
  · exact fun place => place.2.1
  · intro set
    have inRange : j < 32 := by
      by_contra high
      rw [Nat.testBit_lt_two_pow (bound.trans_le (Nat.pow_le_pow_right (by decide) (not_lt.mp high)))] at set
      cases set
    have next : bitsBelow mask (j + 1) = bitsBelow mask j + 1 := by rw [bitsBelow_succ, if_pos set]
    have most : bitsBelow mask (j + 1) ≤ bitsBelow mask 32 := Nat.count_monotone _ inRange
    exact ⟨inRange, set, by omega⟩

/-- The ids behind the marks. -/
def idsOf (mask : Nat) : List Nat :=
  (List.range (interfaceMax mask).toNat).map (fun i => i + 1) ++
    [2 ^ countOneBits mask - 1, 2 ^ countOneBits mask - 2, 2 ^ countOneBits mask - 3]

theorem marks_eq (mask : Nat) (bits : 3 ≤ countOneBits mask) :
    (constantsOf mask).marks = (idsOf mask).map fun id : Nat => id2mask id mask := by
  have wide : 2 ^ 3 ≤ 2 ^ countOneBits mask := Nat.pow_le_pow_right (by decide) bits
  have unreachable : mmUnreachable mask = ((2 ^ countOneBits mask - 2 : Nat) : Int) := by
    rw [mmUnreachable, mmDefault_cast]
    omega
  have blackhole : mmBlackhole mask = ((2 ^ countOneBits mask - 3 : Nat) : Int) := by
    rw [mmBlackhole, mmDefault_cast]
    omega
  rw [MarkConstants.marks, idsOf, List.map_append, List.map_map]
  simp only [constantsOf, mmDefault_cast, unreachable, blackhole, List.map_cons, List.map_nil]
  rfl

/-- The last resorts have the three ids above all interface ids. -/
theorem idsOf_spec (mask : Nat) (bits : 3 ≤ countOneBits mask) :
    (idsOf mask).Nodup ∧ ∀ id ∈ idsOf mask, 0 < id ∧ id < 2 ^ countOneBits mask := by
  have wide : 2 ^ 3 ≤ 2 ^ countOneBits mask := Nat.pow_le_pow_right (by decide) bits
  have most := interfaceMax_le mask
  rw [mmDefault_cast] at most
  have low : ∀ id ∈ (List.range (interfaceMax mask).toNat).map (fun i => i + 1), 0 < id ∧ id + 3 < 2 ^ countOneBits mask := by
    intro id member
    obtain ⟨i, below, rfl⟩ := List.mem_map.mp member
    rw [List.mem_range] at below
    omega
  constructor
  · rw [idsOf, List.nodup_append]
    refine ⟨List.nodup_range.map fun _ _ same => Nat.succ_injective same, ?_, ?_⟩
    · simp only [List.nodup_cons, List.mem_cons, List.not_mem_nil, List.nodup_nil, or_false, not_or, and_true, not_false_eq_true]
      omega
    · intro id member last among
      have small := (low id member).2
      simp only [List.mem_cons, List.not_mem_nil, or_false] at among
      omega
  · intro id member
    rcases List.mem_append.mp member with interface | last
    · have := low id interface
      omega
    · simp only [List.mem_cons, List.not_mem_nil, or_false] at last
      omega

/-- In every run, for every mask with three bits, no two marks collide. -/
theorem marks_never_collide (events : List InitEvent) {constants : MarkConstants}
    (computed : constants ∈ initSystem.emitted ⟨none, none⟩ events) (bound : constants.mmxMask < 2 ^ 32)
    (bits : 3 ≤ bitsBelow constants.mmxMask 32) :
    constants.marks.Nodup ∧
      (∀ mark ∈ constants.marks, mark ≠ 0 ∧ mark &&& constants.mmxMask = mark) ∧
      constants.mmxDefault = constants.mmxMask := by
  have shape := emitted_constants events constants computed
  generalize constants.mmxMask = mask at shape bound bits
  subst shape
  rw [← countOneBits_eq_bitsBelow bound] at bits
  obtain ⟨nodup, fits⟩ := idsOf_spec mask bits
  rw [marks_eq mask bits]
  refine ⟨?_, ?_, id2mask_mmDefault bound⟩
  · exact nodup.map_on fun first member second member' same =>
      id2mask_injective bound (fits first member).2 (fits second member').2 same
  · intro mark member
    obtain ⟨id, inside, rfl⟩ := List.mem_map.mp member
    exact ⟨id2mask_ne_zero bound (fits id inside).1 (fits id inside).2, id2mask_and_mask id mask⟩

theorem marks_never_collide_default_mask :
    (constantsOf 0x3f00).marks.Nodup ∧
      (∀ mark ∈ (constantsOf 0x3f00).marks, mark ≠ 0 ∧ mark &&& 0x3f00 = mark) ∧ (constantsOf 0x3f00).mmxDefault = 0x3f00 :=
  @marks_never_collide [.init 0x3f00] (constantsOf 0x3f00) (by simp [initSystem, mwan3Init, constantsOf]; rfl)
    (by decide) (by decide +kernel)

end XWrt.Mwan3
