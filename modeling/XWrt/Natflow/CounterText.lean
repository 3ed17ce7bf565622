import XWrt.Natflow.UserRecord

/-!
# The text of a counter

`read_u64_decimal` again, with the numbers it meets on the way. A Lua number is
exact below `2 ^ 53` only, so the text of a counter can be trusted because no
number the loops compute comes near that bound. The trace is proof
instrumentation; its value is that of the function.
-/

namespace XWrt.Natflow.UserRecord

open XWrt.Foundation.Numerals

/-- A value and the numbers that were computed for it. -/
structure Traced (α : Type) where
  value : α
  numbers : List Nat

def carryChunksTraced (carry : Nat) : Traced (List Nat) :=
  if 0 < carry then
    let rest := carryChunksTraced (carry / base)
    ⟨carry % base :: rest.value, carry % base :: carry / base :: rest.numbers⟩
  else ⟨[], []⟩
termination_by carry
decreasing_by exact Nat.div_lt_self ‹_› (by decide)

def addByteTraced : List Nat → Nat → Traced (List Nat)
  | [], carry => carryChunksTraced carry
  | chunk :: rest, carry =>
      let value := chunk * 256 + carry
      let inner := addByteTraced rest (value / base)
      ⟨value % base :: inner.value, chunk * 256 :: value :: value % base :: value / base :: inner.numbers⟩

/-- One round of the loop over the bytes. -/
def addRoundTraced (data : List UInt8) (pos : Nat) (le : Bool) (run : Traced (List Nat)) (i : Nat) :
    Option (Traced (List Nat)) := do
  let idx := if le then pos + 8 - i else pos + i - 1
  let byte ← (bytes data idx 1).head?
  let next := addByteTraced run.value byte
  pure ⟨next.value, run.numbers ++ byte :: next.numbers⟩

def readU64DecimalTraced (data : List UInt8) (pos : Nat) (le : Bool) : Option (Traced String) := do
  let run ← [1, 2, 3, 4, 5, 6, 7, 8].foldlM (addRoundTraced data pos le) ⟨[0], []⟩
  pure ⟨String.ofList (chunksText run.value), run.numbers⟩

/-! ## The value of the trace -/

theorem carryChunksTraced_value (carry : Nat) : (carryChunksTraced carry).value = carryChunks carry := by
  induction carry using Nat.strong_induction_on with
  | _ carry ih =>
      rw [carryChunksTraced, carryChunks]
      split
      next some => exact congrArg (carry % base :: ·) (ih _ (Nat.div_lt_self some (by decide)))
      next => rfl

theorem addByteTraced_value (chunks : List Nat) (carry : Nat) : (addByteTraced chunks carry).value = addByte chunks carry := by
  induction chunks generalizing carry with
  | nil => exact carryChunksTraced_value carry
  | cons chunk rest ih => exact congrArg ((chunk * 256 + carry) % base :: ·) (ih _)

theorem readU64DecimalTraced_value (data : List UInt8) (pos : Nat) (le : Bool) :
    (readU64DecimalTraced data pos le).map Traced.value = readU64Decimal data pos le := by
  -- The loop over any rounds, from any chunks.
  have rounds : ∀ (steps : List Nat) (run : Traced (List Nat)),
      (steps.foldlM (addRoundTraced data pos le) run).map Traced.value = steps.foldlM (fun chunks i => do
        let idx := if le then pos + 8 - i else pos + i - 1
        let byte ← (bytes data idx 1).head?
        pure (addByte chunks byte)) run.value := by
    intro steps
    induction steps with
    | nil => exact fun run => rfl
    | cons i steps ih =>
        intro run
        rw [List.foldlM_cons, List.foldlM_cons, addRoundTraced]
        dsimp only
        cases (bytes data (if le then pos + 8 - i else pos + i - 1) 1).head? with
        | none => rfl
        | some byte =>
            simp only [Option.bind_eq_bind, Option.bind_some, Option.pure_def, ih, addByteTraced_value]
  have all := rounds [1, 2, 3, 4, 5, 6, 7, 8] ⟨[0], []⟩
  rw [readU64DecimalTraced, readU64Decimal, ← all]
  cases [1, 2, 3, 4, 5, 6, 7, 8].foldlM (addRoundTraced data pos le) ⟨[0], []⟩ <;> rfl

/-! ## The numbers of the trace -/

/-- Numbers that a Lua number holds exactly. -/
def Exact (numbers : List Nat) : Prop := ∀ number ∈ numbers, number < 2 ^ 53

def Chunks (chunks : List Nat) : Prop := ∀ chunk ∈ chunks, chunk < base

theorem chunks_carryChunks (carry : Nat) : Chunks (carryChunks carry) := by
  rw [carryChunks_eq]
  exact fun chunk inside => Nat.digits_lt_base (by decide) inside

theorem chunks_addByte {chunks : List Nat} (small : Chunks chunks) (carry : Nat) : Chunks (addByte chunks carry) := by
  induction chunks generalizing carry with
  | nil => exact chunks_carryChunks carry
  | cons chunk rest ih =>
      have last : (chunk * 256 + carry) % base < base := Nat.mod_lt _ (by decide)
      exact List.forall_mem_cons.mpr ⟨last, ih (List.forall_mem_cons.mp small).2 _⟩

theorem carryChunksTraced_numbers {carry : Nat} (small : carry < 2 ^ 53) : Exact (carryChunksTraced carry).numbers := by
  induction carry using Nat.strong_induction_on with
  | _ carry ih =>
      rw [carryChunksTraced]
      split
      next some =>
        have low : carry % base < 2 ^ 53 := (Nat.mod_le carry base).trans_lt small
        have high : carry / base < 2 ^ 53 := (Nat.div_le_self carry base).trans_lt small
        exact List.forall_mem_cons.mpr ⟨low, List.forall_mem_cons.mpr ⟨high, ih _ (Nat.div_lt_self some (by decide)) high⟩⟩
      next => exact List.forall_mem_nil _

/-- The carry never grows above `256`, whatever the chunks below the base are. -/
theorem addByteTraced_numbers {chunks : List Nat} (small : Chunks chunks) {carry : Nat} (byte : carry ≤ 256) :
    Exact (addByteTraced chunks carry).numbers := by
  induction chunks generalizing carry with
  | nil => exact carryChunksTraced_numbers (byte.trans_lt (by decide))
  | cons chunk rest ih =>
      obtain ⟨first, others⟩ := List.forall_mem_cons.mp small
      have value : chunk * 256 + carry ≤ base * 256 := by omega
      have carried : (chunk * 256 + carry) / base ≤ 256 := Nat.div_le_of_le_mul value
      have sum : chunk * 256 + carry < 2 ^ 53 := value.trans_lt (by decide)
      have product : chunk * 256 < 2 ^ 53 := (Nat.le_add_right _ carry).trans_lt sum
      have last : (chunk * 256 + carry) % base < 2 ^ 53 := (Nat.mod_le _ base).trans_lt sum
      have quotient : (chunk * 256 + carry) / base < 2 ^ 53 := (Nat.div_le_self _ base).trans_lt sum
      intro number inside
      simp only [addByteTraced, List.mem_cons] at inside
      rcases inside with rfl | rfl | rfl | rfl | inner
      · exact product
      · exact sum
      · exact last
      · exact quotient
      · exact ih others carried number inner

theorem bytes_lt {data : List UInt8} {pos count byte : Nat} (inside : byte ∈ bytes data pos count) : byte < 256 := by
  obtain ⟨raw, -, rfl⟩ := List.mem_map.mp inside
  exact raw.toNat_lt

theorem addRoundTraced_numbers {data : List UInt8} {pos : Nat} {le : Bool} {run next : Traced (List Nat)} {i : Nat}
    (round : addRoundTraced data pos le run i = some next) (small : Chunks run.value) (exact : Exact run.numbers) :
    Chunks next.value ∧ Exact next.numbers := by
  simp only [addRoundTraced, Option.bind_eq_bind, Option.bind_eq_some_iff, Option.pure_def, Option.some.injEq] at round
  obtain ⟨byte, found, rfl⟩ := round
  have below : byte < 256 := bytes_lt (List.mem_of_mem_head? found)
  constructor
  · rw [addByteTraced_value]
    exact chunks_addByte small byte
  · refine List.forall_mem_append.mpr ⟨exact, List.forall_mem_cons.mpr ⟨below.trans (by decide), ?_⟩⟩
    exact addByteTraced_numbers small below.le

theorem readU64DecimalTraced_numbers {data : List UInt8} {pos : Nat} {le : Bool} {run : Traced String}
    (read : readU64DecimalTraced data pos le = some run) : Exact run.numbers := by
  have rounds : ∀ (steps : List Nat) (first last : Traced (List Nat)),
      steps.foldlM (addRoundTraced data pos le) first = some last → Chunks first.value → Exact first.numbers →
        Exact last.numbers := by
    intro steps
    induction steps with
    | nil =>
        rintro first last ⟨⟩ - exact
        exact exact
    | cons i steps ih =>
        intro first last ran small exact
        rw [List.foldlM_cons] at ran
        obtain ⟨next, round, rest⟩ := Option.bind_eq_some_iff.mp ran
        obtain ⟨small', exact'⟩ := addRoundTraced_numbers round small exact
        exact ih next last rest small' exact'
  obtain ⟨last, ran, result⟩ := Option.bind_eq_some_iff.mp read
  obtain rfl := Option.some.inj result
  exact rounds _ _ last ran (List.forall_mem_singleton.mpr (by decide)) (List.forall_mem_nil _)

/-! ## Exactness -/

/-- The number in eight bytes, with the highest byte last or first. -/
def fieldValue (data : List UInt8) (pos : Nat) (le : Bool) : Nat :=
  fromHigh 256 (if le then (bytes data pos 8).reverse else bytes data pos 8)

/-- Decimal digits without leading zeros that stand for a number. -/
structure CanonicalDecimal (text : String) (n : Nat) : Prop where
  digits : ∀ char ∈ text.toList, char.isDigit = true
  leading : text.toList.head? = some '0' → text = "0"
  reads : Nat.ofDigitChars 10 text.toList 0 = n
  zero : n = 0 → text = "0"

theorem head_toDigits_ne_zero {n : Nat} (positive : 0 < n) : (Nat.toDigits 10 n).head? ≠ some '0' := by
  induction n using Nat.strong_induction_on with
  | _ n ih =>
      rcases Nat.lt_or_ge n 10 with single | long
      · rw [Nat.toDigits_of_lt_base single, List.head?_singleton]
        interval_cases n <;> decide
      · rw [Nat.toDigits_of_base_le (by decide) long, List.head?_append_of_ne_nil _ Nat.toDigits_ne_nil]
        exact ih (n / 10) (Nat.div_lt_self positive (by decide)) (Nat.div_pos long (by decide))

theorem canonicalDecimal_toString (n : Nat) : CanonicalDecimal (toString n) n := by
  have text : (toString n).toList = Nat.toDigits 10 n := Nat.toList_repr
  constructor
  · intro char inside
    rw [text] at inside
    exact Nat.isDigit_of_mem_toDigits (by decide) (by decide) inside
  · intro leading
    rcases Nat.eq_zero_or_pos n with rfl | positive
    · rfl
    · rw [text] at leading
      exact absurd leading (head_toDigits_ne_zero positive)
  · rw [text]
    exact Nat.ofDigitChars_ten_toDigits
  · rintro rfl
    rfl

theorem fieldValue_lt {data : List UInt8} {pos : Nat} (le : Bool) (whole : (bytes data pos 8).length = 8) :
    fieldValue data pos le < 2 ^ 64 := by
  rw [fieldValue, fromHigh]
  have length : (if le then (bytes data pos 8).reverse else bytes data pos 8).reverse.length = 8 := by
    cases le <;> simpa using whole
  have small : ∀ digit ∈ (if le then (bytes data pos 8).reverse else bytes data pos 8).reverse, digit < 256 := by
    cases le <;> simpa using fun digit inside => bytes_lt inside
  have bound := Nat.ofDigits_lt_base_pow_length (by decide) small
  rwa [length] at bound

/-- The bytes of a field are those of its value. -/
theorem bytes_fieldValue {data : List UInt8} {pos : Nat} (le : Bool) (whole : (bytes data pos 8).length = 8) :
    bytes data pos 8 = (wordBytes le 8 (fieldValue data pos le)).map UInt8.toNat := by
  have low : ∀ n, ((List.range 8).map fun i => UInt8.ofNat (n / 256 ^ i)).map UInt8.toNat =
      (List.range 8).map fun i => n / 256 ^ i % 256 := by
    intro n
    rw [List.map_map]
    exact List.map_congr_left fun i _ => UInt8.toNat_ofNat'
  have small : ∀ digit ∈ bytes data pos 8, digit < 256 := fun digit inside => bytes_lt inside
  have reversed : ∀ digit ∈ (bytes data pos 8).reverse, digit < 256 :=
    fun digit inside => bytes_lt (List.mem_reverse.mp inside)
  cases le with
  | true =>
      have digits := map_ofDigits_div_mod (by decide) small
      rw [whole] at digits
      rw [wordBytes, if_pos rfl, low, fieldValue, if_pos rfl, fromHigh, List.reverse_reverse, digits]
  | false =>
      have digits := map_ofDigits_div_mod (by decide) reversed
      rw [List.length_reverse, whole] at digits
      rw [wordBytes, if_neg Bool.false_ne_true, List.map_reverse, low, fieldValue, if_neg Bool.false_ne_true, fromHigh,
        digits, List.reverse_reverse]

theorem readU64Decimal_exact {data : List UInt8} {pos : Nat} (le : Bool) (positive : 0 < pos) (inside : pos + 7 ≤ data.length) :
    ∃ run, readU64DecimalTraced data pos le = some run ∧ readU64Decimal data pos le = some run.value ∧
      CanonicalDecimal run.value (fieldValue data pos le) ∧ ∀ number ∈ run.numbers, number < 2 ^ 53 := by
  have whole : (bytes data pos 8).length = 8 := by
    simp only [bytes, List.length_map, List.length_take, List.length_drop]
    omega
  have text := readU64Decimal_wordBytes positive (fieldValue_lt le whole) (bytes_fieldValue le whole)
  have traced := readU64DecimalTraced_value data pos le
  rw [text] at traced
  obtain ⟨run, ran, value⟩ := Option.map_eq_some_iff.mp traced
  refine ⟨run, ran, ?_, ?_, readU64DecimalTraced_numbers ran⟩
  · rw [text, value]
  · rw [value]
    exact canonicalDecimal_toString _

theorem readU64Decimal_exact_largest :
    ∃ run, readU64DecimalTraced (List.replicate 8 255) 1 true = some run ∧
      readU64Decimal (List.replicate 8 255) 1 true = some run.value ∧
      CanonicalDecimal run.value (fieldValue (List.replicate 8 255) 1 true) ∧ ∀ number ∈ run.numbers, number < 2 ^ 53 :=
  readU64Decimal_exact true (by decide) (by decide)

end XWrt.Natflow.UserRecord
