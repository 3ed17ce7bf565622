import Mathlib.Data.List.Basic

/-!
# Streams absorbed in blocks

A stream of values is absorbed into a state block by block; the values behind
the last whole block wait for the next ones. Where the stream is cut into
pieces makes no difference, and a stream of whole blocks is absorbed as the
list of its blocks.
-/

namespace XWrt.Foundation.BlockStream

variable {σ β : Type*}

/-- One value more; a full block is compressed into the state. -/
def feed (size : ℕ) (compress : σ → List β → σ) (s : σ × List β) (value : β) : σ × List β :=
  if s.2.length + 1 < size then (s.1, s.2 ++ [value]) else (compress s.1 (s.2 ++ [value]), [])

/-- The state and the waiting values after a piece of the stream. -/
def absorb (size : ℕ) (compress : σ → List β → σ) (s : σ × List β) (values : List β) : σ × List β :=
  values.foldl (feed size compress) s

/-- The whole blocks of a list, in order. -/
def blocks (size : ℕ) (values : List β) : List (List β) :=
  (List.range (values.length / size)).map fun k => (values.drop (k * size)).take size

variable {size : ℕ} {compress : σ → List β → σ} {s : σ × List β}

@[simp]
theorem absorb_nil : absorb size compress s [] = s := rfl

@[simp]
theorem absorb_cons (value : β) (values : List β) :
    absorb size compress s (value :: values) = absorb size compress (feed size compress s value) values := rfl

theorem absorb_append (first second : List β) :
    absorb size compress s (first ++ second) = absorb size compress (absorb size compress s first) second :=
  List.foldl_append

/-- Values that do not fill the block wait. -/
theorem absorb_short {values : List β} (short : s.2.length + values.length < size) :
    absorb size compress s values = (s.1, s.2 ++ values) := by
  induction values generalizing s with
  | nil => rw [absorb_nil, List.append_nil]
  | cons value values ih =>
      rw [List.length_cons] at short
      have waits : feed size compress s value = (s.1, s.2 ++ [value]) := if_pos (by omega)
      rw [absorb_cons, waits, ih (by rw [List.length_append, List.length_singleton]; omega)]
      rw [List.append_assoc, List.singleton_append]

/-- Values that fill the block exactly. -/
theorem absorb_full {values : List β} (nonempty : values ≠ []) (full : s.2.length + values.length = size) :
    absorb size compress s values = (compress s.1 (s.2 ++ values), []) := by
  obtain ⟨front, last, rfl⟩ := List.eq_nil_or_concat' values |>.resolve_left nonempty
  rw [List.length_append, List.length_singleton] at full
  have before : absorb size compress s front = (s.1, s.2 ++ front) := absorb_short (by omega)
  have fills : ¬(s.2 ++ front).length + 1 < size := by
    rw [List.length_append]
    omega
  rw [absorb_append, before, absorb_cons, absorb_nil, feed, if_neg fills, List.append_assoc]

theorem absorb_block (positive : 0 < size) (state : σ) {block : List β} (whole : block.length = size) (values : List β) :
    absorb size compress (state, []) (block ++ values) = absorb size compress (compress state block, []) values := by
  have nonempty : block ≠ [] := List.ne_nil_of_length_pos (whole ▸ positive)
  rw [absorb_append, absorb_full nonempty (by simpa using whole), List.nil_append]

theorem length_feed (small : s.2.length < size) (value : β) :
    (feed size compress s value).2.length = (s.2.length + 1) % size := by
  rw [feed]
  split
  next waits => rw [List.length_append, List.length_singleton, Nat.mod_eq_of_lt waits]
  next fills =>
    have full : s.2.length + 1 = size := by omega
    rw [full, Nat.mod_self, List.length_nil]

/-- The number of values that wait. -/
theorem length_absorb (small : s.2.length < size) (values : List β) :
    (absorb size compress s values).2.length = (s.2.length + values.length) % size := by
  induction values generalizing s with
  | nil => rw [absorb_nil, List.length_nil, Nat.add_zero, Nat.mod_eq_of_lt small]
  | cons value values ih =>
      have fed : (feed size compress s value).2.length < size := by
        rw [length_feed small]
        exact Nat.mod_lt _ (by omega)
      rw [absorb_cons, ih fed, length_feed small, Nat.mod_add_mod, List.length_cons]
      congr 1
      omega

theorem blocks_append (positive : 0 < size) {block : List β} (whole : block.length = size) (values : List β) :
    blocks size (block ++ values) = block :: blocks size values := by
  have count : (block ++ values).length / size = values.length / size + 1 := by
    rw [List.length_append, whole, Nat.add_comm, Nat.add_div_right _ positive]
  rw [blocks, count, List.range_succ_eq_map, List.map_cons, List.map_map, Nat.zero_mul, List.drop_zero]
  congr 1
  · rw [← whole, List.take_left]
  · refine List.map_congr_left fun k _ => ?_
    rw [Function.comp, Nat.succ_mul, Nat.add_comm (k * size), ← List.drop_drop, ← whole, List.drop_left]

/-- A stream of whole blocks. -/
theorem absorb_blocks (positive : 0 < size) (state : σ) {values : List β} (whole : size ∣ values.length) :
    absorb size compress (state, []) values = ((blocks size values).foldl compress state, []) := by
  obtain ⟨count, length⟩ := whole
  induction count generalizing state values with
  | zero =>
      obtain rfl : values = [] := List.eq_nil_of_length_eq_zero (by omega)
      rw [blocks, List.length_nil, Nat.zero_div]
      rfl
  | succ count ih =>
      rw [Nat.mul_succ] at length
      have first : (values.take size).length = size := List.length_take_of_le (by omega)
      have rest : (values.drop size).length = size * count := by
        rw [List.length_drop]
        omega
      rw [← List.take_append_drop size values, absorb_block positive state first, blocks_append positive first,
        ih _ rest, List.foldl_cons]

end XWrt.Foundation.BlockStream
