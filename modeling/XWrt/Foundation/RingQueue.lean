import Mathlib.Data.List.Basic

/-!
# Queues in a ring of cells

A queue of `count` values in a memory of `cap` cells, the first at `start` and
the later ones after it, wrapping at the end of the memory. Blocks that do not
wrap are stored and read as a whole: storing a block behind the last value
appends it, and moving the start removes a prefix.
-/

namespace XWrt.Foundation.RingQueue

variable {β : Type*} {cap start count n : ℕ} {memory : ℕ → β}

/-- The cell `k` places after `start`. -/
def slot (cap start k : ℕ) : ℕ := if start + k < cap then start + k else start + k - cap

/-- The values of the queue, in order. -/
def contents (cap : ℕ) (memory : ℕ → β) (start count : ℕ) : List β :=
  (List.range count).map fun k => memory (slot cap start k)

/-- `n` cells in a row. -/
def block (memory : ℕ → β) (start n : ℕ) : List β :=
  (List.range n).map fun k => memory (start + k)

/-- The memory with `data` stored from `place` on. -/
def store (memory : ℕ → β) (place : ℕ) (data : List β) : ℕ → β := fun i =>
  if place ≤ i then (data[i - place]?).getD (memory i) else memory i

@[simp]
theorem contents_length : (contents cap memory start count).length = count := by
  simp [contents]

@[simp]
theorem contents_zero : contents cap memory start 0 = [] := rfl

@[simp]
theorem block_length : (block memory start n).length = n := by
  simp [block]

/-- Two steps along the ring make one. -/
theorem slot_slot {j k : ℕ} (inside : start < cap) (fits : j + k < cap) :
    slot cap (slot cap start j) k = slot cap start (j + k) := by
  unfold slot
  split_ifs <;> omega

theorem store_of_lt {place i : ℕ} (data : List β) (before : i < place) :
    store memory place data i = memory i := by
  rw [store, if_neg (Nat.not_le.mpr before)]

theorem store_of_ge {place i : ℕ} {data : List β} (after : place + data.length ≤ i) :
    store memory place data i = memory i := by
  rw [store, if_pos (by omega), List.getElem?_eq_none (by omega)]
  rfl

theorem store_at {place k : ℕ} {data : List β} (inside : k < data.length) :
    store memory place data (place + k) = data[k] := by
  rw [store, if_pos (Nat.le_add_right place k), Nat.add_sub_cancel_left,
    List.getElem?_eq_getElem inside]
  rfl

/-- A block stored behind the last value is appended, and no value is overwritten. -/
theorem contents_store {place : ℕ} {data : List β} (fits : count + data.length ≤ cap)
    (behind : place = slot cap start count) (unwrapped : place + data.length ≤ cap) :
    contents cap (store memory place data) start (count + data.length) =
      contents cap memory start count ++ data := by
  refine List.ext_getElem (by simp) fun k here there => ?_
  simp only [contents_length] at here
  rw [List.getElem_append]
  simp only [contents, List.getElem_map, List.getElem_range, List.length_map, List.length_range]
  split
  · rename_i old
    have apart : slot cap start k < place ∨ place + data.length ≤ slot cap start k := by
      subst behind
      unfold slot at *
      split_ifs at * <;> omega
    rcases apart with before | after
    · exact store_of_lt data before
    · exact store_of_ge after
  · rename_i new
    have here : slot cap start k = place + (k - count) := by
      subst behind
      unfold slot at *
      split_ifs at * <;> omega
    rw [here]
    exact store_at (by omega)

/-- Moving the start removes a prefix. -/
theorem contents_drop (inside : start < cap) (fits : count ≤ cap) (within : n ≤ count) :
    contents cap memory (slot cap start n) (count - n) =
      (contents cap memory start count).drop n := by
  refine List.ext_getElem (by simp) fun k here there => ?_
  simp only [contents_length] at here
  simp only [contents, List.getElem_drop, List.getElem_map, List.getElem_range]
  rw [slot_slot inside (by omega)]

/-- A block that does not wrap is read off the front of the queue. -/
theorem block_eq_take (unwrapped : start + n ≤ cap) (within : n ≤ count) :
    block memory start n = (contents cap memory start count).take n := by
  refine List.ext_getElem (by simp [within]) fun k here there => ?_
  simp only [block_length] at here
  simp only [block, contents, List.getElem_take, List.getElem_map, List.getElem_range]
  rw [slot, if_pos (by omega)]

theorem block_append_contents (inside : start < cap) (fits : count ≤ cap)
    (unwrapped : start + n ≤ cap) (within : n ≤ count) :
    block memory start n ++ contents cap memory (slot cap start n) (count - n) =
      contents cap memory start count := by
  rw [block_eq_take unwrapped within, contents_drop inside fits within, List.take_append_drop]

end XWrt.Foundation.RingQueue
