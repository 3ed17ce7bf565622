import Mathlib.Data.Finset.Card
import Mathlib.Data.List.Perm.Basic
import Mathlib.Data.List.TakeWhile

/-!
# Sets with room for so many elements

An element is put into a set unless the set is full. Where all elements fit their
order does not matter; where they do not, it decides which of them are kept.

Elements can also come as lines: of a line, a set takes what stands in front of the
first element that it has. An element that comes before the lines then changes what
they add, unless they do not reach it or end with it.
-/

namespace XWrt.Foundation.BoundedSet

variable {α : Type*} [DecidableEq α] (room : ℕ) (set : Finset α)

/-- An element is put into the set, unless it is full. -/
def add (item : α) : Finset α := if set.card < room then insert item set else set

/-- Elements one after the other. -/
def addAll (items : List α) : Finset α := items.foldl (add room) set

/-- The elements of a line, up to the first that the set has. -/
def addNew (line : List α) : Finset α := addAll room set (line.takeWhile (· ∉ set))

/-- The same for a set with room for everything. -/
def insertNew (line : List α) : Finset α := set ∪ (line.takeWhile (· ∉ set)).toFinset

/-- The elements of a line are taken out, up to the first that the set does not have. -/
def removeOld (line : List α) : Finset α := set \ (line.takeWhile (· ∈ set)).toFinset

/-- What the set takes of each line, one after the other. -/
def takes : Finset α → List (List α) → List (List α)
  | _, [] => []
  | set, line :: lines => line.takeWhile (· ∉ set) :: takes (insertNew set line) lines

theorem addAll_cons (item : α) (items : List α) : addAll room set (item :: items) = addAll room (add room set item) items := rfl

variable {room set}

theorem add_of_full (full : room ≤ set.card) (item : α) : add room set item = set := if_neg (Nat.not_lt.mpr full)

theorem addAll_of_full (full : room ≤ set.card) (items : List α) : addAll room set items = set := by
  induction items with
  | nil => rfl
  | cons item items ih => rw [addAll_cons, add_of_full full, ih]

/-- An element fits if the set with it does. -/
theorem add_of_fits {item : α} (fits : (insert item set).card ≤ room) : add room set item = insert item set := by
  rw [add]
  split
  next => rfl
  next full =>
    have same : insert item set = set := (Finset.eq_of_subset_of_card_le (Finset.subset_insert item set) (by omega)).symm
    exact same.symm

/-- Where all elements fit, all are put into the set. -/
theorem addAll_of_fits {items : List α} (fits : (set ∪ items.toFinset).card ≤ room) : addAll room set items = set ∪ items.toFinset := by
  induction items generalizing set with
  | nil => exact (Finset.union_empty set).symm
  | cons item items ih =>
      have whole : set ∪ (item :: items).toFinset = insert item set ∪ items.toFinset := by
        rw [List.toFinset_cons, Finset.union_insert, Finset.insert_union]
      rw [whole] at fits ⊢
      have first : (insert item set).card ≤ room := (Finset.card_le_card Finset.subset_union_left).trans fits
      rw [addAll_cons, add_of_fits first, ih fits]

section Lines

theorem addNew_singleton (item : α) : addNew room set [item] = add room set item := by
  rw [addNew, add]
  by_cases here : item ∈ set
  · rw [List.takeWhile_cons_of_neg (by simpa using here), Finset.insert_eq_of_mem here, ite_self]
    rfl
  · rw [List.takeWhile_cons_of_pos (by simpa using here)]
    rfl

theorem insertNew_singleton (item : α) : insertNew set [item] = insert item set := by
  rw [insertNew]
  by_cases here : item ∈ set
  · rw [List.takeWhile_cons_of_neg (by simpa using here), Finset.insert_eq_of_mem here]
    exact Finset.union_empty set
  · rw [List.takeWhile_cons_of_pos (by simpa using here), List.takeWhile_nil, List.toFinset_cons, Finset.union_insert]
    exact congrArg _ (Finset.union_empty set)

theorem removeOld_singleton (item : α) : removeOld set [item] = set.erase item := by
  rw [removeOld]
  by_cases here : item ∈ set
  · rw [List.takeWhile_cons_of_pos (by simpa using here), Finset.erase_eq]
    rfl
  · rw [List.takeWhile_cons_of_neg (by simpa using here), Finset.erase_eq_of_notMem here]
    exact Finset.sdiff_empty

/-- With the element in it, the set takes of a line what stands in front of the element too. -/
theorem takeWhile_insert (item : α) (line : List α) :
    line.takeWhile (· ∉ insert item set) = (line.takeWhile (· ∉ set)).takeWhile (· ≠ item) := by
  rw [List.takeWhile_takeWhile]
  refine congrArg (List.takeWhile · line) (funext fun other => ?_)
  simp only [Finset.mem_insert, not_or, decide_not, Bool.decide_and, Bool.not_eq_true', decide_eq_false_iff_not]

/-- An element that a list has at its end only is all that is missing in front of it. -/
theorem insert_takeWhile {item : α} {list : List α} (spared : item ∉ list.dropLast) :
    insert item (list.takeWhile (· ≠ item)).toFinset = insert item list.toFinset := by
  induction list with
  | nil => rfl
  | cons first list ih =>
      cases list with
      | nil =>
          by_cases same : first = item
          · simp [same]
          · simp [same]
      | cons second list =>
          rw [List.dropLast_cons_cons, List.mem_cons, not_or] at spared
          have other : decide (first ≠ item) = true := decide_eq_true (Ne.symm spared.1)
          rw [@List.takeWhile_cons_of_pos _ (· ≠ item) _ _ other, List.toFinset_cons, List.toFinset_cons, Finset.insert_comm, ih spared.2, Finset.insert_comm]

/-- An element may come before a line instead of behind it if the set takes nothing of the line behind the element. -/
theorem insertNew_insert {item : α} {line : List α} (spared : item ∉ (line.takeWhile (· ∉ set)).dropLast) :
    insertNew (insert item set) line = insert item (insertNew set line) := by
  rw [insertNew, insertNew, takeWhile_insert, Finset.insert_union, ← Finset.union_insert, insert_takeWhile spared, Finset.union_insert]

theorem foldl_insertNew (lines : List (List α)) : lines.foldl insertNew set = set ∪ (takes set lines).flatten.toFinset := by
  induction lines generalizing set with
  | nil => exact (Finset.union_empty set).symm
  | cons line lines ih => rw [List.foldl_cons, ih, takes, List.flatten_cons, List.toFinset_append, insertNew, Finset.union_assoc]

/-- The same for lines one after the other. -/
theorem foldl_insertNew_insert {item : α} {lines : List (List α)} (spared : ∀ taken ∈ takes set lines, item ∉ taken.dropLast) :
    lines.foldl insertNew (insert item set) = insert item (lines.foldl insertNew set) := by
  induction lines generalizing set with
  | nil => rfl
  | cons line lines ih =>
      rw [takes, List.forall_mem_cons] at spared
      rw [List.foldl_cons, insertNew_insert spared.1, ih spared.2]
      rfl

end Lines

end XWrt.Foundation.BoundedSet
