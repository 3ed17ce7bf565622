import Mathlib.Data.List.Induction
import Mathlib.Data.List.Nodup

/-!
# Grouping by a key

Items come one by one; the first one of a key starts a group and the later ones
are merged into it. The table keeps the groups in the order in which they were
started. A group is the fold of the items of its key, whatever stands between
them.
-/

namespace XWrt.Foundation.Grouping

variable {α β κ : Type*} [DecidableEq κ] (key : α → κ) (start : α → β) (merge : β → α → β)

/-- One more item. -/
def addItem (table : List (κ × β)) (item : α) : List (κ × β) :=
  if key item ∈ table.map Prod.fst then
    table.map fun group => if group.1 = key item then (group.1, merge group.2 item) else group
  else table ++ [(key item, start item)]

def groups (items : List α) : List (κ × β) := items.foldl (addItem key start merge) []

/-- The items of one key. -/
def ofKey (items : List α) (k : κ) : List α := items.filter fun item => key item = k

variable {key start merge}

theorem mem_ofKey {items : List α} {k : κ} {item : α} : item ∈ ofKey key items k ↔ item ∈ items ∧ key item = k := by
  rw [ofKey, List.mem_filter, decide_eq_true_iff]

theorem ofKey_concat (items : List α) (item : α) (k : κ) :
    ofKey key (items ++ [item]) k = if key item = k then ofKey key items k ++ [item] else ofKey key items k := by
  rw [ofKey, List.filter_append]
  split
  next same => rw [List.filter_singleton, decide_eq_true same, ofKey, cond_true]
  next other => rw [List.filter_singleton, decide_eq_false other, ofKey, cond_false, List.append_nil]

theorem groups_concat (items : List α) (item : α) :
    groups key start merge (items ++ [item]) = addItem key start merge (groups key start merge items) item := by
  rw [groups, List.foldl_append]
  rfl

theorem keys_addItem (table : List (κ × β)) (item : α) :
    (addItem key start merge table item).map Prod.fst =
      if key item ∈ table.map Prod.fst then table.map Prod.fst else table.map Prod.fst ++ [key item] := by
  rw [addItem]
  split
  next =>
    rw [List.map_map]
    refine List.map_congr_left fun group _ => ?_
    rw [Function.comp_apply]
    split <;> rfl
  next => rw [List.map_append, List.map_singleton]

/-- No key has two groups. -/
theorem keys_nodup (items : List α) : ((groups key start merge items).map Prod.fst).Nodup := by
  induction items using List.reverseRecOn with
  | nil => exact List.nodup_nil
  | append_singleton items item ih =>
      rw [groups_concat, keys_addItem]
      split
      next => exact ih
      next new => exact List.nodup_append.mpr ⟨ih, List.nodup_singleton _, fun k old _ one same =>
          new (List.mem_singleton.mp one ▸ same ▸ old)⟩

/-- The keys are those of the items. -/
theorem mem_keys {items : List α} {k : κ} : k ∈ (groups key start merge items).map Prod.fst ↔ ∃ item ∈ items, key item = k := by
  induction items using List.reverseRecOn with
  | nil => simp [groups]
  | append_singleton items item ih =>
      rw [groups_concat, keys_addItem]
      split
      next old =>
        rw [ih]
        constructor
        · rintro ⟨other, member, same⟩
          exact ⟨other, List.mem_append_left _ member, same⟩
        · rintro ⟨other, member, same⟩
          rcases List.mem_append.mp member with member | last
          · exact ⟨other, member, same⟩
          · rw [List.mem_singleton.mp last] at same
            exact ih.mp (same ▸ old)
      next => simp only [List.mem_append, ih, List.mem_singleton, or_and_right, exists_or, exists_eq_left, @eq_comm _ k]

/-- What holds of a started group and is kept by every merge holds of the whole group and the items of its key. -/
theorem groups_induction {holds : List α → β → Prop} (first : ∀ item, holds [item] (start item))
    (next : ∀ items group item, holds items group → holds (items ++ [item]) (merge group item)) {items : List α} {k : κ} {group : β}
    (member : (k, group) ∈ groups key start merge items) : holds (ofKey key items k) group := by
  induction items using List.reverseRecOn generalizing group with
  | nil => exact absurd member List.not_mem_nil
  | append_singleton items item ih =>
      rw [groups_concat, addItem] at member
      rw [ofKey_concat]
      split at member
      next =>
        obtain ⟨⟨other, before⟩, old, changed⟩ := List.mem_map.mp member
        by_cases same : other = key item
        · rw [if_pos same] at changed
          obtain ⟨rfl, rfl⟩ := Prod.mk.inj changed
          rw [if_pos same.symm]
          exact next _ _ _ (ih old)
        · rw [if_neg same] at changed
          obtain ⟨rfl, rfl⟩ := Prod.mk.inj changed
          rw [if_neg (Ne.symm same)]
          exact ih old
      next new =>
        rcases List.mem_append.mp member with old | started
        · have differs : key item ≠ k := fun same => new (same ▸ List.mem_map_of_mem old)
          rw [if_neg differs]
          exact ih old
        · obtain ⟨rfl, rfl⟩ := Prod.mk.inj (List.mem_singleton.mp started)
          have none : ofKey key items (key item) = [] := by
            refine List.filter_eq_nil_iff.mpr fun other inside same => ?_
            exact new (mem_keys.mpr ⟨other, inside, of_decide_eq_true same⟩)
          rw [if_pos rfl, none]
          exact first item

end XWrt.Foundation.Grouping
