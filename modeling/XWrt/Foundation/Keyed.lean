import Mathlib.Data.List.Basic

/-!
# Lists with keys

A value is put in the place of the one with its key, or at the end, and removed
with its key. The rest of the list keeps its order.
-/

namespace XWrt.Foundation.Keyed

variable {κ β : Type*} [DecidableEq κ]

/-- The value in the place of the one with the key, or at the end. -/
def put (key : κ) (value : β) : List (κ × β) → List (κ × β)
  | [] => [(key, value)]
  | (first, old) :: rest => if first = key then (key, value) :: rest else (first, old) :: put key value rest

/-- Nothing with the key. -/
def remove (key : κ) (list : List (κ × β)) : List (κ × β) := list.filter (·.1 ≠ key)

theorem lookup_cons_of_ne {key first : κ} (other : first ≠ key) (old : β) (rest : List (κ × β)) :
    ((first, old) :: rest).lookup key = rest.lookup key := by
  rw [List.lookup_cons, beq_eq_false_iff_ne.mpr (Ne.symm other)]

omit [DecidableEq κ] in
theorem mem_of_lookup [BEq κ] [LawfulBEq κ] {key : κ} {value : β} {list : List (κ × β)} (found : list.lookup key = some value) : (key, value) ∈ list := by
  obtain ⟨front, rest, split, -⟩ := List.lookup_eq_some_iff.mp found
  exact split ▸ List.mem_append_right front List.mem_cons_self

section Put

variable (key : κ) (value : β) (list : List (κ × β))

@[simp]
theorem lookup_put_self : (put key value list).lookup key = some value := by
  induction list with
  | nil => simp [put]
  | cons entry rest ih =>
      obtain ⟨first, old⟩ := entry
      rw [put]
      split
      next => exact List.lookup_cons_self
      next other => rw [lookup_cons_of_ne other, ih]

variable {key} in
theorem lookup_put_of_ne {other : κ} (apart : other ≠ key) : (put key value list).lookup other = list.lookup other := by
  induction list with
  | nil => exact lookup_cons_of_ne apart.symm value []
  | cons entry rest ih =>
      obtain ⟨first, old⟩ := entry
      rw [put]
      split
      next same =>
        rw [lookup_cons_of_ne apart.symm, lookup_cons_of_ne (same.trans_ne apart.symm)]
      next => rw [List.lookup_cons, List.lookup_cons, ih]

@[simp]
theorem put_put (later : β) : put key later (put key value list) = put key later list := by
  induction list with
  | nil => simp [put]
  | cons entry rest ih =>
      obtain ⟨first, old⟩ := entry
      simp only [put]
      split
      next => rw [put, if_pos rfl]
      next other => rw [put, if_neg other, ih]

variable {key value list}

theorem put_of_lookup (here : list.lookup key = some value) : put key value list = list := by
  induction list with
  | nil => cases here
  | cons entry rest ih =>
      obtain ⟨first, old⟩ := entry
      rw [put]
      split
      next same =>
        rw [same, List.lookup_cons_self, Option.some.injEq] at here
        rw [same, here]
      next other =>
        rw [lookup_cons_of_ne other] at here
        rw [ih here]

/-- What is in the list is what was put there, or was there. -/
theorem mem_put {entry : κ × β} (member : entry ∈ put key value list) : entry = (key, value) ∨ entry ∈ list := by
  induction list with
  | nil => exact .inl (List.mem_singleton.mp member)
  | cons head rest ih =>
      obtain ⟨first, old⟩ := head
      rw [put] at member
      split at member
      next =>
        rcases List.mem_cons.mp member with here | later
        · exact .inl here
        · exact .inr (List.mem_cons_of_mem _ later)
      next =>
        rcases List.mem_cons.mp member with here | later
        · exact .inr (here ▸ List.mem_cons_self)
        · exact (ih later).imp_right (List.mem_cons_of_mem _)

/-- A new key comes last. -/
theorem put_of_missing (missing : list.lookup key = none) : put key value list = list ++ [(key, value)] := by
  induction list with
  | nil => rfl
  | cons entry rest ih =>
      obtain ⟨first, old⟩ := entry
      have other : first ≠ key := by
        rintro rfl
        rw [List.lookup_cons_self] at missing
        cases missing
      rw [lookup_cons_of_ne other] at missing
      rw [put, if_neg other, ih missing, List.cons_append]

theorem lookup_concat_of_missing (missing : list.lookup key = none) : (list ++ [(key, value)]).lookup key = some value := by
  rw [← put_of_missing missing, lookup_put_self]

theorem lookup_concat_of_ne {other : κ} (missing : list.lookup other = none) (apart : other ≠ key) : (list ++ [(key, value)]).lookup other = none := by
  rw [List.lookup_append, missing, Option.none_or, lookup_cons_of_ne apart.symm]
  rfl

theorem map_fst_put : (put key value list).map Prod.fst = if key ∈ list.map Prod.fst then list.map Prod.fst else list.map Prod.fst ++ [key] := by
  induction list with
  | nil => rfl
  | cons entry rest ih =>
      obtain ⟨first, old⟩ := entry
      rw [put, List.map_cons]
      split
      next same => rw [if_pos (same ▸ List.mem_cons_self), List.map_cons, same]
      next other =>
        rw [List.map_cons, ih]
        simp only [List.mem_cons, Ne.symm other, false_or]
        split
        · rfl
        · rfl

/-- Keys stay different. -/
theorem nodup_put (distinct : (list.map Prod.fst).Nodup) : ((put key value list).map Prod.fst).Nodup := by
  rw [map_fst_put]
  split
  next => exact distinct
  next new =>
    refine List.nodup_append.mpr ⟨distinct, List.pairwise_singleton _ key, fun first inside second last => ?_⟩
    rw [List.mem_singleton.mp last]
    exact ne_of_mem_of_not_mem inside new

/-- What is selected by keys without this one. -/
theorem filter_put {selects : κ → Bool} (outside : selects key = false) :
    (put key value list).filter (fun entry => selects entry.1) = list.filter fun entry => selects entry.1 := by
  induction list with
  | nil => simp [put, outside]
  | cons entry rest ih =>
      obtain ⟨first, old⟩ := entry
      rw [put]
      split
      next same => rw [List.filter_cons_of_neg (by simp [outside]), List.filter_cons_of_neg (by simp [same, outside])]
      next => rw [List.filter_cons, List.filter_cons, ih]

end Put

section Remove

variable (key : κ) (list : List (κ × β))

@[simp]
theorem lookup_remove_self : (remove key list).lookup key = none := by
  rw [List.lookup_eq_none_iff]
  intro entry member
  have other := (List.mem_filter.mp member).2
  simpa using Ne.symm (of_decide_eq_true other)

variable {key} in
theorem lookup_remove_of_ne {other : κ} (apart : other ≠ key) : (remove key list).lookup other = list.lookup other := by
  induction list with
  | nil => rfl
  | cons entry rest ih =>
      obtain ⟨first, old⟩ := entry
      by_cases same : first = key
      · rw [remove, List.filter_cons_of_neg (by simp [same]), lookup_cons_of_ne (same.trans_ne apart.symm)]
        exact ih
      · rw [remove, List.filter_cons_of_pos (by simp [same]), List.lookup_cons, List.lookup_cons]
        rw [remove] at ih
        rw [ih]

variable {key} in
theorem filter_remove {selects : κ → Bool} (outside : selects key = false) :
    (remove key list).filter (fun entry => selects entry.1) = list.filter fun entry => selects entry.1 := by
  rw [remove, List.filter_filter]
  refine List.filter_congr fun entry _ => ?_
  by_cases same : entry.1 = key
  · simp [same, outside]
  · simp [same]

variable {key list} in
theorem remove_of_lookup (missing : list.lookup key = none) : remove key list = list := by
  rw [remove, List.filter_eq_self]
  intro entry member
  rw [List.lookup_eq_none_iff] at missing
  have other := missing entry member
  simpa using fun same : entry.1 = key => by simp [same] at other

@[simp]
theorem remove_remove : remove key (remove key list) = remove key list := remove_of_lookup (lookup_remove_self key list)

@[simp]
theorem remove_put (value : β) : remove key (put key value list) = remove key list :=
  @filter_put _ _ _ key value list (fun other => decide (other ≠ key)) (decide_eq_false (not_not.mpr rfl))

end Remove

theorem lookup_eq_none_iff {key : κ} {list : List (κ × β)} : list.lookup key = none ↔ key ∉ list.map Prod.fst := by
  rw [List.lookup_eq_none_iff, List.mem_map, not_exists]
  refine forall_congr' fun entry => ?_
  rw [not_and, bne_iff_ne, ne_comm]

theorem lookup_filter_none {key : κ} {list : List (κ × β)} (missing : list.lookup key = none) (selects : κ × β → Bool) :
    (list.filter selects).lookup key = none := by
  rw [lookup_eq_none_iff] at missing ⊢
  exact fun member => missing ((List.filter_sublist.map Prod.fst).subset member)

/-- Under the selected keys nothing changes. -/
theorem lookup_filter_key {selects : κ → Bool} {key : κ} (selected : selects key = true) (list : List (κ × β)) :
    (list.filter fun entry => selects entry.1).lookup key = list.lookup key := by
  induction list with
  | nil => rfl
  | cons entry rest ih =>
      obtain ⟨first, value⟩ := entry
      by_cases same : first = key
      · subst same
        rw [List.filter_cons, if_pos selected, List.lookup_cons_self, List.lookup_cons_self]
      · rw [List.filter_cons, lookup_cons_of_ne same]
        split
        · rw [lookup_cons_of_ne same, ih]
        · exact ih

theorem lookup_filter_key_none {selects : κ → Bool} {key : κ} (other : selects key = false) (list : List (κ × β)) :
    (list.filter fun entry => selects entry.1).lookup key = none := by
  rw [lookup_eq_none_iff]
  intro member
  obtain ⟨entry, inside, same⟩ := List.mem_map.mp member
  exact ne_true_of_eq_false other (same ▸ (List.mem_filter.mp inside).2)

/-- A value that is found is still found when it is selected. -/
theorem lookup_filter {list : List (κ × β)} (distinct : (list.map Prod.fst).Nodup) (selects : β → Bool) (key : κ) :
    (list.filter fun entry => selects entry.2).lookup key = (list.lookup key).filter selects := by
  induction list with
  | nil => rfl
  | cons entry rest ih =>
      obtain ⟨first, value⟩ := entry
      rw [List.map_cons, List.nodup_cons] at distinct
      have later := ih distinct.2
      by_cases same : first = key
      · subst same
        rw [lookup_eq_none_iff.mpr distinct.1, Option.filter_none] at later
        rw [List.lookup_cons_self, List.filter_cons, Option.filter_some]
        split
        · exact List.lookup_cons_self
        · exact later
      · rw [lookup_cons_of_ne same, List.filter_cons]
        split
        · rw [lookup_cons_of_ne same, later]
        · exact later

end XWrt.Foundation.Keyed
