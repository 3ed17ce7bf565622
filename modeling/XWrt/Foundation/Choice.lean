import Mathlib.Data.List.Perm.Basic

/-!
# Choosing from left to right

A loop that keeps the best item so far and replaces it by an item that is
preferred to it. The preference is any test; nothing is assumed of it, so the
survivor need not be a best item. It is one when some item that nothing is
preferred to is itself preferred to every item that is not like it.
-/

namespace XWrt.Foundation.Choice

variable {α : Type*} (prefer : α → α → Bool)

/-- The item that is left of `first` and `items`. -/
def survivor (first : α) (items : List α) : α := items.foldl (fun best item => if prefer item best then item else best) first

/-- Nothing in the list is preferred to the item. -/
def Unbeaten (items : List α) (best : α) : Prop := ∀ item ∈ items, prefer item best = false

variable {prefer} {first : α} {items : List α}

theorem survivor_cons (item : α) :
    survivor prefer first (item :: items) = survivor prefer (if prefer item first then item else first) items :=
  rfl

theorem survivor_append (more : List α) :
    survivor prefer first (items ++ more) = survivor prefer (survivor prefer first items) more :=
  List.foldl_append

theorem survivor_mem : survivor prefer first items ∈ first :: items := by
  induction items generalizing first with
  | nil => exact List.mem_cons_self
  | cons item items ih =>
      rw [survivor_cons]
      rcases List.mem_cons.mp (@ih (if prefer item first then item else first)) with here | later
      · rw [here]
        split
        · exact List.mem_cons_of_mem _ List.mem_cons_self
        · exact List.mem_cons_self
      · exact List.mem_cons_of_mem _ (List.mem_cons_of_mem _ later)

/-- An item that nothing is preferred to stays. -/
theorem survivor_of_unbeaten (unbeaten : Unbeaten prefer items first) : survivor prefer first items = first := by
  induction items with
  | nil => rfl
  | cons item items ih =>
      obtain ⟨here, others⟩ := List.forall_mem_cons.mp unbeaten
      rw [survivor_cons, here]
      exact ih others

/-- Where every item is preferred to the first one, one of them is left. -/
theorem survivor_mem_of_preferred (some : items ≠ []) (preferred : ∀ item ∈ items, prefer item first = true) :
    survivor prefer first items ∈ items := by
  obtain ⟨item, items, rfl⟩ := List.exists_cons_of_ne_nil some
  rw [survivor_cons, preferred item List.mem_cons_self]
  exact survivor_mem

/-- A set of items that the loop does not leave. -/
theorem survivor_stays {good : α → Prop} (start : good first)
    (stay : ∀ item ∈ items, ∀ best, good best → prefer item best = true → good item) : good (survivor prefer first items) := by
  induction items generalizing first with
  | nil => exact start
  | cons item items ih =>
      obtain ⟨here, others⟩ := List.forall_mem_cons.mp stay
      rw [survivor_cons]
      apply ih _ others
      split
      next preferred => exact here first start preferred
      next => exact start

/-- An item from which on the best one is in such a set. -/
theorem survivor_enters {good : α → Prop} {key : α} (inside : key ∈ first :: items) (here : good key)
    (enter : ∀ best ∈ first :: items, prefer key best = false → good best)
    (stay : ∀ item ∈ items, ∀ best, good best → prefer item best = true → good item) : good (survivor prefer first items) := by
  induction items generalizing first with
  | nil =>
      obtain rfl := List.mem_singleton.mp inside
      exact here
  | cons item items ih =>
      rcases List.mem_cons.mp inside with rfl | later
      · exact survivor_stays here stay
      · rw [survivor_cons]
        rcases List.mem_cons.mp later with rfl | later
        · apply survivor_stays _ (List.forall_mem_cons.mp stay).2
          split
          next => exact here
          next kept => exact enter first List.mem_cons_self (Bool.eq_false_iff.mpr kept)
        · apply ih (List.mem_cons_of_mem _ later) _ (List.forall_mem_cons.mp stay).2
          intro best among
          rcases List.mem_cons.mp among with rfl | among
          · split
            · exact enter item (List.mem_cons_of_mem _ List.mem_cons_self)
            · exact enter first List.mem_cons_self
          · exact enter best (List.mem_cons_of_mem _ (List.mem_cons_of_mem _ among))

/-- An unbeaten item that is preferred to every beaten one makes the survivor unbeaten. -/
theorem survivor_undominated {all : List α} (same : ∀ item, item ∈ all ↔ item ∈ first :: items) {key : α} (inside : key ∈ all)
    (unbeaten : Unbeaten prefer all key) (beats : ∀ best ∈ all, prefer key best = false → Unbeaten prefer all best) :
    Unbeaten prefer all (survivor prefer first items) := by
  apply survivor_enters ((same key).mp inside) unbeaten
  · exact fun best among => beats best ((same best).mpr among)
  · intro item among best good preferred
    have kept := good item ((same item).mpr (List.mem_cons_of_mem _ among))
    rw [kept] at preferred
    cases preferred

end XWrt.Foundation.Choice
