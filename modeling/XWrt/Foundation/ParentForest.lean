import Mathlib.Data.List.Basic
import Mathlib.Logic.Relation
import Mathlib.Logic.Function.Basic
import Mathlib.Order.Nat

/-!
# Forests given by parents

A partial function `up` gives the parent of a point. A point has a depth when
its chain of parents comes to the root. Hanging a point directly below the root
keeps every point that had a depth attached to the root. Among points that have
a depth, being an ancestor is a strict order.
-/

namespace XWrt.Foundation

variable {α : Type*}

/-- Following parents from a point comes to the root for the first time after
`n` steps. -/
inductive Depth (up : α → Option α) (root : α) : α → ℕ → Prop where
  | root : Depth up root root 0
  | step {a b : α} {n : ℕ} (apart : a ≠ root) (parent : up a = some b)
      (depth : Depth up root b n) : Depth up root a (n + 1)

/-- Following parents from a point comes to the root. -/
def Attached (up : α → Option α) (root a : α) : Prop := ∃ n, Depth up root a n

namespace Depth

variable {up : α → Option α} {root a b : α} {n m : ℕ}

theorem unique (first : Depth up root a n) (second : Depth up root a m) : n = m := by
  induction first generalizing m with
  | root =>
      cases second with
      | root => rfl
      | step apart _ _ => exact absurd rfl apart
  | step apart parent _ ih =>
      cases second with
      | root => exact absurd rfl apart
      | step _ parent' depth =>
          rw [parent] at parent'
          cases parent'
          rw [ih depth]

theorem eq_root (depth : Depth up root a 0) : a = root := by
  cases depth
  rfl

theorem succ_parent (depth : Depth up root a (n + 1)) :
    a ≠ root ∧ ∃ b, up a = some b ∧ Depth up root b n := by
  cases depth with
  | step apart parent depth => exact ⟨apart, _, parent, depth⟩

theorem attached (depth : Depth up root a n) : Attached up root a := ⟨n, depth⟩

end Depth

/-- The points a walk has left behind when it is `n` steps below the root. -/
def Behind (up : α → Option α) (root : α) (n : ℕ) (visited : List α) : Prop :=
  ∀ v ∈ visited, ∃ m, n < m ∧ Depth up root v m

namespace Behind

variable {up : α → Option α} {root a : α} {n : ℕ} {visited : List α}

theorem nil : Behind up root n [] := fun _ member => absurd member List.not_mem_nil

/-- A walk to the root never comes back to a point it has left. -/
theorem notMem (behind : Behind up root n visited) (depth : Depth up root a n) : a ∉ visited := by
  intro seen
  obtain ⟨m, deeper, depthM⟩ := behind a seen
  exact deeper.ne (depth.unique depthM)

theorem cons (behind : Behind up root (n + 1) visited) (depth : Depth up root a (n + 1)) :
    Behind up root n (a :: visited) := by
  intro v seen
  rcases List.mem_cons.mp seen with rfl | earlier
  · exact ⟨n + 1, Nat.lt_succ_self n, depth⟩
  · obtain ⟨m, deeper, depthM⟩ := behind v earlier
    exact ⟨m, (Nat.lt_succ_self n).trans deeper, depthM⟩

end Behind

theorem attached_root (up : α → Option α) (root : α) : Attached up root root := ⟨0, .root⟩

theorem Attached.below {up : α → Option α} {root a b : α} (apart : a ≠ root)
    (parent : up a = some b) (attached : Attached up root b) : Attached up root a := by
  obtain ⟨n, depth⟩ := attached
  exact ⟨n + 1, .step apart parent depth⟩

theorem Attached.parent {up : α → Option α} {root a : α} (attached : Attached up root a)
    (apart : a ≠ root) : ∃ b, up a = some b ∧ Attached up root b := by
  obtain ⟨n, depth⟩ := attached
  cases depth with
  | root => exact absurd rfl apart
  | step _ parent depth => exact ⟨_, parent, depth.attached⟩

section Redirect

variable [DecidableEq α] {up : α → Option α} {root x : α}

/-- A point hung below the root is attached. -/
theorem attached_redirect_self (apart : x ≠ root) :
    Attached (Function.update up x (some root)) root x :=
  .below apart (Function.update_self x (some root) up) (attached_root _ root)

/-- Hanging a point below the root detaches nothing. -/
theorem Attached.redirect {a : α} (apart : x ≠ root) (attached : Attached up root a) :
    Attached (Function.update up x (some root)) root a := by
  obtain ⟨n, depth⟩ := attached
  induction depth with
  | root => exact attached_root _ root
  | @step a b n apartA parent _ ih =>
      by_cases moved : a = x
      · rw [moved]
        exact attached_redirect_self apart
      · refine ih.below apartA ?_
        rw [Function.update_of_ne moved]
        exact parent

end Redirect

section Ancestors

variable {up : α → Option α} {root a b c : α}

/-- `a` is a proper ancestor of `b`. -/
def Ancestor (up : α → Option α) (a b : α) : Prop :=
  Relation.TransGen (fun parent child => up child = some parent) a b

theorem Ancestor.of_parent (parent : up b = some a) : Ancestor up a b := .single parent

theorem Ancestor.trans (upper : Ancestor up a b) (lower : Ancestor up b c) : Ancestor up a c :=
  Relation.TransGen.trans upper lower

/-- What has an ancestor has a parent. -/
theorem Ancestor.exists_parent (ancestor : Ancestor up a b) : ∃ parent, up b = some parent := by
  cases ancestor with
  | single direct => exact ⟨_, direct⟩
  | tail _ direct => exact ⟨_, direct⟩

/-- A proper ancestor is the parent or an ancestor of the parent. -/
theorem Ancestor.parent_or (ancestor : Ancestor up a c) (parent : up c = some b) :
    a = b ∨ Ancestor up a b := by
  cases ancestor with
  | single direct => exact Or.inl (Option.some.inj (direct.symm.trans parent))
  | tail upper direct =>
      obtain rfl := Option.some.inj (direct.symm.trans parent)
      exact Or.inr upper

/-- An ancestor is less deep. -/
theorem Ancestor.depth_lt (ancestor : Ancestor up a b) (top : up root = none) {n : ℕ}
    (depth : Depth up root b n) : ∃ m < n, Depth up root a m := by
  have parent : ∀ {b c : α} {n : ℕ}, up c = some b → Depth up root c n →
      ∃ m < n, Depth up root b m := by
    intro b c n direct deep
    cases deep with
    | root => rw [top] at direct; cases direct
    | step _ direct' deep =>
        obtain rfl := Option.some.inj (direct.symm.trans direct')
        exact ⟨_, Nat.lt_succ_self _, deep⟩
  induction ancestor generalizing n with
  | single direct => exact parent direct depth
  | tail _ direct ih =>
      obtain ⟨m, shallow, deep⟩ := parent direct depth
      obtain ⟨k, shallower, deeper⟩ := ih deep
      exact ⟨k, shallower.trans shallow, deeper⟩

theorem Attached.not_ancestor_self (attached : Attached up root a) (top : up root = none) :
    ¬Ancestor up a a := by
  intro cycle
  obtain ⟨n, depth⟩ := attached
  obtain ⟨m, shallow, depth'⟩ := cycle.depth_lt top depth
  exact shallow.ne (depth'.unique depth)

theorem Ancestor.not_descendant (ancestor : Ancestor up a b) (top : up root = none)
    (attached : Attached up root a) : ¬Ancestor up b a :=
  fun descendant => attached.not_ancestor_self top (ancestor.trans descendant)

theorem Ancestor.not_sibling (ancestor : Ancestor up a b) (top : up root = none)
    (attached : Attached up root a) : up a ≠ up b := by
  intro sibling
  obtain ⟨parent, isParent⟩ := ancestor.exists_parent
  have below := Ancestor.of_parent (sibling.trans isParent)
  rcases ancestor.parent_or isParent with rfl | above
  · exact attached.not_ancestor_self top below
  · exact above.not_descendant top attached below

/-- What is above a point on a cycle is below it too. -/
theorem Ancestor.back (above : Ancestor up a b) (cycle : Ancestor up b b) : Ancestor up b a := by
  induction above with
  | single direct =>
      rcases cycle.parent_or direct with rfl | upper
      · exact cycle
      · exact upper
  | @tail m c upper direct ih =>
      rcases cycle.parent_or direct with rfl | there
      · exact ih cycle
      · exact there.trans (ih ((Ancestor.of_parent direct).trans there))

theorem attached_iff : Attached up root a ↔ a = root ∨ Ancestor up root a := by
  constructor
  · rintro ⟨n, depth⟩
    induction depth with
    | root => exact .inl rfl
    | step apart parent _ ih =>
        rcases ih with rfl | above
        · exact .inr (.of_parent parent)
        · exact .inr (above.trans (.of_parent parent))
  · rintro (rfl | above)
    · exact attached_root up a
    · induction above with
      | @single b direct =>
          by_cases isRoot : b = root
          · exact isRoot ▸ attached_root up b
          · exact (attached_root up root).below isRoot direct
      | @tail m b _ direct ih =>
          by_cases isRoot : b = root
          · exact isRoot ▸ attached_root up b
          · exact ih.below isRoot direct

end Ancestors

section Agree

variable {up up' : α → Option α} {root a : α} {changed : α → Prop}

/-- Where parents have changed at attached points only, a point is attached exactly when its old chain meets the root or
one of these points. -/
theorem attached_iff_of_agree (agree : ∀ b, ¬changed b → up' b = up b) (attached : ∀ b, changed b → Attached up' root b) :
    Attached up' root a ↔ Attached up root a ∨ ∃ b, changed b ∧ (a = b ∨ Ancestor up b a) := by
  constructor
  · rintro ⟨n, depth⟩
    induction depth with
    | root => exact .inl (attached_root up root)
    | @step a b n apart parent _ ih =>
        by_cases moved : changed a
        · exact .inr ⟨a, moved, .inl rfl⟩
        · rw [agree a moved] at parent
          rcases ih with old | ⟨c, met, rfl | above⟩
          · exact .inl (old.below apart parent)
          · exact .inr ⟨b, met, .inr (.of_parent parent)⟩
          · exact .inr ⟨c, met, .inr (above.trans (.of_parent parent))⟩
  · have descend : ∀ {b c : α}, up c = some b → Attached up' root b → Attached up' root c := by
      intro b c parent above
      by_cases moved : changed c
      · exact attached c moved
      · by_cases isRoot : c = root
        · exact isRoot ▸ attached_root up' c
        · exact above.below isRoot ((agree c moved).trans parent)
    have chain : ∀ {b}, Attached up' root b → Ancestor up b a → Attached up' root a := by
      intro b start above
      induction above with
      | single direct => exact descend direct start
      | tail _ direct ih => exact descend direct ih
    rintro (old | ⟨b, moved, rfl | above⟩)
    · rcases attached_iff.mp old with rfl | above
      · exact attached_root up' a
      · exact chain (attached_root up' root) above
    · exact attached a moved
    · exact chain (attached b moved) above

end Agree

/-- The depths of finitely many attached points are bounded. -/
theorem exists_depth_bound {up : α → Option α} {root : α} (points : List α)
    (attached : ∀ a ∈ points, Attached up root a) :
    ∃ bound, ∀ a ∈ points, ∃ n ≤ bound, Depth up root a n := by
  induction points with
  | nil => exact ⟨0, by simp⟩
  | cons first rest ih =>
      rw [List.forall_mem_cons] at attached
      obtain ⟨n, depth⟩ := attached.1
      obtain ⟨bound, bounded⟩ := ih attached.2
      refine ⟨max n bound, List.forall_mem_cons.mpr ⟨?_, ?_⟩⟩
      · exact ⟨n, le_max_left n bound, depth⟩
      · intro a member
        obtain ⟨k, small, deep⟩ := bounded a member
        exact ⟨k, small.trans (le_max_right n bound), deep⟩

end XWrt.Foundation
