import Mathlib.Logic.Function.Basic
import Mathlib.Data.List.Nodup

/-!
# Turns over cells, some of which sweep all cells

Cells take a turn each, one after the other. A turn changes its own cell only,
but a cell that refuses what it finds has all the cells swept first. Sweeping
twice is sweeping once, so a run leaves a cell swept exactly if some cell refused.
-/

namespace XWrt.Foundation.SweepRun

variable {κ σ : Type*} [DecidableEq κ] (sweep turn : κ → σ → σ) (refuses : κ → σ → Bool)

def sweepAll (s : κ → σ) : κ → σ := fun k => sweep k (s k)

/-- The turn of a cell. -/
def step (s : κ → σ) (k : κ) : κ → σ :=
  Function.update (if refuses k (s k) then sweepAll sweep s else s) k (turn k (s k))

def run (cells : List κ) (s : κ → σ) : κ → σ := cells.foldl (step sweep turn refuses) s

/-- Some cell refuses what it has at the start. -/
def Refusal (cells : List κ) (s : κ → σ) : Prop := ∃ k ∈ cells, refuses k (s k) = true

instance (cells : List κ) (s : κ → σ) : Decidable (Refusal refuses cells s) :=
  inferInstanceAs (Decidable (∃ k ∈ cells, refuses k (s k) = true))

/-- What a cell holds when the turns of the others are over. -/
def asOf (cells : List κ) (s : κ → σ) (k : κ) : σ := if Refusal refuses cells s then sweep k (s k) else s k

section Laws

variable {sweep turn : κ → σ → σ} {refuses : κ → σ → Bool} {cells : List κ} {s : κ → σ} {k : κ}

theorem step_other {j : κ} (other : j ≠ k) :
    step sweep turn refuses s k j = if refuses k (s k) then sweep j (s j) else s j := by
  rw [step, Function.update_of_ne other]
  split <;> rfl

theorem step_self : step sweep turn refuses s k k = turn k (s k) := Function.update_self ..

theorem run_cons : run sweep turn refuses (k :: cells) s = run sweep turn refuses cells (step sweep turn refuses s k) := rfl

theorem run_append (front back : List κ) :
    run sweep turn refuses (front ++ back) s = run sweep turn refuses back (run sweep turn refuses front s) :=
  List.foldl_append

omit [DecidableEq κ] in
theorem refusal_cons : Refusal refuses (k :: cells) s ↔ refuses k (s k) = true ∨ Refusal refuses cells s := by
  simp only [Refusal, List.mem_cons, or_and_right, exists_or, exists_eq_left]

omit [DecidableEq κ] in
theorem asOf_calm (calm : ¬Refusal refuses cells s) : asOf sweep refuses cells s k = s k := if_neg calm

omit [DecidableEq κ] in
theorem asOf_swept (refused : Refusal refuses cells s) : asOf sweep refuses cells s k = sweep k (s k) := if_pos refused

omit [DecidableEq κ] in
/-- The first cell that refuses is behind a cell if it is neither that cell nor before it. -/
theorem refused_later {before after : List κ} (refused : Refusal refuses (before ++ k :: after) s)
    (calm : ¬Refusal refuses before s) (accepts : ¬refuses k (s k) = true) :
    ∃ j ∈ after, refuses j (asOf sweep refuses (before ++ [k]) s j) = true := by
  obtain ⟨j, member, refusal⟩ := refused
  have still : ¬Refusal refuses (before ++ [k]) s := by
    rintro ⟨i, inside, refusal⟩
    rcases List.mem_append.mp inside with inside | inside
    · exact calm ⟨i, inside, refusal⟩
    · exact accepts (List.mem_singleton.mp inside ▸ refusal)
  rcases List.mem_append.mp member with inside | inside
  · exact absurd ⟨j, inside, refusal⟩ calm
  · rcases List.mem_cons.mp inside with rfl | inside
    · exact absurd refusal accepts
    · exact ⟨j, inside, by rwa [asOf_calm still]⟩

/-- A cell without a turn of its own is swept if some cell refuses. -/
theorem run_outside (idem : ∀ k a, sweep k (sweep k a) = sweep k a) (nodup : cells.Nodup) (outside : k ∉ cells) :
    run sweep turn refuses cells s k = asOf sweep refuses cells s k := by
  induction cells generalizing s with
  | nil => rfl
  | cons c cells ih =>
      obtain ⟨fresh, nodup⟩ := List.nodup_cons.mp nodup
      obtain ⟨apart, outside⟩ := not_or.mp (List.mem_cons.not.mp outside)
      rw [run_cons, ih nodup outside, asOf, asOf, step_other apart]
      by_cases refused : refuses c (s c) = true
      · rw [if_pos refused, idem, ite_self, if_pos (refusal_cons.mpr (Or.inl refused))]
      · rw [if_neg refused]
        have same : Refusal refuses cells (step sweep turn refuses s c) ↔ Refusal refuses (c :: cells) s := by
          rw [refusal_cons, or_iff_right refused]
          refine exists_congr fun j => and_congr_right fun member => ?_
          rw [step_other (ne_of_mem_of_not_mem member fresh), if_neg refused]
        simp only [same]

/-- A cell has its turn on what the earlier turns left, and is swept if a later cell refuses. -/
theorem run_cell (idem : ∀ k a, sweep k (sweep k a) = sweep k a) {before after : List κ}
    (nodup : (before ++ k :: after).Nodup) :
    run sweep turn refuses (before ++ k :: after) s k =
      if ∃ j ∈ after, refuses j (asOf sweep refuses (before ++ [k]) s j) = true then
        sweep k (turn k (asOf sweep refuses before s k))
      else turn k (asOf sweep refuses before s k) := by
  have parts := List.nodup_append.mp nodup
  obtain ⟨behind, afterNodup⟩ := List.nodup_cons.mp parts.2.1
  have ahead : k ∉ before := fun member => parts.2.2 k member k List.mem_cons_self rfl
  have turned : step sweep turn refuses (run sweep turn refuses before s) k k =
      turn k (asOf sweep refuses before s k) := by
    rw [step_self, run_outside idem parts.1 ahead]
  have others : ∀ j ∈ after, step sweep turn refuses (run sweep turn refuses before s) k j =
      asOf sweep refuses (before ++ [k]) s j := by
    intro j member
    have front : (before ++ [k]).Nodup := by
      refine nodup.sublist ((List.Sublist.refl before).append ?_)
      exact List.singleton_sublist.mpr List.mem_cons_self
    have outside : j ∉ before ++ [k] := by
      intro inside
      rcases List.mem_append.mp inside with inside | inside
      · exact parts.2.2 j inside j (List.mem_cons_of_mem k member) rfl
      · exact behind (List.mem_singleton.mp inside ▸ member)
    exact (congrFun (run_append before [k]) j).symm.trans (run_outside idem front outside)
  rw [run_append, run_cons, run_outside idem afterNodup behind, asOf, turned]
  have later : Refusal refuses after (step sweep turn refuses (run sweep turn refuses before s) k) ↔
      ∃ j ∈ after, refuses j (asOf sweep refuses (before ++ [k]) s j) = true :=
    exists_congr fun j => and_congr_right fun member => by rw [others j member]
  simp only [later]

/-- Where no cell refuses, each one has its own turn and nothing else. -/
theorem run_calm (idem : ∀ k a, sweep k (sweep k a) = sweep k a) {before after : List κ}
    (nodup : (before ++ k :: after).Nodup) (calm : ¬Refusal refuses (before ++ k :: after) s) :
    run sweep turn refuses (before ++ k :: after) s k = turn k (s k) := by
  have part : ∀ cells : List κ, cells ⊆ before ++ k :: after → ¬Refusal refuses cells s :=
    fun cells inside ⟨j, member, refusal⟩ => calm ⟨j, inside member, refusal⟩
  have front := part (before ++ [k]) (by simp)
  rw [run_cell idem nodup, asOf_calm (part before (by simp)), if_neg]
  rintro ⟨j, member, refusal⟩
  rw [asOf_calm front] at refusal
  exact part after (by simp) ⟨j, member, refusal⟩

end Laws

end XWrt.Foundation.SweepRun
