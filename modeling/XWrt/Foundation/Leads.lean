import XWrt.Foundation.Transducer

/-!
# What can still be reached

A state leads to a goal when some permitted inputs take it there. The goal is
then reached step by step, by an induction over what is left to do.
-/

namespace XWrt.Foundation.Transducer

variable {σ ι ω : Type*} (machine : Transducer σ ι ω)

/-- Some permitted inputs lead from the state to the goal. -/
def Leads (ok : σ → ι → Prop) (goal : σ → Prop) (s : σ) : Prop :=
  ∃ inputs, machine.AllSteps ok s inputs ∧ goal (machine.final s inputs)

variable {machine} {ok : σ → ι → Prop} {goal middle : σ → Prop} {s : σ}

theorem Leads.here (reached : goal s) : machine.Leads ok goal s := ⟨[], by simp, reached⟩

theorem Leads.step (input : ι) (permitted : ok s input) (later : machine.Leads ok goal (machine.step s input).1) :
    machine.Leads ok goal s := by
  obtain ⟨inputs, steps, reached⟩ := later
  exact ⟨input :: inputs, (machine.allSteps_cons ok s input inputs).mpr ⟨permitted, steps⟩, reached⟩

end XWrt.Foundation.Transducer
