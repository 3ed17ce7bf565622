import Mathlib.Data.List.Basic

/-!
# Programs that keep their state when they fail

A program with state that can raise an error is an `EStateM`: the state it
reached is kept whether it returns or fails. `wp` is its weakest precondition
for one postcondition on returning and one on failing; there is one rule for
each way of building a program, and one for a fold over a list.
-/

namespace XWrt.Foundation

universe u

variable {ε σ α β : Type u}

/-- The states from which the program returns into `done` or fails into `failed`. -/
def wp (program : EStateM ε σ α) (done : α → σ → Prop) (failed : ε → σ → Prop) (s : σ) : Prop :=
  match program s with
  | .ok value s' => done value s'
  | .error err s' => failed err s'

variable {program : EStateM ε σ α} {rest : α → EStateM ε σ β} {s : σ}
variable {done done' : α → σ → Prop} {failed failed' : ε → σ → Prop}

@[simp]
theorem wp_pure (value : α) : wp (pure value) done failed s ↔ done value s := Iff.rfl

@[simp]
theorem wp_throw (err : ε) : wp (throw err : EStateM ε σ α) done failed s ↔ failed err s := Iff.rfl

@[simp]
theorem wp_get {done : σ → σ → Prop} : wp (get : EStateM ε σ σ) done failed s ↔ done s s := Iff.rfl

@[simp]
theorem wp_set {done : PUnit → σ → Prop} (s' : σ) :
    wp (set s' : EStateM ε σ PUnit) done failed s ↔ done ⟨⟩ s' := Iff.rfl

@[simp]
theorem wp_modify {done : PUnit → σ → Prop} (f : σ → σ) :
    wp (modify f : EStateM ε σ PUnit) done failed s ↔ done ⟨⟩ (f s) := Iff.rfl

@[simp]
theorem wp_bind {done : β → σ → Prop} :
    wp (program >>= rest) done failed s ↔
      wp program (fun value s' => wp (rest value) done failed s') failed s := by
  simp only [wp, bind, EStateM.bind]
  cases program s <;> rfl

@[simp]
theorem wp_tryCatch (handler : ε → EStateM ε σ α) :
    wp (tryCatch program handler) done failed s ↔
      wp program done (fun err s' => wp (handler err) done failed s') s := by
  simp only [wp, tryCatch, tryCatchThe, MonadExceptOf.tryCatch, EStateM.tryCatch]
  cases program s <;> rfl

theorem wp_mono (holds : wp program done failed s)
    (returning : ∀ value s', done value s' → done' value s')
    (failing : ∀ err s', failed err s' → failed' err s') : wp program done' failed' s := by
  unfold wp at holds ⊢
  cases outcome : program s with
  | ok value s' =>
      rw [outcome] at holds
      exact returning value s' holds
  | error err s' =>
      rw [outcome] at holds
      exact failing err s' holds

/-- A program has one outcome, so two postconditions hold together. -/
theorem wp_and (first : wp program done failed s) (second : wp program done' failed' s) :
    wp program (fun value s' => done value s' ∧ done' value s') (fun err s' => failed err s' ∧ failed' err s') s := by
  unfold wp at first second ⊢
  cases outcome : program s with
  | ok value s' =>
      rw [outcome] at first second
      exact ⟨first, second⟩
  | error err s' =>
      rw [outcome] at first second
      exact ⟨first, second⟩

/-- A program followed by what it leads to. -/
theorem wp_seq {after : β → σ → Prop} (first : wp program done failed s)
    (second : ∀ value s', done value s' → wp (rest value) after failed' s')
    (failing : ∀ err s', failed err s' → failed' err s') : wp (program >>= rest) after failed' s :=
  wp_bind.mpr (wp_mono first second failing)

theorem wp_done {value : α} {s' : σ} (holds : wp program done failed s)
    (returns : program s = .ok value s') : done value s' := by
  simpa only [wp, returns] using holds

theorem wp_failed {err : ε} {s' : σ} (holds : wp program done failed s)
    (raises : program s = .error err s') : failed err s' := by
  simpa only [wp, raises] using holds

theorem wp_failing_iff :
    wp program (fun _ _ => True) failed s ↔ ∀ err s', program s = .error err s' → failed err s' := by
  unfold wp
  cases program s <;> simp

/-- A fold keeps what every step keeps. -/
theorem wp_foldlM {body : β → α → EStateM ε σ β} {values : List α} (keeps : β → σ → Prop)
    (step : ∀ acc value s, value ∈ values → keeps acc s → wp (body acc value) keeps failed s)
    {acc : β} (start : keeps acc s) : wp (values.foldlM body acc) keeps failed s := by
  induction values generalizing acc s with
  | nil => exact start
  | cons value values ih =>
      rw [List.foldlM_cons]
      refine wp_seq (step acc value s List.mem_cons_self start) (fun acc' s' kept => ?_) fun _ _ fails => fails
      exact ih (fun acc v s inside => step acc v s (List.mem_cons_of_mem _ inside)) kept

/-- A fold, by what holds while some of the values are left. -/
theorem wp_foldlM_rest {body : β → α → EStateM ε σ β} {values : List α} (keeps : List α → β → σ → Prop)
    (step : ∀ value rest acc s, keeps (value :: rest) acc s → wp (body acc value) (keeps rest) failed s)
    {acc : β} (start : keeps values acc s) : wp (values.foldlM body acc) (keeps []) failed s := by
  induction values generalizing acc s with
  | nil => exact start
  | cons value values ih =>
      rw [List.foldlM_cons]
      exact wp_seq (step value values acc s start) (fun _ _ kept => ih kept) fun _ _ fails => fails

/-- The state a run ends in, whether it returns or fails. -/
def finalState (program : EStateM ε σ α) (s : σ) : σ :=
  match program s with
  | .ok _ s' => s'
  | .error _ s' => s'

/-- The error a run ends with. -/
def raised? (program : EStateM ε σ α) (s : σ) : Option ε :=
  match program s with
  | .ok _ _ => none
  | .error err _ => some err

theorem eq_error_of_raised? {err : ε} (raises : raised? program s = some err) :
    program s = .error err (finalState program s) := by
  unfold raised? at raises
  unfold finalState
  cases outcome : program s with
  | ok value s' => simp [outcome] at raises
  | error err' s' =>
      simp only [outcome, Option.some.injEq] at raises
      rw [raises]

theorem eq_ok_of_raised? (returns : raised? program s = none) :
    ∃ value, program s = .ok value (finalState program s) := by
  unfold raised? at returns
  unfold finalState
  cases outcome : program s with
  | ok value s' => exact ⟨value, rfl⟩
  | error err s' => simp [outcome] at returns

theorem finalState_of_wp {holdsAt : σ → Prop}
    (holds : wp program (fun _ s' => holdsAt s') (fun _ s' => holdsAt s') s) :
    holdsAt (finalState program s) := by
  unfold wp at holds
  unfold finalState
  cases outcome : program s <;> simpa only [outcome] using holds

end XWrt.Foundation
