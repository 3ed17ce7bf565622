import Mathlib.Data.List.Chain

/-!
# Transducers and their traces

A deterministic machine that emits a list of outputs at every step. A trace
keeps for each step the state before it, its input and what it emitted, so a
property of whole runs can speak about the past of every step. The rules below
carry an invariant over the runs whose steps all satisfy a side condition.
-/

namespace XWrt.Foundation

/-- A machine with states `σ`, inputs `ι` and outputs `ω`. -/
structure Transducer (σ ι ω : Type*) where
  step : σ → ι → σ × List ω

/-- One step of a run. -/
structure Entry (σ ι ω : Type*) where
  before : σ
  input : ι
  emitted : List ω
  after : σ

namespace Transducer

variable {σ ι ω : Type*} (machine : Transducer σ ι ω)

def entry (s : σ) (input : ι) : Entry σ ι ω :=
  ⟨s, input, (machine.step s input).2, (machine.step s input).1⟩

def final (s : σ) (inputs : List ι) : σ :=
  inputs.foldl (fun s input => (machine.step s input).1) s

def trace : σ → List ι → List (Entry σ ι ω)
  | _, [] => []
  | s, input :: rest => machine.entry s input :: trace (machine.step s input).1 rest

/-- Everything a run emits, in order. -/
def emitted (s : σ) (inputs : List ι) : List ω :=
  (machine.trace s inputs).flatMap Entry.emitted

/-- Every step of the run is taken in a state and on an input related by `ok`. -/
def AllSteps (ok : σ → ι → Prop) (s : σ) (inputs : List ι) : Prop :=
  ∀ e ∈ machine.trace s inputs, ok e.before e.input

@[simp]
theorem trace_nil (s : σ) : machine.trace s [] = [] := rfl

@[simp]
theorem trace_cons (s : σ) (input : ι) (rest : List ι) :
    machine.trace s (input :: rest) =
      machine.entry s input :: machine.trace (machine.step s input).1 rest := rfl

@[simp]
theorem final_nil (s : σ) : machine.final s [] = s := rfl

@[simp]
theorem final_cons (s : σ) (input : ι) (rest : List ι) :
    machine.final s (input :: rest) = machine.final (machine.step s input).1 rest := rfl

theorem final_append (s : σ) (first second : List ι) :
    machine.final s (first ++ second) = machine.final (machine.final s first) second :=
  List.foldl_append

theorem trace_append (s : σ) (first second : List ι) :
    machine.trace s (first ++ second) =
      machine.trace s first ++ machine.trace (machine.final s first) second := by
  induction first generalizing s with
  | nil => rfl
  | cons input rest ih => simp [ih]

@[simp]
theorem trace_length (s : σ) (inputs : List ι) :
    (machine.trace s inputs).length = inputs.length := by
  induction inputs generalizing s with
  | nil => rfl
  | cons input rest ih => simp [ih]

@[simp]
theorem map_input_trace (s : σ) (inputs : List ι) : (machine.trace s inputs).map Entry.input = inputs := by
  induction inputs generalizing s with
  | nil => rfl
  | cons input rest ih => simp [ih, entry]

@[simp]
theorem emitted_nil (s : σ) : machine.emitted s [] = [] := rfl

@[simp]
theorem emitted_cons (s : σ) (input : ι) (rest : List ι) :
    machine.emitted s (input :: rest) =
      (machine.step s input).2 ++ machine.emitted (machine.step s input).1 rest := rfl

@[simp]
theorem allSteps_nil (ok : σ → ι → Prop) (s : σ) : machine.AllSteps ok s [] := by
  simp [AllSteps]

@[simp]
theorem allSteps_cons (ok : σ → ι → Prop) (s : σ) (input : ι) (rest : List ι) :
    machine.AllSteps ok s (input :: rest) ↔
      ok s input ∧ machine.AllSteps ok (machine.step s input).1 rest := by
  simp [AllSteps, entry]

theorem allSteps_append (ok : σ → ι → Prop) (s : σ) (first second : List ι) :
    machine.AllSteps ok s (first ++ second) ↔
      machine.AllSteps ok s first ∧ machine.AllSteps ok (machine.final s first) second := by
  simp [AllSteps, trace_append, or_imp, forall_and]

theorem emitted_append (s : σ) (first second : List ι) :
    machine.emitted s (first ++ second) =
      machine.emitted s first ++ machine.emitted (machine.final s first) second := by
  simp [emitted, trace_append]

instance decidableAllSteps (ok : σ → ι → Prop) [∀ s input, Decidable (ok s input)] (s : σ) (inputs : List ι) :
    Decidable (machine.AllSteps ok s inputs) :=
  inferInstanceAs (Decidable (∀ e ∈ machine.trace s inputs, ok e.before e.input))

/-- Machines whose steps keep a relation and emit the same emit the same in every run. -/
theorem emitted_eq_of_related {τ : Type*} {other : Transducer τ ι ω} {related : σ → τ → Prop} {fair : ι → Prop}
    (step : ∀ s t input, related s t → fair input →
      (machine.step s input).2 = (other.step t input).2 ∧ related (machine.step s input).1 (other.step t input).1)
    {s : σ} {t : τ} (initially : related s t) {inputs : List ι} (all : ∀ input ∈ inputs, fair input) :
    machine.emitted s inputs = other.emitted t inputs := by
  induction inputs generalizing s t with
  | nil => rfl
  | cons input rest ih =>
    obtain ⟨now, later⟩ := List.forall_mem_cons.mp all
    obtain ⟨same, next⟩ := step s t input initially now
    rw [emitted_cons, emitted_cons, same, ih next later]

/-- A piece of a trace is the trace of a piece of the input. -/
theorem trace_eq_append (s : σ) (inputs : List ι) {earlier later : List (Entry σ ι ω)}
    (split : machine.trace s inputs = earlier ++ later) :
    ∃ first second, inputs = first ++ second ∧ earlier = machine.trace s first ∧
      later = machine.trace (machine.final s first) second := by
  refine ⟨inputs.take earlier.length, inputs.drop earlier.length,
    (List.take_append_drop _ _).symm, ?_⟩
  have whole := machine.trace_append s (inputs.take earlier.length) (inputs.drop earlier.length)
  rw [List.take_append_drop, split] at whole
  refine List.append_inj whole ?_
  have lengths := congrArg List.length split
  simp only [trace_length, List.length_append] at lengths
  rw [trace_length, List.length_take]
  omega

/-- An invariant that every permitted step keeps holds at the end of every
permitted run. -/
theorem final_invariant {ok : σ → ι → Prop} {inv : σ → Prop}
    (keeps : ∀ s input, inv s → ok s input → inv (machine.step s input).1)
    {s : σ} {inputs : List ι} (start : inv s) (steps : machine.AllSteps ok s inputs) :
    inv (machine.final s inputs) := by
  induction inputs generalizing s with
  | nil => exact start
  | cons input rest ih =>
      obtain ⟨here, later⟩ := (machine.allSteps_cons ok s input rest).mp steps
      exact ih (keeps s input start here) later

/-- What every step emits in a state with the invariant is emitted in every run. -/
theorem emitted_invariant {inv : σ → Prop} {good : ω → Prop}
    (keeps : ∀ s input, inv s → inv (machine.step s input).1)
    (emits : ∀ s input, inv s → ∀ output ∈ (machine.step s input).2, good output)
    {s : σ} (start : inv s) (inputs : List ι) : ∀ output ∈ machine.emitted s inputs, good output := by
  induction inputs generalizing s with
  | nil => simp
  | cons input rest ih =>
      intro output spoken
      rw [emitted_cons, List.mem_append] at spoken
      rcases spoken with now | later
      · exact emits s input start output now
      · exact ih (keeps s input start) output later

/-- The rule for a property of the whole past: `holds` relates the trace so far
to the state reached. -/
theorem history_invariant (ok : σ → ι → Prop) (holds : List (Entry σ ι ω) → σ → Prop) {s : σ}
    (start : holds [] s)
    (keeps : ∀ past now input, holds past now → ok now input →
      holds (past ++ [machine.entry now input]) (machine.step now input).1)
    (inputs : List ι) (steps : machine.AllSteps ok s inputs) :
    holds (machine.trace s inputs) (machine.final s inputs) := by
  induction inputs using List.reverseRecOn with
  | nil => exact start
  | append_singleton inputs input ih =>
      rw [allSteps_append, allSteps_cons] at steps
      rw [trace_append, final_append]
      exact keeps _ _ _ (ih steps.1) steps.2.1

/-- What holds at the end of a run has a source somewhere in it, if it had one at the start and no
step brings it about without. -/
theorem final_since {α : Type*} (fact source : σ → α → Prop)
    (comes : ∀ s input a, fact (machine.step s input).1 a → fact s a ∨ source s a) {s : σ}
    (start : ∀ a, fact s a → source s a) (inputs : List ι) {a : α} (holds : fact (machine.final s inputs) a) :
    ∃ first second, inputs = first ++ second ∧ source (machine.final s first) a := by
  induction inputs using List.reverseRecOn with
  | nil => exact ⟨[], [], rfl, start a holds⟩
  | append_singleton inputs input ih =>
      rw [final_append, final_cons, final_nil] at holds
      rcases comes _ input a holds with before | here
      · obtain ⟨first, second, split, found⟩ := ih before
        exact ⟨first, second ++ [input], by rw [split, List.append_assoc], found⟩
      · exact ⟨inputs, [input], rfl, here⟩

/-- Outputs that announce every change of a two-valued phase, and nothing else,
alternate. -/
theorem emitted_alternates {ok : σ → ι → Prop} {inv : σ → Prop} (phase : σ → Bool)
    (announces : ω → Bool)
    (keeps : ∀ s input, inv s → ok s input → inv (machine.step s input).1)
    (changes : ∀ s input, inv s → ok s input →
      (machine.step s input).2 = [] ∧ phase (machine.step s input).1 = phase s ∨
        ∃ output, (machine.step s input).2 = [output] ∧ announces output = !phase s ∧
          phase (machine.step s input).1 = !phase s)
    {s : σ} (start : inv s) (inputs : List ι) (steps : machine.AllSteps ok s inputs) :
    (machine.emitted s inputs).IsChain (fun first second => announces first ≠ announces second) ∧
      ∀ first ∈ (machine.emitted s inputs).head?, announces first = !phase s := by
  induction inputs generalizing s with
  | nil => simp
  | cons input rest ih =>
      obtain ⟨here, later⟩ := (machine.allSteps_cons ok s input rest).mp steps
      obtain ⟨chain, head⟩ := ih (keeps s input start here) later
      rw [emitted_cons]
      rcases changes s input start here with ⟨silent, same⟩ | ⟨output, spoken, announced, changed⟩
      · rw [silent, List.nil_append, ← same]
        exact ⟨chain, head⟩
      · rw [spoken, List.singleton_append]
        constructor
        · cases tail : machine.emitted (machine.step s input).1 rest with
          | nil => exact List.isChain_singleton output
          | cons next others =>
              rw [tail] at chain head
              have flipped : announces next = !!phase s := by
                rw [head next rfl, changed]
              refine List.isChain_cons_cons.mpr ⟨?_, chain⟩
              simp [announced, flipped]
        · simp [announced]

/-! ## Runs without end -/

/-- The state after the first inputs of a sequence. -/
def along (s : σ) (inputs : ℕ → ι) : ℕ → σ
  | 0 => s
  | n + 1 => (machine.step (along s inputs n) (inputs n)).1

@[simp]
theorem along_zero (s : σ) (inputs : ℕ → ι) : machine.along s inputs 0 = s := rfl

theorem along_succ (s : σ) (inputs : ℕ → ι) (n : ℕ) :
    machine.along s inputs (n + 1) = (machine.step (machine.along s inputs n) (inputs n)).1 := rfl

/-- What every permitted step keeps holds from any point of a permitted run on. -/
theorem along_invariant {ok : σ → ι → Prop} {inv : σ → Prop}
    (keeps : ∀ s input, inv s → ok s input → inv (machine.step s input).1) {s : σ} {inputs : ℕ → ι} {first : ℕ}
    (steps : ∀ n, first ≤ n → ok (machine.along s inputs n) (inputs n)) (start : inv (machine.along s inputs first))
    {n : ℕ} (later : first ≤ n) : inv (machine.along s inputs n) := by
  induction n, later using Nat.le_induction with
  | base => exact start
  | succ n later ih => exact keeps _ _ ih (steps n later)

/-- A run that starts with a list of inputs passes the end of the list. -/
theorem along_eq_final (s : σ) (inputs : ℕ → ι) (n : ℕ) :
    machine.along s inputs n = machine.final s ((List.range n).map inputs) := by
  induction n with
  | zero => rfl
  | succ n ih =>
      rw [along_succ, ih, List.range_succ, List.map_append, final_append]
      rfl

end Transducer

end XWrt.Foundation
