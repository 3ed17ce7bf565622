import Mathlib.Data.Nat.Find
import Mathlib.Logic.Function.Basic
import XWrt.Foundation.Transducer

/-!
# Interleaved processes

Processes with states of their own over a shared state. A turn belongs to one
process or to the surroundings. An annotation says of each process what holds
while it stands where it stands; it is kept by a run when a process's own turn
leads to its next annotation and no turn of another breaks it.
-/

namespace XWrt.Foundation

/-- A shared state and the processes. -/
structure Pool (σ κ : Type*) where
  shared : σ
  procs : ℕ → κ

/-- Who takes the turn, and what the surroundings choose for it. -/
inductive Turn (ι ε : Type*) where
  | run (pid : ℕ) (choice : ι)
  | outside (event : ε)

/-- The steps of a process and what happens outside of all processes. -/
structure Program (σ κ ι ε ω : Type*) where
  step : ℕ → ι → σ → κ → σ × κ × List ω
  outside : ε → σ → σ

namespace Program

variable {σ κ ι ε ω : Type*} (program : Program σ κ ι ε ω)

/-- All turns, in any order. -/
def system : Transducer (Pool σ κ) (Turn ι ε) ω where
  step pool
    | .run pid choice =>
        let (shared, proc, spoken) := program.step pid choice pool.shared (pool.procs pid)
        (⟨shared, Function.update pool.procs pid proc⟩, spoken)
    | .outside event => (⟨program.outside event pool.shared, pool.procs⟩, [])

/-- The shared invariant, and the annotation of every process. -/
structure Annotated (inv : σ → Prop) (note : ℕ → κ → σ → Prop) (pool : Pool σ κ) : Prop where
  shared : inv pool.shared
  procs : ∀ pid, note pid (pool.procs pid) pool.shared

/-- An annotation is kept by the turns that are permitted. -/
structure Keeps (ok : Pool σ κ → Turn ι ε → Prop) (inv : σ → Prop) (note : ℕ → κ → σ → Prop) : Prop where
  own : ∀ pool pid choice, Annotated inv note pool → ok pool (.run pid choice) →
    inv (program.step pid choice pool.shared (pool.procs pid)).1 ∧
      note pid (program.step pid choice pool.shared (pool.procs pid)).2.1
        (program.step pid choice pool.shared (pool.procs pid)).1
  others : ∀ pool pid choice, Annotated inv note pool → ok pool (.run pid choice) →
    ∀ other, other ≠ pid →
      note other (pool.procs other) (program.step pid choice pool.shared (pool.procs pid)).1
  outside : ∀ pool event, Annotated inv note pool → ok pool (.outside event) →
    inv (program.outside event pool.shared) ∧
      ∀ pid, note pid (pool.procs pid) (program.outside event pool.shared)

variable {program} {ok : Pool σ κ → Turn ι ε → Prop} {inv : σ → Prop} {note : ℕ → κ → σ → Prop}

theorem Keeps.step (keeps : program.Keeps ok inv note) {pool : Pool σ κ} {turn : Turn ι ε}
    (annotated : Annotated inv note pool) (permitted : ok pool turn) :
    Annotated inv note (program.system.step pool turn).1 := by
  cases turn with
  | run pid choice =>
      obtain ⟨shared, own⟩ := keeps.own pool pid choice annotated permitted
      refine ⟨shared, fun other => ?_⟩
      show note other (Function.update pool.procs pid _ other) _
      by_cases same : other = pid
      · rw [same, Function.update_self]
        exact own
      · rw [Function.update_of_ne same]
        exact keeps.others pool pid choice annotated permitted other same
  | outside event =>
      obtain ⟨shared, procs⟩ := keeps.outside pool event annotated permitted
      exact ⟨shared, procs⟩

theorem Keeps.final (keeps : program.Keeps ok inv note) {pool : Pool σ κ} {turns : List (Turn ι ε)}
    (annotated : Annotated inv note pool) (permitted : program.system.AllSteps ok pool turns) :
    Annotated inv note (program.system.final pool turns) :=
  program.system.final_invariant (fun _ _ annotated permitted => keeps.step annotated permitted) annotated
    permitted

/-! ## What becomes of a process -/

section Along

variable {start : Pool σ κ} {turns : ℕ → Turn ι ε}

/-- A process changes in its own turns only. -/
theorem procs_step_of_ne {pool : Pool σ κ} {turn : Turn ι ε} {pid : ℕ} (other : ∀ choice, turn ≠ .run pid choice) :
    (program.system.step pool turn).1.procs pid = pool.procs pid := by
  cases turn with
  | outside event => rfl
  | run runner choice =>
      refine Function.update_of_ne ?_ _ _
      rintro rfl
      exact other choice rfl

variable (program start turns) in
/-- Where the process stands after the first turns of a sequence. -/
def proc (pid n : ℕ) : κ := (program.system.along start turns n).procs pid

theorem proc_succ_of_ne {pid n : ℕ} (other : ∀ choice, turns n ≠ .run pid choice) :
    program.proc start turns pid (n + 1) = program.proc start turns pid n := procs_step_of_ne other

theorem proc_succ_of_run {pid n : ℕ} {choice : ι} (turn : turns n = .run pid choice) :
    program.proc start turns pid (n + 1) =
      (program.step pid choice (program.system.along start turns n).shared (program.proc start turns pid n)).2.1 := by
  rw [proc, Transducer.along_succ, turn]
  exact Function.update_self ..

theorem proc_waits {pid n m : ℕ} (later : n ≤ m) (idle : ∀ k, n ≤ k → k < m → ∀ choice, turns k ≠ .run pid choice) :
    program.proc start turns pid m = program.proc start turns pid n := by
  induction m, later using Nat.le_induction with
  | base => rfl
  | succ m later ih =>
      rw [proc_succ_of_ne (idle m later (Nat.lt_succ_self m))]
      exact ih fun k after before => idle k after (Nat.lt_succ_of_lt before)

/-- What a process comes to be, it comes to be in one of its own turns. -/
theorem exists_change {p : κ → Prop} {pid n m : ℕ} (later : n ≤ m) (before : ¬p (program.proc start turns pid n))
    (after : p (program.proc start turns pid m)) :
    ∃ l choice, n ≤ l ∧ l < m ∧ turns l = .run pid choice ∧ ¬p (program.proc start turns pid l) ∧
      p (program.proc start turns pid (l + 1)) := by
  induction m, later using Nat.le_induction with
  | base => exact absurd after before
  | succ m later ih =>
      by_cases already : p (program.proc start turns pid m)
      · obtain ⟨l, choice, from_n, below, change⟩ := ih already
        exact ⟨l, choice, from_n, Nat.lt_succ_of_lt below, change⟩
      · by_cases own : ∃ choice, turns m = .run pid choice
        · obtain ⟨choice, turn⟩ := own
          exact ⟨m, choice, later, Nat.lt_succ_self m, turn, already, after⟩
        · rw [proc_succ_of_ne fun choice turn => own ⟨choice, turn⟩] at after
          exact absurd after already

/-- A measure that no turn of a process lowers does not fall. -/
theorem proc_mono {μ : Type*} [Preorder μ] (measure : κ → μ)
    (rises : ∀ pid choice shared proc, measure proc ≤ measure (program.step pid choice shared proc).2.1) (pid : ℕ) {n m : ℕ}
    (later : n ≤ m) : measure (program.proc start turns pid n) ≤ measure (program.proc start turns pid m) := by
  induction m, later using Nat.le_induction with
  | base => exact le_rfl
  | succ m later ih =>
      refine ih.trans ?_
      by_cases own : ∃ choice, turns m = .run pid choice
      · obtain ⟨choice, turn⟩ := own
        rw [proc_succ_of_run turn]
        exact rises pid choice _ _
      · rw [proc_succ_of_ne fun choice turn => own ⟨choice, turn⟩]

/-- A process that gets turns again and again comes to rest, if rest lasts and each turn before
it takes the process further down. -/
theorem eventually_rests {μ : Type*} [LT μ] [WellFoundedLT μ] (measure : κ → μ) {rest : κ → Prop} {pid : ℕ} (first : ℕ)
    (fair : ∀ n, ∃ m, n ≤ m ∧ ∃ choice, turns m = .run pid choice)
    (lasts : ∀ n, first ≤ n → ∀ choice, turns n = .run pid choice → rest (program.proc start turns pid n) →
      rest (program.proc start turns pid (n + 1)))
    (descends : ∀ n, first ≤ n → ∀ choice, turns n = .run pid choice → ¬rest (program.proc start turns pid n) →
      measure (program.proc start turns pid (n + 1)) < measure (program.proc start turns pid n)) :
    ∃ last, ∀ n, last ≤ n → rest (program.proc start turns pid n) := by
  have reaches : ∀ value n, first ≤ n → measure (program.proc start turns pid n) = value →
      ∃ last, first ≤ last ∧ rest (program.proc start turns pid last) := by
    intro value
    induction value using WellFoundedLT.induction with
    | ind value ih =>
        intro n begun here
        by_cases resting : rest (program.proc start turns pid n)
        · exact ⟨n, begun, resting⟩
        classical
        have next := fair n
        obtain ⟨later, choice, turn⟩ := Nat.find_spec next
        have same : program.proc start turns pid (Nat.find next) = program.proc start turns pid n :=
          proc_waits later fun k after before choice turn => Nat.find_min next before ⟨after, choice, turn⟩
        have lower := descends _ (begun.trans later) choice turn (by rwa [same])
        rw [same, here] at lower
        exact ih _ lower _ (begun.trans (later.trans (Nat.le_succ _))) rfl
  obtain ⟨last, begun, resting⟩ := reaches _ first le_rfl rfl
  refine ⟨last, fun n later => ?_⟩
  induction n, later using Nat.le_induction with
  | base => exact resting
  | succ n later ih =>
      by_cases own : ∃ choice, turns n = .run pid choice
      · obtain ⟨choice, turn⟩ := own
        exact lasts n (begun.trans later) choice turn ih
      · rw [proc_succ_of_ne fun choice turn => own ⟨choice, turn⟩]
        exact ih

end Along

end Program

/-! ## A unit that is in one place -/

/-- One unit in all, in a common store or with one of the processes. -/
def Single (common : ℕ) (own : ℕ → ℕ) : Prop :=
  (common = 1 ∧ ∀ pid, own pid = 0) ∨ (common = 0 ∧ ∃ pid, own pid = 1 ∧ ∀ other, other ≠ pid → own other = 0)

/-- An exchange between the store and one process. -/
theorem Single.exchange {common common' : ℕ} {own own' : ℕ → ℕ} (single : Single common own) (pid : ℕ)
    (kept : common' + own' pid = common + own pid) (others : ∀ other, other ≠ pid → own' other = own other) :
    Single common' own' := by
  have settle : common + own pid = 1 → (∀ other, other ≠ pid → own other = 0) → Single common' own' := by
    intro whole empty
    have elsewhere : ∀ other, other ≠ pid → own' other = 0 := fun other apart => by rw [others other apart, empty other apart]
    rw [← kept] at whole
    rcases Nat.add_eq_one_iff.mp whole with ⟨none, held⟩ | ⟨stored, none⟩
    · exact .inr ⟨none, pid, held, elsewhere⟩
    · refine .inl ⟨stored, fun other => ?_⟩
      by_cases same : other = pid
      · rw [same, none]
      · exact elsewhere other same
  rcases single with ⟨stored, empty⟩ | ⟨none, holder, held, empty⟩
  · exact settle (by rw [stored, empty]) fun other _ => empty other
  · by_cases same : holder = pid
    · subst same
      exact settle (by rw [none, held]) empty
    · have absent : own pid = 0 := empty pid (Ne.symm same)
      rw [none, absent, Nat.add_zero, Nat.add_eq_zero_iff] at kept
      refine .inr ⟨kept.1, holder, (others holder same).trans held, fun other apart => ?_⟩
      by_cases here : other = pid
      · rw [here, kept.2]
      · rw [others other here, empty other apart]

end XWrt.Foundation
