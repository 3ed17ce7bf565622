import Mathlib.Logic.Function.Basic

/-!
# Tables of rule chains

Named chains of rules, and updates that are applied as a whole or line by line.
What holds of all rules of a table is kept by an update that writes only such
rules.
-/

namespace XWrt.Foundation

/-! ## What an update keeps -/

section Update

variable {σ α : Type*} {run : σ → α → Option σ} {good : σ → Prop} {update : List α} {state : σ}

/-- What each line keeps, all lines keep. -/
theorem foldlM_keeps (keeps : ∀ line ∈ update, ∀ before after, good before → run before line = some after → good after)
    (start : good state) {result : σ} (ran : update.foldlM run state = some result) : good result := by
  induction update generalizing state with
  | nil =>
      obtain rfl := Option.some.inj ran
      exact start
  | cons first rest ih =>
      rw [List.foldlM_cons] at ran
      obtain ⟨next, step, later⟩ := Option.bind_eq_some_iff.mp ran
      rw [List.forall_mem_cons] at keeps
      exact ih keeps.2 (keeps.1 _ _ start step) later

/-- An update that is applied as a whole or not at all. -/
theorem getD_foldlM_keeps
    (keeps : ∀ line ∈ update, ∀ before after, good before → run before line = some after → good after)
    (start : good state) : good ((update.foldlM run state).getD state) := by
  cases ran : update.foldlM run state with
  | none => exact start
  | some result => exact foldlM_keeps keeps start ran

/-- An update whose lines are applied one by one. -/
theorem foldl_getD_keeps
    (keeps : ∀ line ∈ update, ∀ before after, good before → run before line = some after → good after)
    (start : good state) : good (update.foldl (fun state line => (run state line).getD state) state) := by
  induction update generalizing state with
  | nil => exact start
  | cons first rest ih =>
      rw [List.forall_mem_cons] at keeps
      have next : good ((run state first).getD state) := by
        cases ran : run state first with
        | none => exact start
        | some next => exact keeps.1 _ _ start ran
      exact ih keeps.2 next

end Update

/-! ## Tables and commands -/

/-- The chains of a table. -/
abbrev ChainTable (κ ρ : Type*) := κ → Option (List ρ)

/-- A line of an update. -/
inductive ChainCommand (κ ρ : Type*) where
  | new (chain : κ)
  | flush (chain : κ)
  | append (chain : κ) (rule : ρ)
  | insert (chain : κ) (rule : ρ)

variable {κ ρ : Type*}

namespace ChainCommand

/-- A rule that the command writes is good. -/
def Writes (good : ρ → Prop) : ChainCommand κ ρ → Prop
  | new _ => True
  | flush _ => True
  | append _ rule => good rule
  | insert _ rule => good rule

variable [DecidableEq κ]

def run (table : ChainTable κ ρ) : ChainCommand κ ρ → Option (ChainTable κ ρ)
  | new chain => if (table chain).isSome then none else some (Function.update table chain (some []))
  | flush chain => (table chain).map fun _ => Function.update table chain (some [])
  | append chain rule =>
      (table chain).map fun rules => Function.update table chain (some (rules ++ [rule]))
  | insert chain rule =>
      (table chain).map fun rules => Function.update table chain (some (rule :: rules))

end ChainCommand

namespace ChainTable

/-- All rules of all chains are good. -/
def Every (good : ρ → Prop) (table : ChainTable κ ρ) : Prop :=
  ∀ chain, ∀ rules ∈ table chain, ∀ rule ∈ rules, good rule

/-- The commands that write a chain where it is missing. -/
def writeMissing (table : ChainTable κ ρ) (chain : κ) (rules : List ρ) : List (ChainCommand κ ρ) :=
  if (table chain).isSome then [] else .new chain :: rules.map (.append chain)

theorem writeMissing_writes {good : ρ → Prop} (table : ChainTable κ ρ) (chain : κ) {rules : List ρ}
    (every : ∀ rule ∈ rules, good rule) :
    ∀ command ∈ table.writeMissing chain rules, command.Writes good := by
  unfold writeMissing
  split
  · exact List.forall_mem_nil _
  · exact List.forall_mem_cons.mpr ⟨trivial, List.forall_mem_map.mpr every⟩

variable [DecidableEq κ]

/-- All lines of an update or, where one fails, none. -/
def restore (table : ChainTable κ ρ) (update : List (ChainCommand κ ρ)) : ChainTable κ ρ :=
  (update.foldlM ChainCommand.run table).getD table

/-- The lines of an update one by one, without those that fail. -/
def each (table : ChainTable κ ρ) (update : List (ChainCommand κ ρ)) : ChainTable κ ρ :=
  update.foldl (fun table command => (command.run table).getD table) table

namespace Every

variable {good : ρ → Prop} {table : ChainTable κ ρ}

theorem update (every : Every good table) (chain : κ) {rules : List ρ}
    (written : ∀ rule ∈ rules, good rule) : Every good (Function.update table chain (some rules)) := by
  intro other rules' found
  by_cases same : other = chain
  · subst same
    rw [Function.update_self] at found
    obtain rfl := Option.some.inj found
    exact written
  · rw [Function.update_of_ne same] at found
    exact every other rules' found

theorem run (every : Every good table) {command : ChainCommand κ ρ} (writes : command.Writes good)
    {table' : ChainTable κ ρ} (ran : command.run table = some table') : Every good table' := by
  have added : ∀ chain, ∀ rules ∈ table chain, ∀ (rule : ρ) (rules' : List ρ),
      good rule → (∀ other ∈ rules', other = rule ∨ other ∈ rules) → ∀ other ∈ rules', good other := by
    intro chain rules present rule rules' own split other member
    rcases split other member with rfl | old
    · exact own
    · exact every chain rules present other old
  cases command with
  | new chain =>
      simp only [ChainCommand.run, Option.ite_none_left_eq_some] at ran
      obtain rfl := Option.some.inj ran.2
      exact every.update chain (fun _ member => nomatch member)
  | flush chain =>
      obtain ⟨_, _, rfl⟩ := Option.map_eq_some_iff.mp ran
      exact every.update chain (fun _ member => nomatch member)
  | append chain rule =>
      obtain ⟨rules, present, rfl⟩ := Option.map_eq_some_iff.mp ran
      refine every.update chain (added chain rules present rule _ writes ?_)
      intro other member
      exact (List.mem_append.mp member).symm.imp_left List.mem_singleton.mp
  | insert chain rule =>
      obtain ⟨rules, present, rfl⟩ := Option.map_eq_some_iff.mp ran
      exact every.update chain (added chain rules present rule _ writes fun other => List.mem_cons.mp)

theorem restore (every : Every good table) {commands : List (ChainCommand κ ρ)}
    (writes : ∀ command ∈ commands, command.Writes good) : Every good (table.restore commands) := by
  apply getD_foldlM_keeps _ every
  intro command member before after every ran
  exact Every.run every (writes command member) ran

theorem each (every : Every good table) {commands : List (ChainCommand κ ρ)}
    (writes : ∀ command ∈ commands, command.Writes good) : Every good (table.each commands) := by
  apply foldl_getD_keeps _ every
  intro command member before after every ran
  exact Every.run every (writes command member) ran

end Every

/-! ## Chains that are there -/

section Present

variable {table : ChainTable κ ρ} {chain : κ}

end Present

end ChainTable

end XWrt.Foundation
