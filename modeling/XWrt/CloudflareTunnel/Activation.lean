import XWrt.Foundation.Wp
import XWrt.CloudflareTunnel.Data

/-!
# Starting the connector

`activate` of `runtime.lua`: the token file, the flag in the configuration and
the two calls of the init script, each of which can fail. Only an exit code of
the init script is answered by putting the token back, and nothing puts the
flag back; a failed activation leaves the connector as it was exactly where
what is not undone had no effect.
-/

namespace XWrt.CloudflareTunnel.Runtime

open Foundation

/-- The token file and the saved flag; `none` where there is none. -/
structure Connector where
  token : Option String
  enabled : Option String
  deriving DecidableEq, Repr

/-- What becomes of a call of `write`. -/
inductive WriteOutcome
  | notOpened
  | notWritten
  | notRenamed
  | renamed
  deriving DecidableEq, Repr

/-- What becomes of a call of `execute`: it raises without a temporary file or a process. -/
inductive Execution
  | noFile
  | noProcess
  | exited (code : ℕ)
  deriving DecidableEq, Repr

/-- What becomes of the steps of one activation. -/
structure Steps where
  written : WriteOutcome
  committed : Bool
  enable : Execution
  restart : Execution
  restored : WriteOutcome
  unlinked : Bool
  deriving DecidableEq, Repr

abbrev Activation := EStateM Failure Connector

/-- `write` of the token file -/
def write (outcome : WriteOutcome) (data : String) : Activation Unit :=
  match outcome with
  | .notOpened => throw ⟨.storage, "Cannot write the router configuration."⟩
  | .notWritten => throw ⟨.storage, "Cannot save the router configuration."⟩
  | .notRenamed => throw ⟨.storage, "Cannot save the router configuration."⟩
  | .renamed => modify fun connector => { connector with token := some data }

/-- `update_config({ enabled = value })` -/
def updateConfig (committed : Bool) (value : String) : Activation Unit :=
  if committed then modify fun connector => { connector with enabled := some value }
  else throw ⟨.storage, "Cannot commit the router configuration."⟩

/-- The exit code that `execute` returns. -/
def execute : Execution → Activation ℕ
  | .noFile => throw ⟨.storage, "Cannot allocate a temporary request file."⟩
  | .noProcess => throw ⟨.process, "Cannot start a helper process."⟩
  | .exited code => pure code

/-- `fs.unlink` of the token file, whose result is not looked at -/
def unlink (unlinked : Bool) : Activation Unit :=
  modify fun connector => if unlinked then { connector with token := none } else connector

/-- The token file is written as it was, or removed. -/
def putBack (steps : Steps) : Option String → Activation Unit
  | some previous => write steps.restored previous
  | none => unlink steps.unlinked

/-- `activate` -/
def activate (steps : Steps) (token : String) : Activation Unit := do
  let previous := (← get).token
  write steps.written (token ++ "\n")
  updateConfig steps.committed "1"
  let enableCode ← execute steps.enable
  let restartCode ← execute steps.restart
  if enableCode ≠ 0 ∨ restartCode ≠ 0 then
    putBack steps previous
    throw ⟨.service, "Cannot start the Cloudflare Tunnel service."⟩

/-! ## What a step leaves -/

section Rules

variable {before connector : Connector}

/-- The step fails and changes nothing, or it has its effect. -/
theorem wp_write {outcome : WriteOutcome} {data : String} {done : Unit → Connector → Prop} :
    wp (write outcome data) done (fun _ after => after = before) connector ↔
      (outcome ≠ .renamed ∧ connector = before) ∨
        (outcome = .renamed ∧ done () { connector with token := some data }) := by
  cases outcome <;> simp [write]

theorem wp_updateConfig {committed : Bool} {value : String} {done : Unit → Connector → Prop} :
    wp (updateConfig committed value) done (fun _ after => after = before) connector ↔
      (committed = false ∧ connector = before) ∨
        (committed = true ∧ done () { connector with enabled := some value }) := by
  cases committed <;> simp [updateConfig]

theorem wp_execute {execution : Execution} {done : ℕ → Connector → Prop} :
    wp (execute execution) done (fun _ after => after = before) connector ↔
      ((∀ code, execution ≠ .exited code) ∧ connector = before) ∨
        ∃ code, execution = .exited code ∧ done code connector := by
  cases execution <;> simp [execute]

end Rules

/-! ## A failed activation -/

/-- The two calls of the init script returned, and the token was put back or removed. -/
def RolledBack (steps : Steps) (before : Connector) : Prop :=
  (∃ code, steps.enable = .exited code) ∧ (∃ code, steps.restart = .exited code) ∧
    if before.token = none then steps.unlinked = true else steps.restored = .renamed

/-- Nothing failed. -/
def Completed (steps : Steps) : Prop :=
  steps.written = .renamed ∧ steps.committed = true ∧ steps.enable = .exited 0 ∧ steps.restart = .exited 0

/-- The write failed; or nothing did; or the commit failed over the same token; or the flag was set
before, and the token was the same or was put back. -/
def Undone (steps : Steps) (token : String) (before : Connector) : Prop :=
  steps.written ≠ .renamed ∨ Completed steps ∨
    (steps.committed = false ∧ before.token = some (token ++ "\n")) ∨
    (steps.committed = true ∧ before.enabled = some "1" ∧
      (before.token = some (token ++ "\n") ∨ RolledBack steps before))

/-- Putting the token back changes nothing else, and succeeds or leaves the token as it is. -/
theorem wp_putBack {steps : Steps} {before connector : Connector} :
    wp (putBack steps before.token) (fun _ after => after = before) (fun _ after => after = before) connector ↔
      connector.enabled = before.enabled ∧ (connector.token = before.token ∨
        if before.token = none then steps.unlinked = true else steps.restored = .renamed) := by
  obtain ⟨old, flag⟩ := before
  obtain ⟨token, enabled⟩ := connector
  cases old with
  | some data =>
      rw [putBack, wp_write]
      simp only [Connector.mk.injEq, reduceCtorEq, if_false]
      tauto
  | none =>
      rw [putBack, unlink, wp_modify]
      cases steps.unlinked <;> simp [and_comm]

/-- After both calls of the init script. -/
theorem wp_codes {steps : Steps} {enableCode restartCode : ℕ} {before connector : Connector} :
    wp (if enableCode ≠ 0 ∨ restartCode ≠ 0 then do
          putBack steps before.token
          throw ⟨.service, "Cannot start the Cloudflare Tunnel service."⟩
        else pure () : Activation Unit) (fun _ _ => True) (fun _ after => after = before) connector ↔
      (enableCode = 0 ∧ restartCode = 0) ∨
        connector.enabled = before.enabled ∧ (connector.token = before.token ∨
          if before.token = none then steps.unlinked = true else steps.restored = .renamed) := by
  by_cases fine : enableCode = 0 ∧ restartCode = 0
  · simp [fine]
  · rw [if_pos (by tauto), or_iff_right fine, wp_bind]
    exact wp_putBack

theorem activate_undone_iff (steps : Steps) (token : String) (before : Connector) :
    (∀ failure after, activate steps token before = .error failure after → after = before) ↔
      Undone steps token before := by
  have failing : wp (activate steps token) (fun _ _ => True) (fun _ after => after = before) before ↔
      ∀ failure after, activate steps token before = .error failure after → after = before := wp_failing_iff
  rw [← failing]
  unfold activate
  rw [wp_bind, wp_get, wp_bind, wp_write]
  simp only [wp_bind, wp_updateConfig, wp_execute, wp_codes]
  obtain ⟨written, committed, enable, restart, restored, unlinked⟩ := steps
  obtain ⟨old, flag⟩ := before
  simp only [Undone, Completed, RolledBack, Connector.mk.injEq, eq_comm (a := some "1"), eq_comm (a := some (token ++ "\n"))]
  by_cases saved : written = .renamed
  · cases committed with
    | false => simp [saved]
    | true =>
        cases enable with
        | noFile => simp [saved, and_comm]
        | noProcess => simp [saved, and_comm]
        | exited enableCode =>
            cases restart with
            | noFile => simp [saved, and_comm]
            | noProcess => simp [saved, and_comm]
            | exited restartCode => simp [saved]
  · simp [saved]

/-- A service that does not start stays enabled. -/
theorem activate_leaves_traces :
    ¬∀ steps token before failure after, activate steps token before = .error failure after → after = before := by
  intro undone
  have refused := undone ⟨.renamed, true, .exited 0, .exited 1, .renamed, true⟩ "new" ⟨some "old\n", some "0"⟩ _ _ rfl
  exact absurd refused (by decide)

end XWrt.CloudflareTunnel.Runtime
