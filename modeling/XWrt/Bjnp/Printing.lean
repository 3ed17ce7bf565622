import XWrt.Bjnp.Iteration

/-!
# Every byte once

Whatever the order of events, what has been printed is the front of the job's
copies, and when the backend has ended without an error it is all of them. A
request to drain is answered when the copy at hand is printed.
-/

namespace XWrt.Bjnp

open XWrt.Foundation (Entry Transducer)

/-- What the copies amount to. -/
def wanted (job : List UInt8) (copies : ℕ) : List UInt8 := (List.replicate copies job).flatten

/-- Printed is what was wanted, less what is still to be printed. -/
inductive Printing (legible : Prop) (job : List UInt8) (copies : ℕ) (b : Backend) : Prop where
  | going {unprinted : List UInt8} (running : b.running = true) (same : b.job = job) (left : b.copies < copies)
      (going : Going legible job b.session unprinted)
      (text : b.printed ++ (unprinted ++ b.session.input) ++ wanted job b.copies = wanted job copies)
  | ended {unprinted : List UInt8} (halted : b.running = false) (left : Left b.session.line.toDevice unprinted)
      (finished : 0 ≤ b.tbytes → unprinted = [] ∧ b.session.input = [] ∧ b.copies = 0 ∧ (0 < copies → b.tbytes = job.length))
      (text : b.printed ++ (unprinted ++ b.session.input) ++ wanted job b.copies = wanted job copies)

section Runs

variable {legible : Prop} {job : List UInt8} {copies : ℕ} {b : Backend}

/-- What has been printed is the front of what was wanted. -/
theorem Printing.front (holds : Printing legible job copies b) : b.printed <+: wanted job copies := by
  cases holds with
  | going running same left going text => exact ⟨_, (List.append_assoc ..).symm.trans text⟩
  | ended halted left finished text => exact ⟨_, (List.append_assoc ..).symm.trans text⟩

/-- A backend that has ended without an error has left nothing behind. -/
theorem Printing.whole (holds : Printing legible job copies b) (halted : b.running = false) (fine : 0 ≤ b.tbytes) :
    b.printed = wanted job copies ∧ (0 < copies → b.tbytes = job.length) := by
  cases holds with
  | going running => exact absurd (running.symm.trans halted) (by decide)
  | ended _ left finished text =>
      obtain ⟨printed, ended, none, total⟩ := finished fine
      rw [printed, ended, none] at text
      exact ⟨by simpa [wanted] using text, total⟩

/-- The answer to a request to drain. -/
def drained : ScReply := ⟨.drainOutput, .ok, []⟩

/-- A request to drain is answered where the loop returns at the end of its file. -/
def DrainsAtEnd (progress : Progress) : Prop :=
  drained ∈ progress.replies → ∃ total, 0 ≤ total ∧ progress.exit = some total

theorem DrainsAtEnd.silent (s : Session) (exit : Option ℤ) : DrainsAtEnd ⟨s, [], exit⟩ := fun replied =>
  absurd replied List.not_mem_nil

theorem DrainsAtEnd.andThen {progress : Progress} {next : Session → Progress} (first : DrainsAtEnd progress)
    (later : ∀ s, DrainsAtEnd (next s)) : DrainsAtEnd (progress.andThen next) := by
  obtain ⟨s, replies, exit⟩ := progress
  cases exit with
  | some total => exact first
  | none =>
      intro replied
      rcases List.mem_append.mp replied with before | now
      · obtain ⟨_, _, none⟩ := first before
        cases none
      · exact later s now

end Runs

end XWrt.Bjnp
