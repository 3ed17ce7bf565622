import XWrt.Bjnp.Connection

/-!
# Iterations of the loop

What each part of an iteration, and a whole one, makes of a loop whose data,
connection and file are in order. The data that is not printed yet, with what is
left in the file, stays the same text.
-/

namespace XWrt.Bjnp

/-- A loop that goes on. -/
structure Going (legible : Prop) (job : List UInt8) (s : Session) (unprinted : List UInt8) : Prop where
  wire : Wire legible s.line.printer s.loop.printData s.line.toDevice s.line.fromDevice unprinted
  small : s.loop.printData.length ≤ BJNP_PRINTBUF_MAX
  counted : s.loop.totalBytes + s.loop.printData.length + s.input.length = job.length
  awaited : s.loop.ackPending = true → s.line.printer.ioFree = false

/-- A loop that has come to the end of its file, with a connection that the next loop can use. -/
structure Finished (legible : Prop) (job : List UInt8) (s : Session) (total : ℤ) (unprinted : List UInt8) : Prop where
  total : total = job.length
  ended : s.input = []
  printed : unprinted = []
  wire : Wire legible s.line.printer [] s.line.toDevice s.line.fromDevice []

/-- A loop that has returned. -/
structure Returned (legible : Prop) (job : List UInt8) (s : Session) (total : ℤ) (unprinted : List UInt8) : Prop where
  left : Left s.line.toDevice unprinted
  finished : 0 ≤ total → Finished legible job s total unprinted

/-- A part of an iteration keeps the text that is not printed yet. Where the loop goes on, `so` holds. -/
inductive Serves (legible : Prop) (job text : List UInt8) (so : Session → Prop) : Progress → Prop where
  | goes {s : Session} {replies : List ScReply} {unprinted : List UInt8} (going : Going legible job s unprinted)
      (same : unprinted ++ s.input = text) (here : so s) : Serves legible job text so ⟨s, replies, none⟩
  | returns {s : Session} {replies : List ScReply} {total : ℤ} {unprinted : List UInt8}
      (returned : Returned legible job s total unprinted) (same : unprinted ++ s.input = text) :
      Serves legible job text so ⟨s, replies, some total⟩

section Blocks

variable {legible : Prop} {job text unprinted : List UInt8} {s : Session} {so also : Session → Prop}

theorem Left.failed (left : Left s.line.toDevice unprinted) (same : unprinted ++ s.input = text) :
    Serves legible job text so (leave s (-1)) :=
  .returns ⟨left, fun positive => absurd positive (by decide)⟩ same

theorem Going.failed (going : Going legible job s unprinted) (same : unprinted ++ s.input = text) :
    Serves legible job text so (leave s (-1)) :=
  (going.wire.left going.small).failed same

theorem Serves.andThen {progress : Progress} {next : Session → Progress} (first : Serves legible job text so progress)
    (later : ∀ s unprinted, Going legible job s unprinted → unprinted ++ s.input = text → so s → Serves legible job text also (next s)) :
    Serves legible job text also (progress.andThen next) := by
  cases first with
  | @goes s replies unprinted going same here =>
      have second := later s unprinted going same here
      rw [Progress.andThen]
      dsimp only
      cases made : next s with
      | mk after more exit =>
          rw [made] at second
          cases second with
          | goes going same here => exact .goes going same here
          | returns returned same => exact .returns returned same
  | returns returned same => exact .returns returned same

end Blocks

end XWrt.Bjnp
