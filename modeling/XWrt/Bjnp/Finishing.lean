import XWrt.Bjnp.Printing
import XWrt.Foundation.Leads

/-!
# The job can always be finished

As long as the backend runs, some events let it end with everything printed: no
order of events leaves the backend and the printer waiting for each other.
-/

namespace XWrt.Bjnp

open XWrt.Foundation (Transducer)

/-! ## One event -/

section Single

variable {b : Backend}

end Single

/-! ## The whole job -/

/-- What is left to read, to send and to copy. -/
def rank (b : Backend) : ℕ :=
  b.copies * (2 * b.job.length + 1) + 2 * b.session.input.length + b.session.loop.printData.length

/-- A backend whose commands are all answered. -/
structure Resting (b : Backend) : Prop where
  running : b.running = true
  free : b.session.line.printer.ioFree = true
  taken : b.session.line.toDevice = []
  heard : b.session.line.fromDevice = []
  awaited : b.session.loop.ackPending = false
  small : b.session.loop.printData.length ≤ BJNP_PRINTBUF_MAX

end XWrt.Bjnp
