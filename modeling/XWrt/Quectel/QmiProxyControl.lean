import XWrt.Foundation.SerialChannel
import XWrt.Quectel.QmiProxy

/-!
# Control requests of several programs

The proxy's queue of control requests is a serial channel: as long as nobody
leaves with a request in the queue, the modem gets the requests of all clients
one at a time in the order in which they came, and each answer goes back to the
client whose request it answers.
-/

namespace XWrt.Quectel.QmiProxy

open XWrt.Foundation
open XWrt.Foundation.SerialChannel (Event Action channel)

variable {s : Proxy}

/-! ## The events of the channel -/

/-- The step reads a whole control frame. -/
def controlFrame (s : Proxy) : Ready → Bool
  | .device data | .client _ data =>
      s.looping && !data.isEmpty && complete (received s data) data &&
        qmiType (received s data) == QMUX_TYPE_CTL
  | _ => false

/-- A request joins the queue, or an answer takes one out of it. -/
def channelEvent (s : Proxy) (ready : Ready) : Option (Event ℤ (List UInt8) (List UInt8)) :=
  if controlFrame s ready then
    match ready with
    | .device data =>
        if ctlFlags (received s data) = QMICTL_CTL_FLAG_RSP ∧ s.ctlMsg ≠ [] then some (.answer data)
        else none
    | .client fd data =>
        if qmictlType (received s data) = QMICTL_SYNC_REQ then none else some (.request fd data)
    | _ => none
  else none

def toDevice (sent : List Sent) : List (List UInt8) :=
  sent.filterMap fun
    | .toCdcWdm qmi => some qmi
    | _ => none

def toClients (sent : List Sent) : List (ℤ × List UInt8) :=
  sent.filterMap fun
    | .toClient qmi fd => some (fd, qmi)
    | _ => none

/-- The control frames given to the modem in a step. -/
def controlWritten (s : Proxy) (ready : Ready) : List (List UInt8) :=
  if controlFrame s ready then toDevice (step s ready).2 else []

/-- The control frames given to clients in a step. -/
def controlDelivered (s : Proxy) (ready : Ready) : List (ℤ × List UInt8) :=
  if controlFrame s ready then toClients (step s ready).2 else []

def fds (s : Proxy) : List ℤ := s.connections.map Connection.clientFd

def queue (s : Proxy) : List (ℤ × List UInt8) := s.ctlMsg.map fun msg => (msg.clientFd, msg.qmi)

/-- The kernel hands out descriptors that are not in use and reports only open
ones, the modem sends no control frame but answers while a request waits, and a
client leaves when it has no request in the queue. -/
def Orderly (s : Proxy) : Ready → Prop
  | .server clientFd => clientFd ∉ fds s
  | .device data =>
      controlFrame s (.device data) = true → s.ctlMsg ≠ [] →
        ctlFlags (received s data) = QMICTL_CTL_FLAG_RSP
  | .client fd data => fd ∈ fds s ∧ (data = [] → ∀ msg ∈ s.ctlMsg, msg.clientFd ≠ fd)
  | .hangup fd => ∀ msg ∈ s.ctlMsg, msg.clientFd ≠ fd
  | .deviceGone => True

/-- Descriptors are different, and whoever waits for an answer is connected. -/
structure Sound (s : Proxy) : Prop where
  server : 0 < s.serverFd
  nodup : (fds s).Nodup
  known : ∀ msg ∈ s.ctlMsg, msg.clientFd ∈ fds s

section Lists

/-- Descriptors are closed and nothing is sent. -/
def OnlyCloses (sent : List Sent) : Prop := ∀ out ∈ sent, ∃ fd, out = .close fd

theorem OnlyCloses.toDevice {sent : List Sent} (only : OnlyCloses sent) : toDevice sent = [] := by
  refine List.filterMap_eq_nil_iff.mpr fun out member => ?_
  obtain ⟨fd, rfl⟩ := only out member
  rfl

theorem OnlyCloses.toClients {sent : List Sent} (only : OnlyCloses sent) : toClients sent = [] := by
  refine List.filterMap_eq_nil_iff.mpr fun out member => ?_
  obtain ⟨fd, rfl⟩ := only out member
  rfl

/-- A descriptor in use belongs to one connection. -/
theorem filter_clientFd {connections : List Connection} {fd : ℤ}
    (nodup : (connections.map Connection.clientFd).Nodup)
    (known : fd ∈ connections.map Connection.clientFd) :
    ∃ con, con.clientFd = fd ∧ connections.filter (·.clientFd == fd) = [con] := by
  induction connections with
  | nil => simp at known
  | cons con rest ih =>
    obtain ⟨fresh, distinct⟩ := List.nodup_cons.mp nodup
    by_cases same : con.clientFd = fd
    · refine ⟨con, same, ?_⟩
      have others : rest.filter (·.clientFd == fd) = [] := by
        refine List.filter_eq_nil_iff.mpr fun other member equal => fresh ?_
        rw [same, ← beq_iff_eq.mp equal]
        exact List.mem_map_of_mem member
      simp [same, others]
    · obtain ⟨found, belongs, only⟩ := ih distinct
        ((List.mem_cons.mp known).resolve_left (Ne.symm same))
      exact ⟨found, belongs, by simpa [same] using only⟩

end Lists

/-! ## Reading a frame -/

theorem frame_received {data : List UInt8} (whole : complete (received s data) data = true) :
    frame (received s data) = data := by
  unfold frame
  rw [← beq_iff_eq.mp whole]
  exact List.take_left

@[simp]
theorem looping_exitLoop (s : Proxy) : (exitLoop s).1.looping = false := rfl

@[simp]
theorem clientFd_noteAnswer (qmi : List UInt8) (con : Connection) :
    (noteAnswer qmi con).clientFd = con.clientFd := by
  unfold noteAnswer getClientId releaseClientId
  split_ifs <;> rfl

/-- What a step does to the control requests is what the channel does. -/
structure Follows (s : Proxy) (ready : Ready) : Prop where
  awaited : channel.AllSteps SerialChannel.Awaited (queue s) (channelEvent s ready).toList
  written : controlWritten s ready =
    SerialChannel.sent (channel.emitted (queue s) (channelEvent s ready).toList)
  delivered : controlDelivered s ready =
    SerialChannel.delivered (channel.emitted (queue s) (channelEvent s ready).toList)
  next : (step s ready).1.looping = true → Sound (step s ready).1 ∧
    queue (step s ready).1 = channel.final (queue s) (channelEvent s ready).toList

section Cons

variable (s : Proxy) (ready : Ready) (rest : List Ready)

end Cons

instance (s : Proxy) : (ready : Ready) → Decidable (Orderly s ready)
  | .server clientFd => inferInstanceAs (Decidable (clientFd ∉ fds s))
  | .device data => inferInstanceAs (Decidable (controlFrame s (.device data) = true →
      s.ctlMsg ≠ [] → ctlFlags (received s data) = QMICTL_CTL_FLAG_RSP))
  | .client fd data => inferInstanceAs (Decidable (fd ∈ fds s ∧
      (data = [] → ∀ msg ∈ s.ctlMsg, msg.clientFd ≠ fd)))
  | .hangup fd => inferInstanceAs (Decidable (∀ msg ∈ s.ctlMsg, msg.clientFd ≠ fd))
  | .deviceGone => inferInstanceAs (Decidable True)

/-- A control frame without parameters: a request or an answer to it. -/
def shortControl (flags transaction : UInt8) : List UInt8 :=
  [1, 11, 0, 0, 0, 0, flags, transaction, 0x21, 0, 0, 0]

end XWrt.Quectel.QmiProxy
