import XWrt.Bjnp.Protocol
import XWrt.Foundation.Transducer

/-!
# The run loop of the backend

`bjnp_backendRunLoop` of `bjnp-runloop.c`. An iteration asks `select` for what the
loop can use now, and serves in this order the side channel, the printer's
answers, the file and the sending of data. Print data is read when none is left,
and nothing is sent while an answer is missing. Totals are numbers without a bound
here, as a print file has less than 2^31 bytes.
-/

namespace XWrt.Bjnp

open XWrt.Foundation (Transducer)
open XWrt.Foundation.BigEndian (digits)

/-! ## The side channel -/

inductive ScCommand where
  | drainOutput
  | getBidi
  | getDeviceId
  | getConnected
  | other (code : ℕ)
deriving DecidableEq, Repr

inductive ScStatus where
  | ok
  | ioError
  | notImplemented
deriving DecidableEq, Repr

/-- `cupsSideChannelWrite` -/
structure ScReply where
  command : ScCommand
  status : ScStatus
  data : List UInt8
deriving DecidableEq, Repr

def CUPS_SC_BIDI_NOT_SUPPORTED : UInt8 := 0

def bjnpBackendGetDeviceID (printer : Printer) : Option (List UInt8) :=
  if printer.model = [] ∧ printer.ieee1284Id = [] then none else some printer.ieee1284Id

/-! ## The loop -/

/-- The variables of the loop. `printData` are the bytes from `print_ptr` on, and `print_bytes` is their number. -/
structure RunLoop where
  printData : List UInt8
  totalBytes : ℕ
  ackPending : Bool
  draining : Bool
  sendKeepAlive : Bool
  sideChannelOpen : Bool
deriving DecidableEq, Repr

def RunLoop.start : RunLoop := ⟨[], 0, false, false, false, true⟩

/-- The loop, its connection, and what is left in the file. -/
structure Session where
  line : Line
  loop : RunLoop
  input : List UInt8
deriving DecidableEq, Repr

/-- What is ready, and what the calls that this leads to return: a request of the side channel or none when
it is closed; what the printer is heard to say; the bytes that a read of the file gets, one more than the number;
the bytes that are sent. -/
structure Ready where
  reportLevels : Bool
  sideChannel : Option (Option ScCommand)
  device : Option Hearing
  print : Option (Except Errno ℕ)
  output : Option Written
deriving Repr

/-- Only what is in the sets is reported. -/
def Ready.asked (ready : Ready) (loop : RunLoop) : Ready :=
  { ready with
    print := if loop.printData = [] then ready.print else none
    sideChannel :=
      if loop.sideChannelOpen = true ∧ loop.printData = [] ∧ loop.draining = false then ready.sideChannel else none
    output :=
      if (loop.sendKeepAlive = true ∨ loop.printData ≠ []) ∧ loop.ackPending = false then ready.output else none }

def Ready.isNothing (ready : Ready) : Bool :=
  ready.sideChannel.isNone && ready.device.isNone && ready.print.isNone && ready.output.isNone

/-- What a part of the iteration comes to: `exit` is the value returned by the loop. -/
structure Progress where
  session : Session
  replies : List ScReply
  exit : Option ℤ

def goOn (s : Session) : Progress := ⟨s, [], none⟩

def leave (s : Session) (total : ℤ) : Progress := ⟨s, [], some total⟩

def Progress.andThen (progress : Progress) (next : Session → Progress) : Progress :=
  match progress.exit with
  | some _ => progress
  | none => { next progress.session with replies := progress.replies ++ (next progress.session).replies }

/-- `bjnp_report_levels` asks for the status, with a number of its own for the command. -/
def reportLevels (s : Session) : Session :=
  { s with line.printer.serial := s.line.printer.serial + 1 }

def serveSideChannel (request : Option (Option ScCommand)) (s : Session) : Progress :=
  match request with
  | none => goOn s
  | some none => goOn { s with loop.sideChannelOpen := false }
  | some (some .drainOutput) => goOn { s with loop.draining := true }
  | some (some .getBidi) => ⟨s, [⟨.getBidi, .ok, [CUPS_SC_BIDI_NOT_SUPPORTED]⟩], none⟩
  | some (some .getDeviceId) =>
      match bjnpBackendGetDeviceID s.line.printer with
      | some deviceId => ⟨s, [⟨.getDeviceId, .ok, deviceId⟩], none⟩
      | none => ⟨s, [⟨.getDeviceId, .ioError, []⟩], none⟩
  -- the reply is prepared and not sent
  | some (some .getConnected) => goOn s
  | some (some (.other code)) => ⟨s, [⟨.other code, .notImplemented, []⟩], none⟩

def serveDevice (heard : Option Hearing) (s : Session) : Progress :=
  match heard with
  | none => goOn s
  | some hearing =>
      let received := bjnpBackchannel s.line hearing
      let s := { s with line := received.1 }
      match received.2 with
      | .ok written =>
          goOn { s with
            loop.printData := s.loop.printData.drop written
            loop.totalBytes := s.loop.totalBytes + written
            loop.ackPending := false }
      | .throttle => goOn { s with loop.ackPending := false }
      | .notAnAck => goOn s
      | .ioError errno => if errno.Again then goOn s else leave s (-1)

def servePrint (read : Option (Except Errno ℕ)) (s : Session) : Progress :=
  match read with
  | none => goOn s
  | some (.error errno) =>
      if errno.Again then goOn { s with loop.printData := [] } else leave s (-1)
  | some (.ok n) =>
      let got := s.input.take (min (n + 1) BJNP_PRINTBUF_MAX)
      if got = [] then
        { leave { s with loop.draining := false } s.loop.totalBytes with
          replies := if s.loop.draining then [⟨.drainOutput, .ok, []⟩] else [] }
      else goOn { s with loop.printData := got, input := s.input.drop got.length }

/-- The test for `EAGAIN` compares with zero, but `EWOULDBLOCK` is the same number. -/
def isRetried (errno : Errno) : Bool :=
  errno == .eagain || errno == .eintr || errno == .enotty || errno == .enospc

def serveOutput (output : Option Written) (s : Session) : Progress :=
  match output with
  | none => goOn s
  | some write =>
      if s.loop.sendKeepAlive = true ∨ s.loop.printData ≠ [] then
        let sent := bjnpWrite s.line s.loop.printData write
        let s := { s with line := sent.1, loop.sendKeepAlive := false }
        match sent.2 with
        | .error errno => if isRetried errno then goOn s else leave s (-1)
        | .ok _ => goOn { s with loop.ackPending := true }
      else goOn s

def iterate (s : Session) (ready : Ready) : Progress :=
  let asked := ready.asked s.loop
  let s := if ready.reportLevels then reportLevels s else s
  if asked.isNothing then
    goOn (if s.loop.ackPending then s else { s with loop.sendKeepAlive := true })
  else
    (((serveSideChannel asked.sideChannel s).andThen (serveDevice asked.device)).andThen
      (servePrint asked.print)).andThen (serveOutput asked.output)

/-! ## The backend and the printer -/

/-- `main` with its copies, a printer and what it has printed. -/
structure Backend where
  session : Session
  job : List UInt8
  copies : ℕ
  tbytes : ℤ
  running : Bool
  printed : List UInt8
deriving DecidableEq, Repr

/-- `while (copies > 0 && tbytes >= 0)` -/
def nextCopy (b : Backend) : Backend :=
  if 0 < b.copies ∧ 0 ≤ b.tbytes then
    { b with
      session := { b.session with loop := .start, input := b.job }
      copies := b.copies - 1
      running := true }
  else { b with running := false }

/-- The connection has been made. -/
def Backend.begin (printer : Printer) (job : List UInt8) (copies : ℕ) : Backend :=
  nextCopy ⟨⟨⟨{ printer with ioFree := true }, [], []⟩, .start, []⟩, job, copies, 0, false, []⟩

/-- A printer takes a command when all of it is there. -/
def takeCommand (stream : List UInt8) : Option (Header × List UInt8 × List UInt8) :=
  if stream.length < bjnpHeaderSize then none
  else
    let header := Header.decode stream
    let rest := stream.drop bjnpHeaderSize
    if rest.length < header.payloadLen.toNat then none
    else some (header, rest.take header.payloadLen.toNat, rest.drop header.payloadLen.toNat)

/-- The answer to a print command. -/
def acknowledgement (header : Header) (accepted : ℕ) (more : List UInt8) : Response :=
  ⟨0x81, CMD_TCP_PRINT, 0, header.seqNo, header.sessionId, digits 4 accepted ++ more⟩

inductive Event where
  | ready (ready : Ready)
  | selectFails (interrupted : Bool)
  | takes (accepts : Bool) (more : List UInt8)
  | sends (response : Response)

def step (b : Backend) : Event → Backend × List ScReply
  | .ready ready =>
      if b.running then
        let progress := iterate b.session ready
        match progress.exit with
        | none => ({ b with session := progress.session }, progress.replies)
        | some total => (nextCopy { b with session := progress.session, tbytes := total }, progress.replies)
      else (b, [])
  | .selectFails interrupted =>
      if b.running = true ∧ interrupted = true ∧ b.session.loop.totalBytes = 0 then (nextCopy { b with tbytes := 0 }, [])
      else (b, [])
  | .takes accepts more =>
      match takeCommand b.session.line.toDevice with
      | none => (b, [])
      | some (header, data, rest) =>
          let answer := acknowledgement header (if accepts then data.length else 0) more
          ({ b with
              session.line.toDevice := rest
              session.line.fromDevice := b.session.line.fromDevice ++ answer.encode
              printed := b.printed ++ if accepts then data else [] }, [])
  | .sends response =>
      ({ b with session.line.fromDevice := b.session.line.fromDevice ++ response.encode }, [])

/-- What a response has to be like: its header can state the length of its payload, and where `legible` holds the
program takes it. -/
structure Response.Passes (legible : Prop) (response : Response) : Prop where
  small : response.payload.length < 2 ^ 32
  legible : legible → response.Readable

/-- No signal comes before the first bytes are printed; no read of the connection fails, and one that gets less than a
whole response ends the loop; and what the printer sends answers no print command but the one it has taken. -/
def Orderly (legible : Prop) (b : Backend) : Event → Prop
  | .ready ready => ∀ hearing ∈ ready.device, hearing.Fair
  | .selectFails interrupted => interrupted = true → 0 < b.session.loop.totalBytes
  | .takes _ more => 4 + more.length < 2 ^ 32 ∧ (legible → 4 + more.length < sizeofResponse - bjnpHeaderSize)
  | .sends response => response.Passes legible ∧ (response.Readable → response.cmdCode ≠ CMD_TCP_PRINT)

instance (legible : Prop) [Decidable legible] (response : Response) : Decidable (response.Passes legible) :=
  decidable_of_iff (response.payload.length < 2 ^ 32 ∧ (legible → response.Readable))
    ⟨fun ⟨small, readable⟩ => ⟨small, readable⟩, fun passes => ⟨passes.small, passes.legible⟩⟩

instance (legible : Prop) [Decidable legible] (b : Backend) : (event : Event) → Decidable (Orderly legible b event)
  | .ready ready => inferInstanceAs (Decidable (∀ hearing ∈ ready.device, hearing.Fair))
  | .selectFails interrupted => inferInstanceAs (Decidable (interrupted = true → 0 < b.session.loop.totalBytes))
  | .takes _ more =>
      inferInstanceAs (Decidable (4 + more.length < 2 ^ 32 ∧ (legible → 4 + more.length < sizeofResponse - bjnpHeaderSize)))
  | .sends response =>
      inferInstanceAs (Decidable (response.Passes legible ∧ (response.Readable → response.cmdCode ≠ CMD_TCP_PRINT)))

/-! ## An undisturbed print -/

end XWrt.Bjnp
