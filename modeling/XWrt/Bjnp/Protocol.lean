import XWrt.Foundation.BigEndian

/-!
# BJNP frames

Headers, print commands and their answers, as `bjnp-protocol.h`, `bjnp-commands.c`
and `bjnp-io.c` have them. Commands and responses begin with the same header of
sixteen bytes, whose numbers have the high byte first.
-/

namespace XWrt.Bjnp

open XWrt.Foundation.BigEndian (digits value ofNat_value_digits_two ofNat_value_digits_four)

def BJNP_CMD_PRINT : UInt8 := 0x1
def CMD_TCP_PRINT : UInt8 := 0x21
def BJNP_PRINTBUF_MAX : ℕ := 4096
def BJNP_UDP_MAX : ℕ := 65536

/-- `"BJNP"` -/
def BJNP_STRING : List UInt8 := [0x42, 0x4A, 0x4E, 0x50]

/-- `struct bjnp_header`. Its first field is written and never looked at. -/
structure Header where
  devType : UInt8
  cmdCode : UInt8
  unknown1 : UInt16
  seqNo : UInt16
  sessionId : UInt16
  payloadLen : UInt32
deriving DecidableEq, Repr

def bjnpHeaderSize : ℕ := 16

/-- The size of the union: its longest member is `udp_status_response`. -/
def sizeofResponse : ℕ := bjnpHeaderSize + 2 + BJNP_UDP_MAX

def Header.encode (header : Header) : List UInt8 :=
  BJNP_STRING ++ [header.devType, header.cmdCode] ++ digits 2 header.unknown1.toNat ++ digits 2 header.seqNo.toNat ++
    digits 2 header.sessionId.toNat ++ digits 4 header.payloadLen.toNat

def Header.decode (bytes : List UInt8) : Header where
  devType := bytes.getD 4 0
  cmdCode := bytes.getD 5 0
  unknown1 := UInt16.ofNat (value ((bytes.drop 6).take 2))
  seqNo := UInt16.ofNat (value ((bytes.drop 8).take 2))
  sessionId := UInt16.ofNat (value ((bytes.drop 10).take 2))
  payloadLen := UInt32.ofNat (value ((bytes.drop 12).take 4))

@[simp]
theorem Header.length_encode (header : Header) : header.encode.length = bjnpHeaderSize := by
  simp [encode, BJNP_STRING, bjnpHeaderSize]

theorem Header.decode_encode (header : Header) (rest : List UInt8) : decode (header.encode ++ rest) = header := by
  have unknown1 : ((header.encode ++ rest).drop 6).take 2 = digits 2 header.unknown1.toNat := rfl
  have seqNo : ((header.encode ++ rest).drop 8).take 2 = digits 2 header.seqNo.toNat := rfl
  have sessionId : ((header.encode ++ rest).drop 10).take 2 = digits 2 header.sessionId.toNat := rfl
  have payloadLen : ((header.encode ++ rest).drop 12).take 4 = digits 4 header.payloadLen.toNat := rfl
  rw [decode, unknown1, seqNo, sessionId, payloadLen]
  simp only [ofNat_value_digits_two, ofNat_value_digits_four]
  rfl

/-- What the printer sends: a header and a payload. -/
structure Response where
  devType : UInt8
  cmdCode : UInt8
  unknown1 : UInt16
  seqNo : UInt16
  sessionId : UInt16
  payload : List UInt8
deriving DecidableEq, Repr

def Response.header (response : Response) : Header :=
  ⟨response.devType, response.cmdCode, response.unknown1, response.seqNo, response.sessionId,
    UInt32.ofNat response.payload.length⟩

def Response.encode (response : Response) : List UInt8 := response.header.encode ++ response.payload

/-! ## The printer's side of the structure -/

/-- The errors that the program tells apart. -/
inductive Errno where
  | eagain
  | eintr
  | eio
  | enotty
  | enospc
  | other
deriving DecidableEq, Repr

/-- What `struct printer_s` keeps of the connection and of the printer's identity. -/
structure Printer where
  ieee1284Id : List UInt8
  model : List UInt8
  serial : ℕ
  sessionId : UInt16
  seqNo : UInt16
  ioCount : ℕ
  ioFree : Bool
deriving DecidableEq, Repr

def bjnpSetCommandHeader (devType : UInt8) (seqNo sessionId : UInt16) (cmdCode : UInt8) (commandLen : ℕ) : Header :=
  ⟨devType, cmdCode, 0, seqNo, sessionId, UInt32.ofNat (commandLen - bjnpHeaderSize)⟩

def bjnpPrinterSetCommandHeader (printer : Printer) (cmdCode : UInt8) (commandLen : ℕ) : Printer × Header :=
  ({ printer with serial := printer.serial + 1 },
    bjnpSetCommandHeader BJNP_CMD_PRINT (UInt16.ofNat (printer.serial + 1)) printer.sessionId cmdCode commandLen)

/-- The printer and the two directions of its connection: the bytes that it has not taken yet, and those of
it that have arrived and are not read. -/
structure Line where
  printer : Printer
  toDevice : List UInt8
  fromDevice : List UInt8
deriving DecidableEq, Repr

/-- `write` takes some bytes or fails. -/
abbrev Written := Except Errno ℕ

def bjnpWrite2 (line : Line) (buf : List UInt8) (write : Written) : Line × Except Errno ℕ :=
  if line.printer.ioFree then
    let set := bjnpPrinterSetCommandHeader line.printer CMD_TCP_PRINT (bjnpHeaderSize + buf.length)
    let printer := { set.1 with seqNo := UInt16.ofNat set.1.serial, ioCount := buf.length }
    let command := set.2.encode ++ buf
    match write with
    | .error errno => ({ line with printer := printer }, .error errno)
    | .ok sent =>
        if sent < command.length then
          ({ line with printer := printer, toDevice := line.toDevice ++ command.take sent }, .error .eio)
        else
          ({ line with
              printer := { printer with ioFree := false }
              toDevice := line.toDevice ++ command }, .ok buf.length)
  else (line, .error .eagain)

/-- The start of a BJL command. -/
def startCmd : List UInt8 := [0x1B, 0x5B, 0x4B, 0x2, 0x0, 0x0]

/-- The search starts at the second byte, and does not look at the very end. -/
def findBinString (buf lookfor : List UInt8) : Option ℕ :=
  (List.range' 1 (buf.length - lookfor.length - 1)).find? fun i => (buf.drop i).take lookfor.length == lookfor

/-- A command goes into a packet of its own. -/
def bjnpWrite (line : Line) (buf : List UInt8) (write : Written) : Line × Except Errno ℕ :=
  match findBinString buf startCmd with
  | none => bjnpWrite2 line buf write
  | some printCount => bjnpWrite2 line (buf.take printCount) write

inductive Backchannel where
  | ok (written : ℕ)
  | throttle
  | notAnAck
  | ioError (errno : Errno)
deriving DecidableEq, Repr

/-- The second half of `bjnp_backchannel`, when a response has been read. -/
def checkResponse (printer : Printer) (header : Header) (written : ℕ) : Printer × Backchannel :=
  if header.cmdCode ≠ CMD_TCP_PRINT then (printer, .notAnAck)
  else if header.seqNo ≠ printer.seqNo then (printer, .ioError .eio)
  else if printer.ioCount = written then ({ printer with ioFree := true }, .ok written)
  else if written = 0 then ({ printer with ioFree := true }, .throttle)
  else ({ printer with ioFree := true }, .ioError .eio)

/-- What the calls of `bjnp_backchannel` come to: the most that its two reads get, or nothing where they fail and
the stack keeps what it held; whether the payload can be read within a second; and `errno` where a call is not
content, mostly what an earlier one has left there. -/
structure Hearing where
  header : Option ℕ
  heldHeader : Header
  inTime : Bool
  payload : Option ℕ
  heldAccepted : UInt32
  errno : Errno
deriving DecidableEq, Repr

/-- `read`, with its failure for a missing result. -/
def Line.read (line : Line) (count : ℕ) (most : Option ℕ) : Line × Option (List UInt8) :=
  match most with
  | none => (line, none)
  | some n => ({ line with fromDevice := line.fromDevice.drop (min n count) }, some (line.fromDevice.take (min n count)))

/-- The length of what has been read is unsigned, so the -1 of a failure passes for enough. -/
def tooShort (got : Option (List UInt8)) (count : ℕ) : Bool :=
  match got with
  | none => false
  | some bytes => bytes.length < count

/-- `bjnp_backchannel` behind the header. -/
def hearPayload (line : Line) (header : Header) (hearing : Hearing) : Line × Backchannel :=
  let payloadLen := header.payloadLen.toNat
  if 4 ≤ payloadLen ∧ payloadLen < sizeofResponse - bjnpHeaderSize then
    if hearing.inTime then
      let got := line.read payloadLen hearing.payload
      if tooShort got.2 payloadLen then (got.1, .ioError hearing.errno)
      else
        let accepted := (got.2.map fun bytes => value (bytes.take 4)).getD hearing.heldAccepted.toNat
        let checked := checkResponse line.printer header accepted
        ({ got.1 with printer := checked.1 }, checked.2)
    else (line, .ioError hearing.errno)
  else (line, .ioError .eio)

def bjnpBackchannel (line : Line) (hearing : Hearing) : Line × Backchannel :=
  let got := line.read bjnpHeaderSize hearing.header
  if tooShort got.2 bjnpHeaderSize then (got.1, .ioError hearing.errno)
  else hearPayload got.1 ((got.2.map Header.decode).getD hearing.heldHeader) hearing

/-! ## What is read and written -/

/-- The program takes the response. -/
def Response.Readable (response : Response) : Prop :=
  4 ≤ response.payload.length ∧ response.payload.length < sizeofResponse - bjnpHeaderSize

instance (response : Response) : Decidable response.Readable := inferInstanceAs (Decidable (_ ∧ _))

/-- The loop goes on behind these errors. -/
def Errno.Again (errno : Errno) : Prop := errno = .eagain ∨ errno = .eintr

instance (errno : Errno) : Decidable errno.Again := inferInstanceAs (Decidable (_ ∨ _))

/-- The reads get as much as they ask for and is there. -/
def Hearing.Whole (hearing : Hearing) : Prop :=
  hearing.header.any (bjnpHeaderSize ≤ ·) ∧ hearing.inTime ∧ hearing.payload.any (sizeofResponse - bjnpHeaderSize ≤ ·)

instance (hearing : Hearing) : Decidable hearing.Whole := inferInstanceAs (Decidable (_ ∧ _ ∧ _))

/-- No read fails, and those that get less, or come too late, find an error that ends the loop. -/
structure Hearing.Fair (hearing : Hearing) : Prop where
  header : hearing.header.isSome
  payload : hearing.payload.isSome
  ends : hearing.Whole ∨ ¬ hearing.errno.Again

instance (hearing : Hearing) : Decidable hearing.Fair :=
  decidable_of_iff (hearing.header.isSome ∧ hearing.payload.isSome ∧ (hearing.Whole ∨ ¬ hearing.errno.Again))
    ⟨fun ⟨header, payload, ends⟩ => ⟨header, payload, ends⟩, fun fair => ⟨fair.header, fair.payload, fair.ends⟩⟩

section Hear

variable {line : Line} {response : Response} {rest : List UInt8} {hearing : Hearing}

/-- Where a call gives up, the printer is as before and so is what is on its way there. -/
def GivesUp (line : Line) (result : Line × Backchannel) : Prop :=
  ∃ fromDevice errno, ¬ errno.Again ∧ result = ({ line with fromDevice := fromDevice }, .ioError errno)

theorem Hearing.Whole.reads (whole : hearing.Whole) :
    ∃ n m, bjnpHeaderSize ≤ n ∧ hearing.header = some n ∧ sizeofResponse - bjnpHeaderSize ≤ m ∧ hearing.payload = some m := by
  obtain ⟨header, -, payload⟩ := whole
  cases first : hearing.header with
  | none => rw [first] at header; cases header
  | some n =>
  cases second : hearing.payload with
  | none => rw [second] at payload; cases payload
  | some m =>
      rw [first] at header
      rw [second] at payload
      exact ⟨n, m, of_decide_eq_true header, rfl, of_decide_eq_true payload, rfl⟩

end Hear

end XWrt.Bjnp
