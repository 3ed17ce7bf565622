import XWrt.Bjnp.RunLoop

/-!
# The connection

Between the backend and a printer that answers each command by taking all of its
data or none, there is at most one command without an answer. The states that
their connection can be in, and what each call and each act of the printer makes
of them.
-/

namespace XWrt.Bjnp

open XWrt.Foundation.BigEndian (digits value value_digits length_digits)

/-! ## The printer's input -/

/-- The print command that the printer structure stands for while it has no answer. -/
def printCommand (printer : Printer) (data : List UInt8) : List UInt8 :=
  (bjnpSetCommandHeader BJNP_CMD_PRINT printer.seqNo printer.sessionId CMD_TCP_PRINT
    (bjnpHeaderSize + data.length)).encode ++ data

section Commands

variable {printer : Printer} {data : List UInt8}

theorem payloadLen_printCommand (small : data.length ≤ BJNP_PRINTBUF_MAX) :
    (UInt32.ofNat (bjnpHeaderSize + data.length - bjnpHeaderSize)).toNat = data.length := by
  rw [Nat.add_sub_cancel_left, UInt32.toNat_ofNat']
  exact Nat.mod_eq_of_lt (lt_of_le_of_lt small (by decide))

theorem takeCommand_printCommand (small : data.length ≤ BJNP_PRINTBUF_MAX) :
    takeCommand (printCommand printer data) =
      some (bjnpSetCommandHeader BJNP_CMD_PRINT printer.seqNo printer.sessionId CMD_TCP_PRINT
        (bjnpHeaderSize + data.length), data, []) := by
  have width : (bjnpSetCommandHeader BJNP_CMD_PRINT printer.seqNo printer.sessionId CMD_TCP_PRINT
      (bjnpHeaderSize + data.length)).payloadLen.toNat = data.length := payloadLen_printCommand small
  have behind : (printCommand printer data).drop bjnpHeaderSize = data := List.drop_left' (Header.length_encode _)
  have long : ¬ (printCommand printer data).length < bjnpHeaderSize := by
    rw [printCommand, List.length_append, Header.length_encode]
    omega
  rw [takeCommand, if_neg long]
  dsimp only
  rw [behind, printCommand, Header.decode_encode, width, if_neg (Nat.lt_irrefl _), List.take_length, List.drop_length]

theorem takeCommand_nil : takeCommand [] = none := rfl

end Commands

/-! ## What is under way -/

/-- Responses that answer no print command. -/
def Quiet (legible : Prop) (responses : List Response) : Prop :=
  ∀ response ∈ responses, response.Passes legible ∧ (response.Readable → response.cmdCode ≠ CMD_TCP_PRINT)

structure Acknowledges (legible : Prop) (printer : Printer) (accepted : ℕ) (response : Response) : Prop where
  passes : response.Passes legible
  cmdCode : response.cmdCode = CMD_TCP_PRINT
  seqNo : response.seqNo = printer.seqNo
  accepted : value (response.payload.take 4) = accepted

/-- The states of a connection whose backend holds some data: the bytes to the printer, those from it, and what
of the data is not printed yet. -/
inductive Wire (legible : Prop) (printer : Printer) (data : List UInt8) :
    List UInt8 → List UInt8 → List UInt8 → Prop where
  | idle {others : List Response} (free : printer.ioFree = true) (quiet : Quiet legible others) :
      Wire legible printer data [] (others.flatMap Response.encode) data
  | sent {others : List Response} (busy : printer.ioFree = false) (within : printer.ioCount ≤ data.length)
      (quiet : Quiet legible others) :
      Wire legible printer data (printCommand printer (data.take printer.ioCount))
        (others.flatMap Response.encode) data
  | taken {before after : List Response} {answer : Response} (busy : printer.ioFree = false)
      (within : printer.ioCount ≤ data.length) (quiet : Quiet legible before)
      (answers : Acknowledges legible printer printer.ioCount answer) (later : Quiet legible after) :
      Wire legible printer data [] ((before ++ answer :: after).flatMap Response.encode)
        (data.drop printer.ioCount)
  | refused {before after : List Response} {answer : Response} (busy : printer.ioFree = false)
      (within : printer.ioCount ≤ data.length) (some : printer.ioCount ≠ 0) (quiet : Quiet legible before)
      (answers : Acknowledges legible printer 0 answer) (later : Quiet legible after) :
      Wire legible printer data [] ((before ++ answer :: after).flatMap Response.encode) data

/-- What a backend that has given up leaves on the way to its printer: a command with the next of what is not printed
yet, or nothing that the printer can take. -/
inductive Left : List UInt8 → List UInt8 → Prop where
  | command {printer : Printer} {front : List UInt8} (small : front.length ≤ BJNP_PRINTBUF_MAX) (back : List UInt8) :
      Left (printCommand printer front) (front ++ back)
  | nothing {toDevice : List UInt8} (cut : takeCommand toDevice = none) (unprinted : List UInt8) : Left toDevice unprinted

section Steps

variable {legible : Prop} {printer : Printer} {data toDevice fromDevice unprinted : List UInt8}

theorem Quiet.nil : Quiet legible [] := fun _ member => absurd member List.not_mem_nil

theorem Quiet.concat {responses : List Response} {response : Response} (quiet : Quiet legible responses)
    (last : response.Passes legible ∧ (response.Readable → response.cmdCode ≠ CMD_TCP_PRINT)) :
    Quiet legible (responses ++ [response]) := by
  intro other member
  rcases List.mem_append.mp member with old | new
  · exact quiet other old
  · exact List.mem_singleton.mp new ▸ last

theorem Wire.left (wire : Wire legible printer data toDevice fromDevice unprinted) (small : data.length ≤ BJNP_PRINTBUF_MAX) :
    Left toDevice unprinted := by
  cases wire with
  | idle free quiet => exact .nothing takeCommand_nil _
  | sent busy within quiet =>
      have command := @Left.command printer (data.take printer.ioCount) ((List.length_take_le' _ _).trans small) (data.drop printer.ioCount)
      rwa [List.take_append_drop] at command
  | taken busy within quiet answers later => exact .nothing takeCommand_nil _
  | refused busy within some quiet answers later => exact .nothing takeCommand_nil _

/-- The printer takes the command, if there is one, and prints all of it or nothing. -/
theorem Left.takes (left : Left toDevice unprinted) {header : Header} {taken rest : List UInt8}
    (command : takeCommand toDevice = some (header, taken, rest)) (accepts : Bool) :
    ∃ other, Left rest other ∧ (if accepts then taken else []) ++ other = unprinted := by
  cases left with
  | nothing cut => exact absurd (cut.symm.trans command) (Option.some_ne_none _).symm
  | command small back =>
      rw [takeCommand_printCommand small] at command
      simp only [Option.some.injEq, Prod.mk.injEq] at command
      obtain ⟨rfl, rfl, rfl⟩ := command
      cases accepts with
      | true => exact ⟨back, .nothing takeCommand_nil _, rfl⟩
      | false => exact ⟨_, .nothing takeCommand_nil _, rfl⟩

/-- The numbers of commands for other purposes are counted, and nothing else changes. -/
theorem Wire.serial (wire : Wire legible printer data toDevice fromDevice unprinted) (serial : ℕ) :
    Wire legible { printer with serial := serial } data toDevice fromDevice unprinted := by
  cases wire with
  | idle free quiet => exact .idle free quiet
  | sent busy within quiet => exact @Wire.sent legible { printer with serial := serial } data _ busy within quiet
  | taken busy within quiet answers later =>
      exact @Wire.taken legible { printer with serial := serial } data _ _ _ busy within quiet
        ⟨answers.passes, answers.cmdCode, answers.seqNo, answers.accepted⟩ later
  | refused busy within some quiet answers later =>
      exact @Wire.refused legible { printer with serial := serial } data _ _ _ busy within some quiet
        ⟨answers.passes, answers.cmdCode, answers.seqNo, answers.accepted⟩ later

theorem Wire.sends (wire : Wire legible printer data toDevice fromDevice unprinted) {response : Response}
    (other : response.Passes legible ∧ (response.Readable → response.cmdCode ≠ CMD_TCP_PRINT)) :
    Wire legible printer data toDevice (fromDevice ++ response.encode) unprinted := by
  have last : response.encode = [response].flatMap Response.encode := by simp
  cases wire with
  | idle free quiet =>
      rw [last, ← List.flatMap_append]
      exact .idle free (quiet.concat other)
  | sent busy within quiet =>
      rw [last, ← List.flatMap_append]
      exact .sent busy within (quiet.concat other)
  | taken busy within quiet answers later =>
      rw [last, ← List.flatMap_append, List.append_assoc, List.cons_append]
      exact .taken busy within quiet answers (later.concat other)
  | refused busy within some quiet answers later =>
      rw [last, ← List.flatMap_append, List.append_assoc, List.cons_append]
      exact .refused busy within some quiet answers (later.concat other)

theorem acknowledges_acknowledgement {accepted : ℕ} (small : accepted ≤ BJNP_PRINTBUF_MAX) {more : List UInt8}
    (fits : 4 + more.length < 2 ^ 32 ∧ (legible → 4 + more.length < sizeofResponse - bjnpHeaderSize)) {header : Header}
    (same : header.seqNo = printer.seqNo) : Acknowledges legible printer accepted (acknowledgement header accepted more) := by
  have length : (acknowledgement header accepted more).payload.length = 4 + more.length := by
    rw [acknowledgement, List.length_append, length_digits]
  refine ⟨⟨length ▸ fits.1, fun clear => ⟨?_, length ▸ fits.2 clear⟩⟩, rfl, same, ?_⟩
  · rw [length]
    omega
  · change value ((digits 4 accepted ++ more).take 4) = accepted
    rw [List.take_left' (length_digits 4 accepted), value_digits]
    exact Nat.mod_eq_of_lt (lt_of_le_of_lt small (by decide))

/-- The printer takes the one command there is, and prints all of it or nothing. -/
theorem Wire.takes (wire : Wire legible printer data toDevice fromDevice unprinted)
    (small : data.length ≤ BJNP_PRINTBUF_MAX) {header : Header} {taken rest more : List UInt8}
    (command : takeCommand toDevice = some (header, taken, rest))
    (fits : 4 + more.length < 2 ^ 32 ∧ (legible → 4 + more.length < sizeofResponse - bjnpHeaderSize)) (accepts : Bool) :
    ∃ left, Wire legible printer data rest
        (fromDevice ++ (acknowledgement header (if accepts then taken.length else 0) more).encode) left ∧
      (if accepts then taken else []) ++ left = unprinted := by
  have idle : ∀ {stream : List UInt8}, takeCommand stream = none → takeCommand stream ≠ some (header, taken, rest) :=
    fun empty full => Option.some_ne_none _ (full.symm.trans empty)
  cases wire with
  | idle free quiet => exact absurd command (idle takeCommand_nil)
  | taken busy within quiet answers later => exact absurd command (idle takeCommand_nil)
  | refused busy within some quiet answers later => exact absurd command (idle takeCommand_nil)
  | @sent others busy within quiet =>
      have count : (data.take printer.ioCount).length = printer.ioCount := List.length_take_of_le within
      rw [takeCommand_printCommand (by omega)] at command
      simp only [Option.some.injEq, Prod.mk.injEq] at command
      obtain ⟨rfl, rfl, rfl⟩ := command
      rw [count]
      generalize made : bjnpSetCommandHeader BJNP_CMD_PRINT printer.seqNo printer.sessionId CMD_TCP_PRINT _ = header
      have same : header.seqNo = printer.seqNo := made ▸ rfl
      have last : ∀ answer : Response, others.flatMap Response.encode ++ answer.encode =
          (others ++ answer :: []).flatMap Response.encode := fun answer => by simp
      rw [last]
      cases accepts with
      | true =>
          refine ⟨data.drop printer.ioCount, ?_, List.take_append_drop _ _⟩
          exact .taken busy within quiet (acknowledges_acknowledgement (within.trans small) fits same) .nil
      | false =>
          have refuses : Acknowledges legible printer 0 (acknowledgement header 0 more) :=
            acknowledges_acknowledgement (Nat.zero_le _) fits same
          refine ⟨data, ?_, rfl⟩
          by_cases empty : printer.ioCount = 0
          · have accepts : Acknowledges legible printer printer.ioCount (acknowledgement header 0 more) := by
              rwa [empty]
            have wire := @Wire.taken legible printer data _ _ _ busy within quiet accepts .nil
            rwa [empty, List.drop_zero] at wire
          · exact .refused busy within empty quiet refuses .nil

/-- A backend without data has nothing unprinted, and may read the next bytes. -/
theorem Wire.refill (wire : Wire legible printer [] toDevice fromDevice unprinted) (chunk : List UInt8) :
    unprinted = [] ∧ Wire legible printer chunk toDevice fromDevice chunk := by
  cases wire with
  | idle free quiet => exact ⟨rfl, .idle free quiet⟩
  | sent busy within quiet =>
      have empty : printer.ioCount = 0 := Nat.le_zero.mp within
      have wire := @Wire.sent legible printer chunk _ busy (by omega) quiet
      rw [empty, List.take_zero] at wire
      exact ⟨rfl, by rwa [empty, List.take_zero]⟩
  | taken busy within quiet answers later =>
      have empty : printer.ioCount = 0 := Nat.le_zero.mp within
      have wire := @Wire.taken legible printer chunk _ _ _ busy (by omega) quiet answers later
      rw [empty, List.drop_zero] at wire
      exact ⟨List.drop_nil, wire⟩
  | refused busy within some quiet answers later => exact absurd (Nat.le_zero.mp within) some

end Steps

/-! ## The backend's calls -/

section Calls

variable {legible : Prop} {printer : Printer} {data toDevice fromDevice unprinted : List UInt8}

/-- What a call of `bjnp_backchannel` does to the connection of a backend with some data. -/
inductive Heard (legible : Prop) (printer : Printer) (data unprinted : List UInt8) : Line × Backchannel → Prop where
  | accepted {line : Line} {written : ℕ} (within : written ≤ data.length)
      (wire : Wire legible line.printer (data.drop written) line.toDevice line.fromDevice unprinted) :
      Heard legible printer data unprinted (line, .ok written)
  | throttled {line : Line} (wire : Wire legible line.printer data line.toDevice line.fromDevice unprinted) :
      Heard legible printer data unprinted (line, .throttle)
  | other {line : Line} (kept : line.printer = printer)
      (wire : Wire legible line.printer data line.toDevice line.fromDevice unprinted) :
      Heard legible printer data unprinted (line, .notAnAck)
  | nothing {line : Line} (kept : line.printer = printer)
      (wire : Wire legible line.printer data line.toDevice line.fromDevice unprinted) (errno : Errno) :
      Heard legible printer data unprinted (line, .ioError errno)
  | lost {line : Line} (left : Left line.toDevice unprinted) {errno : Errno} (last : ¬ errno.Again) :
      Heard legible printer data unprinted (line, .ioError errno)

theorem GivesUp.heard {result : Line × Backchannel} (ends : GivesUp ⟨printer, toDevice, fromDevice⟩ result)
    (left : Left toDevice unprinted) : Heard legible printer data unprinted result := by
  obtain ⟨stream, errno, last, rfl⟩ := ends
  exact .lost left last

end Calls

end XWrt.Bjnp
