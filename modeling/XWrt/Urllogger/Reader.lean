import XWrt.Foundation.Framing

/-!
# The urllogger event reader

`process_buffer` and `read_loop` of `urllogger-reader.c`. The kernel writes
version 2 event records, a 62-byte header and a payload; the reader takes them
in reads of any size and prints one line for each. Only the first `pending`
bytes of the C buffer are ever read, so the buffer is the list of those bytes.
-/

namespace XWrt.Urllogger

open XWrt.Foundation

/-- `READ_BUF_LEN`. -/
def readBufLen : Nat := 65536

/-- `sizeof(struct natflow_urllogger_event_hdr)`. -/
def hdrSize : Nat := 62

/-- The byte order of the machine: the header is copied as it is. -/
inductive ByteOrder where
  | little
  | big
  deriving DecidableEq, Repr

def readU16 (order : ByteOrder) (bytes : List UInt8) (offset : Nat) : Nat :=
  let first := (bytes.getD offset 0).toNat
  let second := (bytes.getD (offset + 1) 0).toNat
  match order with
  | .little => first + 0x100 * second
  | .big => 0x100 * first + second

def readU32 (order : ByteOrder) (bytes : List UInt8) (offset : Nat) : Nat :=
  let first := readU16 order bytes offset
  let second := readU16 order bytes (offset + 2)
  match order with
  | .little => first + 0x10000 * second
  | .big => 0x10000 * first + second

/-- `struct natflow_urllogger_event_hdr`. -/
structure EventHdr where
  version : Nat
  headerLen : Nat
  recordLen : Nat
  family : Nat
  timestamp : Nat
  sport : Nat
  dport : Nat
  sip : List UInt8
  dip : List UInt8
  mac : List UInt8
  hits : Nat
  hostLen : Nat
  method : UInt8
  source : UInt8
  aclIdx : UInt8
  aclAction : UInt8
  deriving DecidableEq, Repr

/-- The `memcpy` of the packed header. -/
def eventHdr (order : ByteOrder) (bytes : List UInt8) : EventHdr where
  version := readU16 order bytes 0
  headerLen := readU16 order bytes 2
  recordLen := readU16 order bytes 4
  family := readU16 order bytes 6
  timestamp := readU32 order bytes 8
  sport := readU16 order bytes 12
  dport := readU16 order bytes 14
  sip := (bytes.drop 16).take 16
  dip := (bytes.drop 32).take 16
  mac := (bytes.drop 48).take 6
  hits := readU16 order bytes 54
  hostLen := readU16 order bytes 56
  method := bytes.getD 58 0
  source := bytes.getD 59 0
  aclIdx := bytes.getD 60 0
  aclAction := bytes.getD 61 0

/-- The arguments of one `print_event` call. -/
structure Event where
  hdr : EventHdr
  payload : List UInt8
  deriving DecidableEq, Repr

/-- The conditions under which `process_buffer` stops at a header. -/
def Rejected (h : EventHdr) (available : Nat) : Prop :=
  h.version ≠ 2 ∨ h.headerLen < hdrSize ∨ h.recordLen < h.headerLen ∨ available < h.recordLen

instance (h : EventHdr) (available : Nat) : Decidable (Rejected h available) :=
  inferInstanceAs (Decidable (_ ∨ _ ∨ _ ∨ _))

/-- The `while` loop of `process_buffer` from offset `off`: the printed events and
the final offset. -/
def processLoop (order : ByteOrder) (buf : List UInt8) (off : Nat) : List Event × Nat :=
  if _room : hdrSize ≤ buf.length - off then
    let h := eventHdr order ((buf.drop off).take hdrSize)
    if _rejected : Rejected h (buf.length - off) then ([], off)
    else
      let payload := (buf.drop (off + h.headerLen)).take (h.recordLen - h.headerLen)
      let rest := processLoop order buf (off + h.recordLen)
      (⟨h, payload⟩ :: rest.1, rest.2)
  else ([], off)
termination_by buf.length - off
decreasing_by
  have pos : 0 < hdrSize := by decide
  simp only [Rejected, not_or, not_lt] at _rejected
  change buf.length - (off + h.recordLen) < buf.length - off
  omega

/-- `process_buffer`: the printed events and the bytes still pending. -/
def processBuffer (order : ByteOrder) (buf : List UInt8) : List Event × List UInt8 :=
  let (printed, off) := processLoop order buf 0
  let pending := buf.drop off
  if pending.length = readBufLen then (printed, []) else (printed, pending)

/-! ## The read loop -/

/-- What `wait_queue_readable` returns. -/
inductive Ready where
  | failed
  | timeout
  | readable

/-- What `read` returns; a successful read takes at most `size` bytes. -/
inductive ReadResult where
  | taken (size : Nat)
  | interrupted
  | failed

/-- One answer of the environment to the reader, or a signal. -/
inductive Answer where
  | signal
  | poll (lockAlive : Bool) (ready : Ready)
  | read (result : ReadResult)

/-- The head of the outer loop, the head of the inner loop, or the end. -/
inductive At where
  | outer
  | inner
  | stopped
  deriving DecidableEq

/-- The reader and the bytes the queue has not delivered yet. -/
structure State where
  loop : At
  exiting : Bool
  pending : List UInt8
  printed : List Event
  unread : List UInt8

/-- A successful `read` into the free part of the buffer, and what follows it. -/
def State.receive (order : ByteOrder) (s : State) (size : Nat) : State :=
  let data := s.unread.take (min size (readBufLen - s.pending.length))
  if data.length = 0 then { s with loop := .outer }
  else
    let processed := processBuffer order (s.pending ++ data)
    { s with
      unread := s.unread.drop data.length
      pending := processed.2
      printed := s.printed ++ processed.1
      loop := if data.length < readBufLen - processed.2.length then .outer else .inner }

/-- One step of `read_loop`. An answer to a call the reader is not making is
ignored. -/
def State.step (order : ByteOrder) (s : State) : Answer → State
  | .signal => { s with exiting := true }
  | .poll lockAlive ready =>
      if s.loop = .outer then
        if s.exiting || !lockAlive then { s with loop := .stopped }
        else
          match ready with
          | .failed => { s with loop := .stopped }
          | .timeout => s
          | .readable => { s with loop := .inner }
      else s
  | .read result =>
      if s.loop = .inner then
        let s := if s.pending.length ≥ readBufLen then { s with pending := [] } else s
        match result with
        | .interrupted => if s.exiting then { s with loop := .outer } else s
        | .failed => { s with exiting := true, loop := .outer }
        | .taken size => s.receive order size
      else s

/-- `read_loop` on a stream, as far as the answers go. -/
def readLoop (order : ByteOrder) (stream : List UInt8) (answers : List Answer) : State :=
  answers.foldl (State.step order) ⟨.outer, false, [], [], stream⟩

/-! ## Records as frames -/

/-- A record the code accepts: its header declares exactly its length. -/
structure WellFormed (order : ByteOrder) (record : List UInt8) : Prop where
  header : hdrSize ≤ record.length
  version : (eventHdr order (record.take hdrSize)).version = 2
  headerLen : hdrSize ≤ (eventHdr order (record.take hdrSize)).headerLen
  payload : (eventHdr order (record.take hdrSize)).headerLen ≤
    (eventHdr order (record.take hdrSize)).recordLen
  length : (eventHdr order (record.take hdrSize)).recordLen = record.length

/-- The event a record carries. -/
def eventOf (order : ByteOrder) (record : List UInt8) : Event :=
  let h := eventHdr order (record.take hdrSize)
  ⟨h, (record.drop h.headerLen).take (h.recordLen - h.headerLen)⟩

/-- One round of the loop at the start of a buffer. -/
def decodeRecord (order : ByteOrder) (bytes : List UInt8) : Option (Event × Nat) :=
  if hdrSize ≤ bytes.length then
    let h := eventHdr order (bytes.take hdrSize)
    if Rejected h bytes.length then none else some (eventOf order bytes, h.recordLen)
  else none

theorem decodeRecord_eq_some {order : ByteOrder} {bytes : List UInt8} {event : Event} {n : Nat} :
    decodeRecord order bytes = some (event, n) ↔
      hdrSize ≤ bytes.length ∧ ¬ Rejected (eventHdr order (bytes.take hdrSize)) bytes.length ∧
        eventOf order bytes = event ∧ (eventHdr order (bytes.take hdrSize)).recordLen = n := by
  unfold decodeRecord
  by_cases room : hdrSize ≤ bytes.length
  · by_cases rejected : Rejected (eventHdr order (bytes.take hdrSize)) bytes.length
    · simp [room, rejected]
    · simp [room, rejected]
  · simp [room]

/-- Bytes after the record do not change the header or the payload. -/
theorem decodeRecord_stable {order : ByteOrder} {bytes : List UInt8} {event : Event} {n : Nat}
    (more : List UInt8) (found : decodeRecord order bytes = some (event, n)) :
    decodeRecord order (bytes ++ more) = some (event, n) := by
  obtain ⟨room, accepted, same, length⟩ := decodeRecord_eq_some.mp found
  have header : (bytes ++ more).take hdrSize = bytes.take hdrSize := List.take_append_of_le_length room
  simp only [Rejected, not_or, not_lt] at accepted
  obtain ⟨version, headerLen, payload, fits⟩ := accepted
  refine decodeRecord_eq_some.mpr ⟨?_, ?_, ?_, ?_⟩
  · rw [List.length_append]
    omega
  · rw [header, List.length_append]
    simp only [Rejected, not_or, not_lt]
    exact ⟨version, headerLen, payload, by omega⟩
  · rw [← same]
    unfold eventOf
    simp only [header]
    rw [List.drop_append_of_le_length (by omega), List.take_append_of_le_length (by rw [List.length_drop]; omega)]
  · rw [header, length]

/-- The record decoder of the reader. -/
def recordDecoder (order : ByteOrder) : Decoder UInt8 Event where
  decode := decodeRecord order
  consumes found := by
    obtain ⟨room, accepted, _, length⟩ := decodeRecord_eq_some.mp found
    have pos : 0 < hdrSize := by decide
    simp only [Rejected, not_or, not_lt] at accepted
    omega
  stable more found := decodeRecord_stable more found

theorem WellFormed.isFrame {order : ByteOrder} {record : List UInt8} (wf : WellFormed order record) :
    (recordDecoder order).IsFrame record (eventOf order record) := by
  refine decodeRecord_eq_some.mpr ⟨wf.header, ?_, rfl, wf.length⟩
  simp only [Rejected, not_or, not_lt, not_not]
  exact ⟨wf.version, wf.headerLen, wf.payload, wf.length.le⟩

theorem readU16_lt (order : ByteOrder) (bytes : List UInt8) (offset : Nat) :
    readU16 order bytes offset < 65536 := by
  have first := (bytes.getD offset 0).toNat_lt
  have second := (bytes.getD (offset + 1) 0).toNat_lt
  unfold readU16
  cases order <;> simp only <;> omega

/-- Records are shorter than the buffer, so a part of one always leaves room. -/
theorem WellFormed.length_lt {order : ByteOrder} {record : List UInt8} (wf : WellFormed order record) :
    record.length < readBufLen := by
  rw [← wf.length]
  exact readU16_lt order _ 4

/-! ## The buffer loop is the decoder -/

theorem processLoop_eq_drain (order : ByteOrder) (buf : List UInt8) (off : Nat) (within : off ≤ buf.length) :
    (processLoop order buf off).1 = ((recordDecoder order).drain (buf.drop off)).1 ∧
      buf.drop (processLoop order buf off).2 = ((recordDecoder order).drain (buf.drop off)).2 := by
  induction off using processLoop.induct order buf with
  | case1 off room h rejected =>
      have stops : (recordDecoder order).decode (buf.drop off) = none := by
        change decodeRecord order _ = none
        unfold decodeRecord
        rw [List.length_drop, if_pos room]
        exact if_pos rejected
      have result : processLoop order buf off = ([], off) := by
        rw [processLoop, dif_pos room]
        exact dif_pos rejected
      rw [result, Decoder.drain_of_none _ stops]
      exact ⟨rfl, rfl⟩
  | case2 off room h accepted ih =>
      have payload : eventOf order (buf.drop off) =
          ⟨h, (buf.drop (off + h.headerLen)).take (h.recordLen - h.headerLen)⟩ := by
        simp only [eventOf, List.drop_drop]
        rfl
      have decoded : (recordDecoder order).decode (buf.drop off) =
          some (eventOf order (buf.drop off), h.recordLen) := by
        change decodeRecord order _ = _
        unfold decodeRecord
        rw [List.length_drop, if_pos room]
        exact if_neg accepted
      have result : processLoop order buf off =
          (eventOf order (buf.drop off) :: (processLoop order buf (off + h.recordLen)).1,
            (processLoop order buf (off + h.recordLen)).2) := by
        rw [payload, processLoop, dif_pos room]
        exact dif_neg accepted
      have fits : off + h.recordLen ≤ buf.length := by
        simp only [Rejected, not_or, not_lt] at accepted
        omega
      obtain ⟨events, rest⟩ := ih fits
      rw [result, Decoder.drain_of_some _ decoded, List.drop_drop]
      exact ⟨congrArg (List.cons _) events, rest⟩
  | case3 off short =>
      have stops : (recordDecoder order).decode (buf.drop off) = none := by
        change decodeRecord order _ = none
        unfold decodeRecord
        rw [List.length_drop, if_neg short]
      have result : processLoop order buf off = ([], off) := by
        rw [processLoop, dif_neg short]
      rw [result, Decoder.drain_of_none _ stops]
      exact ⟨rfl, rfl⟩

/-- Unless a full buffer is left over, `process_buffer` drains the buffer. -/
theorem processBuffer_eq_drain (order : ByteOrder) (buf : List UInt8)
    (room : ((recordDecoder order).drain buf).2.length ≠ readBufLen) :
    processBuffer order buf = (recordDecoder order).drain buf := by
  obtain ⟨events, rest⟩ := processLoop_eq_drain order buf 0 (Nat.zero_le _)
  rw [List.drop_zero] at events rest
  unfold processBuffer
  dsimp only
  rw [rest, if_neg room, events]

/-! ## Runs of the read loop -/

/-- The bytes taken from the stream have been drained exactly. -/
def Drained (order : ByteOrder) (stream : List UInt8) (s : State) : Prop :=
  ∃ taken : List UInt8, stream = taken ++ s.unread ∧
    (recordDecoder order).drain taken = (s.printed, s.pending)

section Records

variable {order : ByteOrder} {records : List (List UInt8)}

/-- What a drained state says about the records. -/
theorem Drained.split (wf : ∀ record ∈ records, WellFormed order record) {s : State}
    (drained : Drained order records.flatten s) :
    ∃ done rest : List (List UInt8), records = done ++ rest ∧ s.printed = done.map (eventOf order) ∧
      records.flatten = done.flatten ++ s.pending ++ s.unread ∧ Decoder.PartOfNext s.pending rest := by
  obtain ⟨taken, streamEq, result⟩ := drained
  obtain ⟨done, rest, pending, split, takenEq, part, drainEq⟩ :=
    (recordDecoder order).drain_frames_pending (eventOf order) records
      (fun record member => (wf record member).isFrame) ⟨s.unread, streamEq.symm⟩
  obtain ⟨printedEq, pendingEq⟩ := Prod.mk.inj (result.symm.trans drainEq)
  subst pendingEq
  exact ⟨done, rest, split, printedEq, by rw [streamEq, takenEq], part⟩

/-- A part of a record leaves room in the buffer. -/
theorem partOfNext_length_lt {pending : List UInt8} {rest : List (List UInt8)}
    (wf : ∀ record ∈ rest, WellFormed order record) (part : Decoder.PartOfNext pending rest) :
    pending.length < readBufLen := by
  cases rest with
  | nil =>
      rw [show pending = [] from part]
      decide
  | cons next rest => exact part.2.trans (wf next (.head _)).length_lt

theorem Drained.pending_lt (wf : ∀ record ∈ records, WellFormed order record) {s : State}
    (drained : Drained order records.flatten s) : s.pending.length < readBufLen := by
  obtain ⟨done, rest, split, _, _, part⟩ := drained.split wf
  refine partOfNext_length_lt (fun record member => wf record ?_) part
  rw [split]
  exact List.mem_append_right _ member

theorem Drained.receive (wf : ∀ record ∈ records, WellFormed order record) {s : State}
    (drained : Drained order records.flatten s) (size : Nat) :
    Drained order records.flatten (s.receive order size) := by
  unfold State.receive
  generalize chunk : s.unread.take (min size (readBufLen - s.pending.length)) = data
  dsimp only
  split
  · exact drained
  · obtain ⟨taken, streamEq, result⟩ := drained
    have before : data <+: s.unread := chunk ▸ List.take_prefix _ _
    have moved : records.flatten = (taken ++ data) ++ s.unread.drop data.length := by
      rw [List.append_assoc, List.prefix_iff_eq_append.mp before]
      exact streamEq
    have appended := (recordDecoder order).drain_append taken data
    rw [result] at appended
    simp only at appended
    -- The bytes drained so far are a prefix of the stream, so too little is left to fill the buffer.
    have room : ((recordDecoder order).drain (s.pending ++ data)).2.length ≠ readBufLen := by
      have next : Drained order records.flatten
          { s with
            unread := s.unread.drop data.length
            printed := s.printed ++ ((recordDecoder order).drain (s.pending ++ data)).1
            pending := ((recordDecoder order).drain (s.pending ++ data)).2 } :=
        ⟨taken ++ data, moved, appended⟩
      exact (next.pending_lt wf).ne
    refine ⟨taken ++ data, moved, ?_⟩
    rw [appended, processBuffer_eq_drain order _ room]

/-- Every step of the loop keeps the reader in step with the stream. -/
theorem Drained.step (wf : ∀ record ∈ records, WellFormed order record) {s : State}
    (drained : Drained order records.flatten s) (answer : Answer) :
    Drained order records.flatten (s.step order answer) := by
  have room := drained.pending_lt wf
  cases answer with
  | signal => exact drained
  | poll lockAlive ready =>
      unfold State.step
      dsimp only
      split
      · split
        · exact drained
        · cases ready <;> exact drained
      · exact drained
  | read result =>
      unfold State.step
      dsimp only
      rw [if_neg (not_le.mpr room)]
      split
      · cases result with
        | taken size => exact drained.receive wf size
        | interrupted =>
            dsimp only
            split <;> exact drained
        | failed => exact drained
      · exact drained

theorem readLoop_drained (wf : ∀ record ∈ records, WellFormed order record) (answers : List Answer) :
    Drained order records.flatten (readLoop order records.flatten answers) := by
  have start : Drained order records.flatten ⟨.outer, false, [], [], records.flatten⟩ := by
    refine ⟨[], rfl, (recordDecoder order).drain_of_none ?_⟩
    exact (rfl : decodeRecord order [] = none)
  unfold readLoop
  generalize (⟨.outer, false, [], [], records.flatten⟩ : State) = s at start
  induction answers generalizing s with
  | nil => exact start
  | cons answer rest ih => exact ih _ (start.step wf answer)

end Records

/-- Framing is lossless: at every point of every run the records read completely
have been printed, each once and in order, the pending bytes are the part of the
next record read so far, and the buffer still has room. -/
theorem readLoop_lossless (order : ByteOrder) (records : List (List UInt8))
    (wf : ∀ record ∈ records, WellFormed order record) (answers : List Answer) :
    let s := readLoop order records.flatten answers
    (∃ done rest : List (List UInt8), records = done ++ rest ∧ s.printed = done.map (eventOf order) ∧
      records.flatten = done.flatten ++ s.pending ++ s.unread ∧ Decoder.PartOfNext s.pending rest) ∧
      s.pending.length < readBufLen ∧
      (s.unread = [] → s.printed = records.map (eventOf order) ∧ s.pending = []) := by
  intro s
  have drained := readLoop_drained wf answers
  obtain ⟨done, rest, split, printed, bytes, part⟩ := drained.split wf
  refine ⟨⟨done, rest, split, printed, bytes, part⟩, drained.pending_lt wf, ?_⟩
  intro finished
  rw [finished, List.append_nil] at bytes
  have whole : records.flatten = done.flatten ++ rest.flatten := by rw [split, List.flatten_append]
  have none := part.eq_nil (List.append_cancel_left (whole.symm.trans bytes))
  rw [none] at split part
  rw [List.append_nil] at split
  exact ⟨by rw [split]; exact printed, part⟩

/-- A record of 62 header bytes and one payload byte, little endian. -/
def sampleRecord : List UInt8 :=
  [2, 0, 62, 0, 63, 0, 2, 0] ++ List.replicate 54 0 ++ [65]

theorem readLoop_lossless_two_records :
    let s := readLoop .little [sampleRecord, sampleRecord].flatten [.poll true .readable, .read (.taken 200)]
    s.printed = [sampleRecord, sampleRecord].map (eventOf .little) ∧ s.pending = [] := by
  refine (readLoop_lossless .little [sampleRecord, sampleRecord] ?_ _).2.2 (by decide +kernel)
  intro record member
  have same : record = sampleRecord := by simpa using member
  rw [same]
  exact ⟨by decide, by decide, by decide, by decide, by decide⟩

end XWrt.Urllogger
