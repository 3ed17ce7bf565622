import Mathlib.Algebra.Group.Nat.Defs
import XWrt.Foundation.RingQueue

/-!
# The circular buffers of p910nd

`Buffer_t` with `initBuffer`, `prepBuffer`, `readBuffer` and `writeBuffer` of
`p910nd.c`. A buffer takes bytes from one descriptor and gives them to the
other; every call of `read` and `write` may be short, fail or be interrupted.
-/

namespace XWrt.P910nd

open XWrt.Foundation

/-- `BUFFER_SIZE`. -/
def bufferSize : Nat := 8192

/-- The two descriptors of a job. -/
inductive Fd where
  | network
  | printer
  deriving DecidableEq, Repr

/-- `Buffer_t`; an `outfd` of -1 is `none`, and `err` is kept as its two bits. -/
structure Buffer where
  detectEof : Bool
  infd : Fd
  outfd : Option Fd
  startidx : Nat
  endidx : Nat
  bytes : Nat
  totalin : Nat
  totalout : Nat
  eofRead : Bool
  eofSent : Bool
  readErr : Bool
  writeErr : Bool
  buffer : Nat → UInt8

def initBuffer (buffer : Nat → UInt8) (infd outfd : Fd) (detectEof : Bool) : Buffer where
  detectEof := detectEof
  infd := infd
  outfd := some outfd
  startidx := 0
  endidx := 0
  bytes := 0
  totalin := 0
  totalout := 0
  eofRead := false
  eofSent := false
  readErr := false
  writeErr := false
  buffer := buffer

/-- An `fd_set`. -/
abbrev FdSet := Fd → Bool

/-- Whether `prepBuffer` puts `outfd` into `writefds`. -/
def Buffer.wantsWrite (b : Buffer) : Bool :=
  b.outfd.isSome && !b.writeErr && (b.bytes ≠ 0 || b.eofRead)

/-- Whether `prepBuffer` puts `infd` into `readfds`. -/
def Buffer.wantsRead (b : Buffer) : Bool :=
  !b.readErr && !b.eofRead && b.bytes < bufferSize

/-- `prepBuffer`, on the pair of `readfds` and `writefds`. -/
def prepBuffer (b : Buffer) (sets : FdSet × FdSet) : FdSet × FdSet :=
  (fun fd => sets.1 fd || (b.wantsRead && fd = b.infd),
    fun fd => sets.2 fd || (b.wantsWrite && some fd = b.outfd))

/-- What `read` answers: bytes, or none at the end of the file; `retry` is EINTR,
EAGAIN or EWOULDBLOCK. -/
inductive ReadAnswer where
  | data (bytes : List UInt8)
  | retry
  | failed

/-- What `write` answers. -/
inductive WriteAnswer where
  | accepted (count : Nat)
  | retry
  | failed

/-- What a call of `readBuffer` or `writeBuffer` leaves behind: the buffer, the result
and the bytes that went in or out. -/
structure Transfer where
  buffer : Buffer
  result : Int
  moved : List UInt8

/-- The indices of an empty buffer are reset before a read. -/
def Buffer.rewind (b : Buffer) : Buffer :=
  if b.bytes = 0 then { b with startidx := 0, endidx := 0 } else b

/-- `avail` of `readBuffer`: the free cells in a row from `endidx`. -/
def Buffer.freeRun (b : Buffer) : Nat :=
  if b.bytes = 0 then bufferSize
  else if b.bytes = bufferSize then 0
  else if b.endidx > b.startidx then bufferSize - b.endidx
  else b.startidx - b.endidx

def readBuffer (b : Buffer) (answer : ReadAnswer) : Transfer :=
  if b.readErr then ⟨b, -1, []⟩
  else
    let avail := b.rewind.freeRun
    let b := b.rewind
    if avail = 0 then ⟨b, 0, []⟩
    else
      match answer with
      | .data bytes =>
          let data := bytes.take avail
          if data.length > 0 then
            let endidx := b.endidx + data.length
            ⟨{ b with
                buffer := RingQueue.store b.buffer b.endidx data
                totalin := (b.totalin + data.length) % 2 ^ 64
                bytes := b.bytes + data.length
                endidx := if endidx = bufferSize then 0 else endidx },
              data.length, data⟩
          else if b.detectEof then ⟨{ b with eofRead := true }, 0, []⟩
          else ⟨b, 0, []⟩
      | .retry => ⟨b, 0, []⟩
      | .failed => ⟨{ b with readErr := true, eofRead := b.eofRead || b.detectEof }, -1, []⟩

/-- `avail` of `writeBuffer`: the buffered bytes in a row from `startidx`. -/
def Buffer.fullRun (b : Buffer) : Nat :=
  if b.bytes = 0 ∨ b.writeErr then 0
  else if b.endidx > b.startidx then b.endidx - b.startidx
  else bufferSize - b.startidx

/-- The update of `writeBuffer` after `count` bytes have gone. -/
def Buffer.advance (b : Buffer) (count : Nat) : Buffer :=
  let startidx := b.startidx + count
  { b with
    startidx := if startidx = bufferSize then 0 else startidx
    totalout := if b.outfd.isSome then (b.totalout + count) % 2 ^ 64 else b.totalout
    bytes := b.bytes - count }

def writeBuffer (b : Buffer) (answer : WriteAnswer) : Transfer :=
  let avail := b.fullRun
  if avail = 0 then ⟨{ b with eofSent := b.eofSent || b.eofRead }, 0, []⟩
  else
    match b.outfd, answer with
    | none, _ => ⟨b.advance avail, avail, RingQueue.block b.buffer b.startidx avail⟩
    | some _, .accepted count =>
        let count := min count avail
        ⟨b.advance count, count, RingQueue.block b.buffer b.startidx count⟩
    | some _, .retry => ⟨b, 0, []⟩
    | some _, .failed => ⟨{ b with writeErr := true }, -1, []⟩

/-! ## The invariant of the ring -/

/-- The bytes that wait in the buffer. -/
def Buffer.contents (b : Buffer) : List UInt8 :=
  RingQueue.contents bufferSize b.buffer b.startidx b.bytes

structure Buffer.Valid (b : Buffer) : Prop where
  start : b.startidx < bufferSize
  fits : b.bytes ≤ bufferSize
  behind : b.endidx = RingQueue.slot bufferSize b.startidx b.bytes

theorem bufferSize_pos : 0 < bufferSize := by decide

theorem initBuffer_valid (buffer : Nat → UInt8) (infd outfd : Fd) (detectEof : Bool) :
    (initBuffer buffer infd outfd detectEof).Valid :=
  ⟨bufferSize_pos, Nat.zero_le _, rfl⟩

namespace Buffer

variable {b : Buffer}

theorem rewind_valid (valid : b.Valid) : b.rewind.Valid := by
  unfold rewind
  split
  · rename_i empty
    exact ⟨bufferSize_pos, valid.fits, by rw [empty]; rfl⟩
  · exact valid

theorem rewind_contents : b.rewind.contents = b.contents := by
  unfold rewind
  split
  · rename_i empty
    rw [contents, contents, empty, RingQueue.contents_zero, RingQueue.contents_zero]
  · rfl

/-- A read fits into the free cells behind the last byte: it stays inside the memory
and off the unread bytes. -/
theorem freeRun_fits (valid : b.Valid) :
    b.rewind.endidx + b.rewind.freeRun ≤ bufferSize ∧
      b.rewind.bytes + b.rewind.freeRun ≤ bufferSize := by
  obtain ⟨start, fits, behind⟩ := rewind_valid valid
  have rewound : b.rewind.bytes = 0 → b.rewind.endidx = 0 := by
    unfold rewind
    split
    · exact fun _ => rfl
    · exact fun empty => absurd empty ‹_›
  unfold freeRun
  unfold RingQueue.slot at behind
  split_ifs at behind ⊢ <;> omega

/-- The free run starts behind the last unread byte. -/
theorem contents_read (valid : b.Valid) {data : List UInt8} (fits : data.length ≤ b.freeRun)
    (room : b.endidx + b.freeRun ≤ bufferSize ∧ b.bytes + b.freeRun ≤ bufferSize) :
    RingQueue.contents bufferSize (RingQueue.store b.buffer b.endidx data) b.startidx
        (b.bytes + data.length) =
      b.contents ++ data :=
  RingQueue.contents_store (by omega) valid.behind (by omega)

theorem slot_add {start count more : ℕ} (inside : start < bufferSize)
    (fits : count + more ≤ bufferSize)
    (unwrapped : RingQueue.slot bufferSize start count + more ≤ bufferSize) :
    RingQueue.slot bufferSize start (count + more) =
      if RingQueue.slot bufferSize start count + more = bufferSize then 0
      else RingQueue.slot bufferSize start count + more := by
  unfold RingQueue.slot at *
  split_ifs at * <;> omega

/-- The buffered run is in order from `startidx` and does not wrap. -/
theorem fullRun_fits (valid : b.Valid) :
    b.startidx + b.fullRun ≤ bufferSize ∧ b.fullRun ≤ b.bytes := by
  obtain ⟨start, fits, behind⟩ := valid
  unfold fullRun
  unfold RingQueue.slot at behind
  split_ifs at behind ⊢ <;> omega

theorem fullRun_eq_zero (valid : b.Valid) (nothing : b.fullRun = 0) :
    b.bytes = 0 ∨ b.writeErr = true := by
  have start := valid.start
  unfold fullRun at nothing
  split_ifs at nothing with done ordered
  · exact done
  · omega
  · omega

theorem advance_valid (valid : b.Valid) {count : ℕ} (within : count ≤ b.fullRun) :
    (b.advance count).Valid := by
  obtain ⟨unwrapped, inside⟩ := fullRun_fits valid
  obtain ⟨start, fits, behind⟩ := valid
  constructor
  · simp only [advance]
    split <;> omega
  · simp only [advance]
    omega
  · simp only [advance, behind]
    unfold RingQueue.slot
    split_ifs <;> omega

theorem advance_contents (valid : b.Valid) {count : ℕ} (within : count ≤ b.fullRun) :
    RingQueue.block b.buffer b.startidx count ++ (b.advance count).contents = b.contents := by
  obtain ⟨unwrapped, inside⟩ := fullRun_fits valid
  have moved : (b.advance count).startidx = RingQueue.slot bufferSize b.startidx count := by
    have start := valid.start
    simp only [advance]
    unfold RingQueue.slot
    split_ifs <;> omega
  have left : (b.advance count).bytes = b.bytes - count := rfl
  rw [contents, contents, moved, left]
  exact RingQueue.block_append_contents valid.start valid.fits (by omega) (by omega)

end Buffer

/-! ## What the operations do to the queue -/

/-- `readBuffer` appends what it read to the waiting bytes. -/
structure Reads (b : Buffer) (t : Transfer) : Prop where
  valid : t.buffer.Valid
  contents : t.buffer.contents = b.contents ++ t.moved
  outfd : t.buffer.outfd = b.outfd
  writeErr : t.buffer.writeErr = b.writeErr
  eofSent : t.buffer.eofSent = b.eofSent

/-- `writeBuffer` takes what it moves off the front of the waiting bytes. -/
structure Writes (b : Buffer) (t : Transfer) : Prop where
  valid : t.buffer.Valid
  contents : t.moved ++ t.buffer.contents = b.contents
  outfd : t.buffer.outfd = b.outfd
  result : t.buffer.writeErr = true → b.writeErr = true ∨ t.result < 0 ∧ b.outfd.isSome
  eofSent : t.buffer.eofSent = true → b.eofSent = true ∨ b.writeErr = true ∨ t.buffer.bytes = 0

theorem rewind_flags (b : Buffer) : b.rewind.outfd = b.outfd ∧
    b.rewind.writeErr = b.writeErr ∧ b.rewind.eofSent = b.eofSent := by
  unfold Buffer.rewind
  split
  · exact ⟨rfl, rfl, rfl⟩
  · exact ⟨rfl, rfl, rfl⟩

/-- A read that brings nothing leaves the rewound ring. -/
theorem reads_nothing {b b' : Buffer} (valid : b.Valid) (result : Int)
    (same : { b' with eofRead := b.rewind.eofRead, readErr := b.rewind.readErr } = b.rewind) :
    Reads b ⟨b', result, []⟩ := by
  obtain ⟨outfd, writeErr, eofSent⟩ := rewind_flags b
  have ring := b.rewind_valid valid
  rw [← same] at ring outfd writeErr eofSent
  constructor
  · exact ⟨ring.start, ring.fits, ring.behind⟩
  · have waiting : ({ b' with
        eofRead := b.rewind.eofRead, readErr := b.rewind.readErr } : Buffer).contents =
          b.contents := by
      rw [same, Buffer.rewind_contents]
    rw [List.append_nil, ← waiting]
    rfl
  · exact outfd
  · exact writeErr
  · exact eofSent

theorem readBuffer_reads {b : Buffer} (valid : b.Valid) (answer : ReadAnswer) :
    Reads b (readBuffer b answer) := by
  unfold readBuffer
  split
  · exact ⟨valid, (List.append_nil _).symm, rfl, rfl, rfl⟩
  · simp only
    split
    · exact reads_nothing valid 0 rfl
    · cases answer with
      | retry => exact reads_nothing valid 0 rfl
      | failed => exact reads_nothing valid (-1) rfl
      | data bytes =>
          simp only
          split
          · obtain ⟨outfd, writeErr, eofSent⟩ := rewind_flags b
            have room := b.freeRun_fits valid
            have ring := b.rewind_valid valid
            have fits : (bytes.take b.rewind.freeRun).length ≤ b.rewind.freeRun :=
              List.length_take_le _ _
            have behind := ring.behind
            constructor
            · refine ⟨ring.start, ?_, ?_⟩
              · simp only
                omega
              · simp only
                rw [Buffer.slot_add ring.start (by omega) (by omega), ← behind]
            · have before : b.rewind.contents = b.contents := Buffer.rewind_contents
              rw [← before]
              exact Buffer.contents_read ring fits room
            · exact outfd
            · exact writeErr
            · exact eofSent
          · split
            · exact reads_nothing valid 0 rfl
            · exact reads_nothing valid 0 rfl

theorem writes_advance {b : Buffer} (valid : b.Valid) {count : ℕ} (within : count ≤ b.fullRun)
    (result : Int) :
    Writes b ⟨b.advance count, result, RingQueue.block b.buffer b.startidx count⟩ := by
  constructor
  · exact b.advance_valid valid within
  · exact b.advance_contents valid within
  · rfl
  · exact Or.inl
  · exact Or.inl

theorem writeBuffer_writes {b : Buffer} (valid : b.Valid) (answer : WriteAnswer) :
    Writes b (writeBuffer b answer) := by
  unfold writeBuffer
  simp only
  split
  · rename_i nothing
    constructor
    · exact ⟨valid.start, valid.fits, valid.behind⟩
    · rfl
    · rfl
    · exact Or.inl
    · intro _
      rcases Buffer.fullRun_eq_zero valid nothing with empty | broken
      · exact .inr (.inr empty)
      · exact .inr (.inl broken)
  · split
    · exact writes_advance valid (Nat.le_refl _) _
    · exact writes_advance valid (Nat.min_le_right _ _) _
    · exact ⟨valid, rfl, rfl, Or.inl, Or.inl⟩
    · rename_i fd isOpen
      have negative : (-1 : Int) < 0 := by decide
      refine ⟨⟨valid.start, valid.fits, valid.behind⟩, rfl, rfl, fun _ => .inr ⟨negative, ?_⟩,
        Or.inl⟩
      rw [isOpen]
      rfl

end XWrt.P910nd
