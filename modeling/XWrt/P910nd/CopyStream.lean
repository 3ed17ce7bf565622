import XWrt.P910nd.Buffer

/-!
# The copy loop of p910nd

`copy_stream` of `p910nd.c` as a machine that advances by one stage of its loop
at a time. Each stage takes one answer of the environment: the clocks, the
result of `select` and the result of the `read` or `write` of the stage. Beside
each buffer stand the bytes that came in and that went out, so that the states
of the machine are the moments between two calls.
-/

namespace XWrt.P910nd

open XWrt.Foundation

/-- A `struct timeval`. -/
structure Time where
  sec : Int
  usec : Int
  deriving DecidableEq, Repr

def Time.After (now before : Time) : Prop :=
  now.sec > before.sec ∨ now.sec = before.sec ∧ now.usec > before.usec

instance (now before : Time) : Decidable (now.After before) :=
  inferInstanceAs (Decidable (_ ∨ _))

/-- A tenth of a second later. -/
def Time.later (t : Time) : Time :=
  let usec := t.usec + 100000
  if usec > 1000000 then ⟨t.sec + 1, usec - 1000000⟩ else ⟨t.sec, usec⟩

/-- One direction: its buffer, the bytes read, the bytes written and the bytes
discarded after the output was given up. -/
structure Line where
  buffer : Buffer
  taken : List UInt8
  sent : List UInt8
  discarded : List UInt8

/-- A call of `readBuffer` and its result. -/
def Line.read (line : Line) (answer : ReadAnswer) : Line × Int :=
  let t := readBuffer line.buffer answer
  ({ line with buffer := t.buffer, taken := line.taken ++ t.moved }, t.result)

/-- A call of `writeBuffer` and its result. -/
def Line.write (line : Line) (answer : WriteAnswer) : Line × Int :=
  let t := writeBuffer line.buffer answer
  if line.buffer.outfd.isSome then
    ({ line with buffer := t.buffer, sent := line.sent ++ t.moved }, t.result)
  else ({ line with buffer := t.buffer, discarded := line.discarded ++ t.moved }, t.result)

/-- What `select` answers; `ready` holds the descriptors that are ready. -/
inductive SelectAnswer where
  | ready (readable writable : FdSet)
  | interrupted
  | failed

/-- The answers of the environment during one stage. -/
structure Answer where
  timerClock : Time
  clock : Time
  select : SelectAnswer
  read : ReadAnswer
  write : WriteAnswer
  transferClock : Time

/-- The stages of the loops, and the ways they end. -/
inductive Stage where
  | loop
  | networkRead
  | printerRead
  | printerWrite
  | networkWrite
  | plainLoop
  | plainWrite
  | finished
  | idle
  | selectFailed
  deriving DecidableEq, Repr

/-- The variables of `copy_stream`. -/
structure State where
  stage : Stage
  networkToPrinter : Line
  printerToNetwork : Line
  readfds : FdSet
  writefds : FdSet
  timer : Bool
  now : Time
  thenTime : Time
  lastReadTime : Time

/-- The head of the bidirectional loop, up to `select`. -/
def State.selectStage (s : State) (answer : Answer) : State :=
  if ¬ s.networkToPrinter.buffer.eofSent ∧ ¬ s.networkToPrinter.buffer.writeErr ∧
      ¬ s.printerToNetwork.buffer.writeErr then
    let empty : FdSet := fun _ => false
    let sets := prepBuffer s.printerToNetwork.buffer
      (prepBuffer s.networkToPrinter.buffer (empty, empty))
    let timer := s.timer && ¬ answer.timerClock.After s.thenTime
    let readfds : FdSet := if timer then fun fd => sets.1 fd && fd ≠ .printer else sets.1
    let s := { s with timer := timer, now := answer.clock }
    match answer.select with
    | .interrupted => s
    | .failed => { s with stage := .selectFailed }
    | .ready readable writable =>
        { s with
          readfds := fun fd => readfds fd && readable fd
          writefds := fun fd => sets.2 fd && writable fd
          stage := .networkRead }
  else { s with stage := .finished }

/-- Reading from the network. -/
def State.readNetwork (s : State) (answer : Answer) : State :=
  if s.readfds .network then
    let read := s.networkToPrinter.read answer.read
    { s with
      networkToPrinter := read.1
      lastReadTime := if read.2 > 0 then answer.transferClock else s.lastReadTime }
  else s

/-- Reading from the network, and the idle time-out. -/
def State.networkReadStage (s : State) (answer : Answer) : State :=
  let s := s.readNetwork answer
  if ¬ s.networkToPrinter.buffer.eofRead ∧ s.networkToPrinter.buffer.bytes = 0 ∧
      s.now.sec - s.lastReadTime.sec ≥ 30 then
    { s with stage := .idle }
  else { s with stage := .printerRead }

/-- Reading from the printer, at most every tenth of a second. -/
def State.printerReadStage (s : State) (answer : Answer) : State :=
  if s.readfds .printer then
    let read := s.printerToNetwork.read answer.read
    let s := { s with printerToNetwork := read.1, stage := .printerWrite }
    if read.2 > 0 then { s with thenTime := answer.transferClock.later, timer := true } else s
  else { s with stage := .printerWrite }

/-- Writing to the printer. -/
def State.printerWriteStage (s : State) (answer : Answer) : State :=
  if s.writefds .printer then
    let write := s.networkToPrinter.write answer.write
    { s with
      networkToPrinter := write.1
      lastReadTime := if write.2 > 0 then answer.transferClock else s.lastReadTime
      stage := .networkWrite }
  else { s with stage := .networkWrite }

/-- Writing to the network; after an error further printer data is discarded. -/
def State.networkWriteStage (s : State) (answer : Answer) : State :=
  if s.writefds .network ∨ s.printerToNetwork.buffer.outfd = none then
    let write := s.printerToNetwork.write answer.write
    if write.2 < 0 then
      { s with
        printerToNetwork :=
          { write.1 with buffer := { write.1.buffer with outfd := none, writeErr := false } }
        stage := .loop }
    else { s with printerToNetwork := write.1, stage := .loop }
  else { s with stage := .loop }

/-- The unidirectional loop, up to its write. -/
def State.plainReadStage (s : State) (answer : Answer) : State :=
  if ¬ s.networkToPrinter.buffer.eofSent ∧ ¬ s.networkToPrinter.buffer.writeErr then
    if s.networkToPrinter.buffer.bytes = 0 ∧ ¬ s.networkToPrinter.buffer.eofRead then
      { s with networkToPrinter := (s.networkToPrinter.read answer.read).1, stage := .plainWrite }
    else { s with stage := .plainWrite }
  else { s with stage := .finished }

def State.plainWriteStage (s : State) (answer : Answer) : State :=
  { s with networkToPrinter := (s.networkToPrinter.write answer.write).1, stage := .plainLoop }

def State.step (s : State) (answer : Answer) : State :=
  match s.stage with
  | .loop => s.selectStage answer
  | .networkRead => s.networkReadStage answer
  | .printerRead => s.printerReadStage answer
  | .printerWrite => s.printerWriteStage answer
  | .networkWrite => s.networkWriteStage answer
  | .plainLoop => s.plainReadStage answer
  | .plainWrite => s.plainWriteStage answer
  | .finished => s
  | .idle => s
  | .selectFailed => s

/-- The state before the loop; the memory of the buffers is not initialised. -/
def startState (bidir : Bool) (jobMemory statusMemory : Nat → UInt8) (clock : Time) : State where
  stage := if bidir then .loop else .plainLoop
  networkToPrinter := ⟨initBuffer jobMemory .network .printer true, [], [], []⟩
  printerToNetwork := ⟨initBuffer statusMemory .printer .network false, [], [], []⟩
  readfds := fun _ => false
  writefds := fun _ => false
  timer := false
  now := clock
  thenTime := clock
  lastReadTime := clock

/-- `copy_stream`, as far as the answers go. -/
def copyStream (bidir : Bool) (jobMemory statusMemory : Nat → UInt8) (clock : Time)
    (answers : List Answer) : State :=
  answers.foldl State.step (startState bidir jobMemory statusMemory clock)

/-- The return value, once the function has returned. -/
def State.result (s : State) : Option Int :=
  match s.stage with
  | .finished | .idle =>
      if s.networkToPrinter.buffer.readErr || s.networkToPrinter.buffer.writeErr then some (-1)
      else some 0
  | .selectFailed => some (-1)
  | _ => none

/-! ## One direction -/

/-- What came in has gone out, then been discarded, or still waits, in this order. -/
structure Line.Valid (line : Line) : Prop where
  ring : line.buffer.Valid
  order : line.taken = line.sent ++ line.discarded ++ line.buffer.contents
  kept : line.buffer.outfd.isSome → line.discarded = []

theorem Line.write_buffer (line : Line) (answer : WriteAnswer) :
    (line.write answer).1.buffer = (writeBuffer line.buffer answer).buffer := by
  unfold Line.write
  split
  · rfl
  · rfl

theorem Line.write_result (line : Line) (answer : WriteAnswer) :
    (line.write answer).2 = (writeBuffer line.buffer answer).result := by
  unfold Line.write
  split
  · rfl
  · rfl

theorem Line.read_valid {line : Line} (valid : line.Valid) (answer : ReadAnswer) :
    (line.read answer).1.Valid := by
  obtain ⟨ring, contents, outfd, -, -⟩ := readBuffer_reads valid.ring answer
  constructor
  · exact ring
  · simp only [Line.read, contents, valid.order, List.append_assoc]
  · simp only [Line.read, outfd]
    exact valid.kept

theorem Line.write_valid {line : Line} (valid : line.Valid) (answer : WriteAnswer) :
    (line.write answer).1.Valid := by
  obtain ⟨ring, contents, outfd, -, -⟩ := writeBuffer_writes valid.ring answer
  unfold Line.write
  split
  · rename_i isOpen
    have kept := valid.kept isOpen
    constructor
    · exact ring
    · simp only [valid.order, kept, ← contents, List.append_nil, List.append_assoc]
    · exact fun _ => kept
  · rename_i closed
    constructor
    · exact ring
    · simp only [valid.order, ← contents, List.append_assoc]
    · simp only [outfd]
      exact fun isOpen => absurd isOpen closed

/-! ## The invariant of the loops -/

/-- The stages between a passed loop condition and the write to the printer. -/
def Stage.Busy (stage : Stage) : Prop :=
  stage = .networkRead ∨ stage = .printerRead ∨ stage = .printerWrite ∨ stage = .plainWrite

structure Coherent (s : State) : Prop where
  job : s.networkToPrinter.Valid
  status : s.printerToNetwork.Valid
  printer : s.networkToPrinter.buffer.outfd = some .printer
  statusErr : s.printerToNetwork.buffer.writeErr = false
  busy : s.stage.Busy → s.networkToPrinter.buffer.eofSent = false ∧
    s.networkToPrinter.buffer.writeErr = false
  sent : s.networkToPrinter.buffer.eofSent = true → s.networkToPrinter.buffer.bytes = 0
  finished : s.stage = .finished → s.networkToPrinter.buffer.eofSent = true ∨
    s.networkToPrinter.buffer.writeErr = true
  idle : s.stage = .idle → s.networkToPrinter.buffer.bytes = 0

section Stages

variable {s : State}

/-- A job line read or left alone in a busy stage stays open and unbroken. -/
theorem Coherent.readJob (coherent : Coherent s) (open_ : s.networkToPrinter.buffer.eofSent = false)
    (whole : s.networkToPrinter.buffer.writeErr = false) (answer : ReadAnswer) :
    let line := (s.networkToPrinter.read answer).1
    line.Valid ∧ line.buffer.outfd = some .printer ∧ line.buffer.eofSent = false ∧
      line.buffer.writeErr = false := by
  obtain ⟨-, -, outfd, writeErr, eofSent⟩ := readBuffer_reads coherent.job.ring answer
  exact ⟨Line.read_valid coherent.job answer, outfd.trans coherent.printer, eofSent.trans open_,
    writeErr.trans whole⟩

/-- A write to the printer sends the end of the file only when nothing waits. -/
theorem Coherent.writeJob (coherent : Coherent s)
    (open_ : s.networkToPrinter.buffer.eofSent = false)
    (whole : s.networkToPrinter.buffer.writeErr = false) (answer : WriteAnswer) :
    let line := (s.networkToPrinter.write answer).1
    line.Valid ∧ line.buffer.outfd = some .printer ∧
      (line.buffer.eofSent = true → line.buffer.bytes = 0) := by
  obtain ⟨-, -, outfd, -, eofSent⟩ := writeBuffer_writes coherent.job.ring answer
  refine ⟨Line.write_valid coherent.job answer, ?_⟩
  have isOpen : s.networkToPrinter.buffer.outfd.isSome := by
    rw [coherent.printer]
    rfl
  rw [Line.write, if_pos isOpen]
  refine ⟨outfd.trans coherent.printer, fun sent => ?_⟩
  rcases eofSent sent with before | broken | empty
  · rw [open_] at before
    cases before
  · rw [whole] at broken
    cases broken
  · exact empty

/-- Only the stage and the bookkeeping change. -/
theorem Coherent.move {s' : State} (coherent : Coherent s)
    (job : s'.networkToPrinter = s.networkToPrinter)
    (status : s'.printerToNetwork = s.printerToNetwork)
    (busy : s'.stage.Busy → s.networkToPrinter.buffer.eofSent = false ∧
      s.networkToPrinter.buffer.writeErr = false)
    (finished : s'.stage = .finished → s.networkToPrinter.buffer.eofSent = true ∨
      s.networkToPrinter.buffer.writeErr = true)
    (idle : s'.stage = .idle → s.networkToPrinter.buffer.bytes = 0) : Coherent s' := by
  rw [← job] at busy finished idle
  constructor
  · rw [job]
    exact coherent.job
  · rw [status]
    exact coherent.status
  · rw [job]
    exact coherent.printer
  · rw [status]
    exact coherent.statusErr
  · exact busy
  · rw [job]
    exact coherent.sent
  · exact finished
  · exact idle

theorem selectStage_coherent (coherent : Coherent s) (here : s.stage = .loop) (answer : Answer) :
    Coherent (s.selectStage answer) := by
  unfold State.selectStage
  split
  · rename_i going
    simp only [Bool.not_eq_true] at going
    cases answer.select with
    | interrupted =>
        refine coherent.move rfl rfl ?_ ?_ ?_ <;> simp [here, Stage.Busy]
    | failed =>
        refine coherent.move rfl rfl ?_ ?_ ?_ <;> simp [Stage.Busy]
    | ready readable writable =>
        refine coherent.move rfl rfl (fun _ => ⟨going.1, going.2.1⟩) ?_ ?_ <;> simp
  · rename_i stopping
    refine coherent.move rfl rfl ?_ (fun _ => ?_) ?_
    · simp [Stage.Busy]
    · by_contra neither
      rw [not_or] at neither
      exact stopping ⟨neither.1, neither.2, by simp [coherent.statusErr]⟩
    · simp

theorem readNetwork_coherent (coherent : Coherent s) (here : s.stage = .networkRead)
    (answer : Answer) :
    Coherent (s.readNetwork answer) ∧ (s.readNetwork answer).stage = .networkRead := by
  unfold State.readNetwork
  split
  · obtain ⟨open_, whole⟩ := coherent.busy (.inl here)
    obtain ⟨valid, printer, stillOpen, stillWhole⟩ := coherent.readJob open_ whole answer.read
    refine ⟨?_, here⟩
    constructor
    · exact valid
    · exact coherent.status
    · exact printer
    · exact coherent.statusErr
    · exact fun _ => ⟨stillOpen, stillWhole⟩
    · simp [stillOpen]
    · simp [here]
    · simp [here]
  · exact ⟨coherent, here⟩

theorem networkReadStage_coherent (coherent : Coherent s) (here : s.stage = .networkRead)
    (answer : Answer) : Coherent (s.networkReadStage answer) := by
  obtain ⟨coherent, here⟩ := readNetwork_coherent coherent here answer
  have going := coherent.busy (.inl here)
  unfold State.networkReadStage
  simp only
  split
  · rename_i isIdle
    exact coherent.move rfl rfl (by simp [Stage.Busy]) (by simp) (fun _ => isIdle.2.1)
  · exact coherent.move rfl rfl (fun _ => going) (by simp) (by simp)

theorem printerReadStage_coherent (coherent : Coherent s) (here : s.stage = .printerRead)
    (answer : Answer) : Coherent (s.printerReadStage answer) := by
  have going := coherent.busy (.inr (.inl here))
  obtain ⟨-, -, -, writeErr, -⟩ := readBuffer_reads coherent.status.ring answer.read
  have received : Coherent { s with
      printerToNetwork := (s.printerToNetwork.read answer.read).1, stage := .printerWrite } := by
    constructor
    · exact coherent.job
    · exact Line.read_valid coherent.status answer.read
    · exact coherent.printer
    · exact writeErr.trans coherent.statusErr
    · exact fun _ => going
    · exact coherent.sent
    · simp
    · simp
  unfold State.printerReadStage
  split
  · simp only
    split
    · exact received.move rfl rfl (fun _ => going) (by simp) (by simp)
    · exact received
  · exact coherent.move rfl rfl (fun _ => going) (by simp) (by simp)

theorem printerWriteStage_coherent (coherent : Coherent s) (here : s.stage = .printerWrite)
    (answer : Answer) : Coherent (s.printerWriteStage answer) := by
  obtain ⟨open_, whole⟩ := coherent.busy (.inr (.inr (.inl here)))
  unfold State.printerWriteStage
  split
  · obtain ⟨valid, printer, sent⟩ := coherent.writeJob open_ whole answer.write
    constructor
    · exact valid
    · exact coherent.status
    · exact printer
    · exact coherent.statusErr
    · simp [Stage.Busy]
    · exact sent
    · simp
    · simp
  · exact coherent.move rfl rfl (by simp [Stage.Busy]) (by simp) (by simp)

/-- A failed write to the network is forgotten with its descriptor. -/
theorem networkWriteStage_coherent (coherent : Coherent s) (answer : Answer) :
    Coherent (s.networkWriteStage answer) := by
  have written := Line.write_valid coherent.status answer.write
  have broken : (s.printerToNetwork.write answer.write).1.buffer.writeErr = true →
      (s.printerToNetwork.write answer.write).2 < 0 := by
    intro err
    obtain ⟨-, -, -, result, -⟩ := writeBuffer_writes coherent.status.ring answer.write
    rw [Line.write_buffer] at err
    rw [Line.write_result]
    rcases result err with before | ⟨negative, -⟩
    · rw [coherent.statusErr] at before
      cases before
    · exact negative
  unfold State.networkWriteStage
  split
  · simp only
    split
    · constructor
      · exact coherent.job
      · exact ⟨⟨written.ring.start, written.ring.fits, written.ring.behind⟩, written.order,
          fun isOpen => by cases isOpen⟩
      · exact coherent.printer
      · rfl
      · simp [Stage.Busy]
      · exact coherent.sent
      · simp
      · simp
    · rename_i fine
      constructor
      · exact coherent.job
      · exact written
      · exact coherent.printer
      · exact Bool.eq_false_iff.mpr fun err => fine (broken err)
      · simp [Stage.Busy]
      · exact coherent.sent
      · simp
      · simp
  · exact coherent.move rfl rfl (by simp [Stage.Busy]) (by simp) (by simp)

theorem plainReadStage_coherent (coherent : Coherent s) (answer : Answer) :
    Coherent (s.plainReadStage answer) := by
  unfold State.plainReadStage
  split
  · rename_i going
    simp only [Bool.not_eq_true] at going
    split
    · obtain ⟨valid, printer, stillOpen, stillWhole⟩ :=
        coherent.readJob going.1 going.2 answer.read
      constructor
      · exact valid
      · exact coherent.status
      · exact printer
      · exact coherent.statusErr
      · exact fun _ => ⟨stillOpen, stillWhole⟩
      · simp [stillOpen]
      · simp
      · simp
    · exact coherent.move rfl rfl (fun _ => going) (by simp) (by simp)
  · rename_i stopping
    refine coherent.move rfl rfl (by simp [Stage.Busy]) (fun _ => ?_) (by simp)
    by_contra neither
    exact stopping (not_or.mp neither)

theorem plainWriteStage_coherent (coherent : Coherent s) (here : s.stage = .plainWrite)
    (answer : Answer) : Coherent (s.plainWriteStage answer) := by
  obtain ⟨open_, whole⟩ := coherent.busy (.inr (.inr (.inr here)))
  obtain ⟨valid, printer, sent⟩ := coherent.writeJob open_ whole answer.write
  constructor
  · exact valid
  · exact coherent.status
  · exact printer
  · exact coherent.statusErr
  · simp [State.plainWriteStage, Stage.Busy]
  · exact sent
  · simp [State.plainWriteStage]
  · simp [State.plainWriteStage]

end Stages

theorem step_coherent (s : State) (answer : Answer) (coherent : Coherent s) :
    Coherent (s.step answer) := by
  unfold State.step
  split
  · exact selectStage_coherent coherent ‹_› answer
  · exact networkReadStage_coherent coherent ‹_› answer
  · exact printerReadStage_coherent coherent ‹_› answer
  · exact printerWriteStage_coherent coherent ‹_› answer
  · exact networkWriteStage_coherent coherent answer
  · exact plainReadStage_coherent coherent answer
  · exact plainWriteStage_coherent coherent ‹_› answer
  · exact coherent
  · exact coherent
  · exact coherent

theorem startState_coherent (bidir : Bool) (jobMemory statusMemory : Nat → UInt8) (clock : Time) :
    Coherent (startState bidir jobMemory statusMemory clock) := by
  have empty : ∀ memory infd outfd detectEof,
      Line.Valid ⟨initBuffer memory infd outfd detectEof, [], [], []⟩ := by
    intro memory infd outfd detectEof
    exact ⟨initBuffer_valid memory infd outfd detectEof, rfl, fun _ => rfl⟩
  have stage : (startState bidir jobMemory statusMemory clock).stage = .loop ∨
      (startState bidir jobMemory statusMemory clock).stage = .plainLoop := by
    cases bidir with
    | true => exact .inl rfl
    | false => exact .inr rfl
  constructor
  · exact empty _ _ _ _
  · exact empty _ _ _ _
  · rfl
  · rfl
  · exact fun _ => ⟨rfl, rfl⟩
  · exact fun _ => rfl
  · rcases stage with loop | plain
    · simp [loop]
    · simp [plain]
  · exact fun _ => rfl

theorem copyStream_coherent (bidir : Bool) (jobMemory statusMemory : Nat → UInt8) (clock : Time)
    (answers : List Answer) : Coherent (copyStream bidir jobMemory statusMemory clock answers) := by
  unfold copyStream
  exact List.foldlRecOn answers State.step (startState_coherent bidir jobMemory statusMemory clock)
    fun s coherent answer _ => step_coherent s answer coherent

/-! ## Forwarding -/

/-- In both modes, at every moment of every job, the printer has a prefix of what came
from the network and the ring holds exactly the rest, within its capacity. At the end
of the file and at the idle time-out the printer has everything. Nothing but the end of
the file or an error of the printer ends the loop condition, whatever happens to the
status direction, whose ring keeps its bytes too. -/
theorem copyStream_forwards (bidir : Bool) (jobMemory statusMemory : Nat → UInt8) (clock : Time)
    (answers : List Answer) :
    let s := copyStream bidir jobMemory statusMemory clock answers
    let job := s.networkToPrinter
    let status := s.printerToNetwork
    job.sent <+: job.taken ∧
    job.taken = job.sent ++ job.buffer.contents ∧
    job.buffer.bytes ≤ bufferSize ∧
    status.taken = status.sent ++ status.discarded ++ status.buffer.contents ∧
    status.buffer.bytes ≤ bufferSize ∧
    (s.stage = .finished → job.buffer.eofSent = true → job.sent = job.taken) ∧
    (s.stage = .idle → job.sent = job.taken) ∧
    (s.stage = .finished → job.buffer.eofSent = true ∨ job.buffer.writeErr = true) := by
  have coherent := copyStream_coherent bidir jobMemory statusMemory clock answers
  generalize copyStream bidir jobMemory statusMemory clock answers = s at coherent
  have isOpen : s.networkToPrinter.buffer.outfd.isSome := by
    rw [coherent.printer]
    rfl
  have order : s.networkToPrinter.taken =
      s.networkToPrinter.sent ++ s.networkToPrinter.buffer.contents := by
    rw [coherent.job.order, coherent.job.kept isOpen, List.append_nil]
  have drained : s.networkToPrinter.buffer.bytes = 0 →
      s.networkToPrinter.sent = s.networkToPrinter.taken := by
    intro empty
    rw [order, Buffer.contents, empty, RingQueue.contents_zero, List.append_nil]
  refine ⟨?_, order, coherent.job.ring.fits, coherent.status.order, coherent.status.ring.fits,
    fun _ sent => drained (coherent.sent sent), fun idle => drained (coherent.idle idle),
    coherent.finished⟩
  exact ⟨s.networkToPrinter.buffer.contents, order.symm⟩

/-- A short write, an interrupted one and the end of the file. -/
example :
    let answer := fun read write : _ => (⟨⟨0, 0⟩, ⟨0, 0⟩, .interrupted, read, write, ⟨0, 0⟩⟩ : Answer)
    let s := copyStream false (fun _ => 0) (fun _ => 0) ⟨0, 0⟩
      [answer (.data [1, 2, 3]) .retry, answer .retry (.accepted 2), answer .retry .retry,
        answer .retry .retry, answer .retry .retry, answer .retry (.accepted 9),
        answer (.data []) .retry, answer .retry .retry, answer .retry .retry]
    s.stage = .finished ∧ s.networkToPrinter.sent = [1, 2, 3] := by
  decide +kernel

end XWrt.P910nd
