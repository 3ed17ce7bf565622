import XWrt.Foundation.Framing
import XWrt.Natflow.UserRecord

/-!
# The user event daemon

`run_worker` of `natflow-userinfo-eventd.lua`. The worker reads the event queue
in chunks of any size, cuts them into records of 102 bytes and calls hotplug for
each. The environment answers its calls: whether the queue opens, whether a wait
goes on, and how much a read delivers.
-/

namespace XWrt.Natflow.UserEvents

open XWrt.Foundation
open XWrt.Natflow.UserRecord

/-- `EVENT_READ_SIZE` -/
def eventReadSize : Nat := eventSize * 32

/-- What the worker does for others to see. -/
inductive Action where
  | dispatchHotplug (event : Option Event) (action : String)
  | log (priority message : String)
  deriving DecidableEq, Repr

/-! ## One read -/

/-- The body of the loop over the records of a chunk. -/
def handleRecord (record : List UInt8) : Action :=
  match parseBinary record with
  | .ok event => .dispatchHotplug (some event) "update"
  | .error err => .log "warning" ("skipped invalid queue record: " ++ err)

/-- The loop itself; `offset` counts from one. -/
def recordLoop (data : List UInt8) (offset : Nat) : List Action × Nat :=
  if eventSize ≤ data.length + 1 - offset then
    let record := (data.drop (offset - 1)).take eventSize
    let rest := recordLoop data (offset + eventSize)
    (handleRecord record :: rest.1, rest.2)
  else ([], offset)
termination_by data.length + 1 - offset
decreasing_by
  have positive : 0 < eventSize := by decide
  omega

/-- What `read_event_batch` returns, and what it did. -/
structure Batch where
  ok : Bool
  pending : List UInt8
  hadEvents : Bool
  actions : List Action

/-- `read_event_batch` with the answer of `fd:read`. -/
def readEventBatch (answer : Option (List UInt8)) (pending : List UInt8) : Batch :=
  match answer with
  | none => ⟨false, pending, false, []⟩
  | some data =>
      if data.length = 0 then ⟨true, pending, false, []⟩
      else
        let data := pending ++ data
        let (actions, offset) := recordLoop data 1
        ⟨true, data.drop (offset - 1), true, actions⟩

/-! ## The worker -/

/-- The calls at which the worker waits for an answer; `left` rounds of the inner loop follow the read. -/
inductive At where
  | opening
  | waiting
  | reading (left : Nat)
  | stopped (status : Nat)
  deriving DecidableEq

inductive Answer where
  | opened (ok : Bool)
  | waited (ready : Bool)
  | read (size : Option Nat)

/-- The worker and the bytes the queue has not delivered yet. -/
structure Worker where
  place : At
  pending : List UInt8
  actions : List Action
  unread : List UInt8

/-- A read of at most `EVENT_READ_SIZE` bytes, or a failed one. -/
def Worker.read (s : Worker) (left : Nat) (size : Option Nat) : Worker :=
  let answer := size.map fun size => s.unread.take (min size eventReadSize)
  let batch := readEventBatch answer s.pending
  { pending := batch.pending
    actions := s.actions ++ batch.actions
    unread := s.unread.drop (answer.getD []).length
    place :=
      if !batch.ok then .stopped 1
      else if !batch.hadEvents then .waiting
      else
        match left with
        | 0 => .waiting
        | left + 1 => .reading left }

/-- One step of `run_worker`. An answer to a call it is not making is ignored. -/
def Worker.step (s : Worker) (answer : Answer) : Worker :=
  match s.place, answer with
  | .opening, .opened ok =>
      if ok then { s with place := .waiting, actions := s.actions ++ [.dispatchHotplug none "start"] }
      else { s with place := .stopped 1, actions := s.actions ++ [.log "err" "failed to open userinfo event queue"] }
  | .waiting, .waited ready => { s with place := if ready then .reading 31 else .stopped 0 }
  | .reading left, .read size => s.read left size
  | _, _ => s

/-- `run_worker` on a stream, as far as the answers go. -/
def runWorker (stream : List UInt8) (answers : List Answer) : Worker :=
  answers.foldl Worker.step ⟨.opening, [], [], stream⟩

/-- The events passed on, in order. -/
def Worker.updates (s : Worker) : List Event :=
  s.actions.filterMap fun
    | .dispatchHotplug (some event) "update" => some event
    | _ => none

/-! ## The loop is the decoder -/

/-- The records of a stream are its frames of 102 bytes. -/
def recordDecoder : Decoder UInt8 (List UInt8) := Decoder.sized eventSize (by decide)

theorem recordLoop_eq_drain (data : List UInt8) (offset : Nat) (first : 1 ≤ offset) (within : offset ≤ data.length + 1) :
    (recordLoop data offset).1 = (recordDecoder.drain (data.drop (offset - 1))).1.map handleRecord ∧
      data.drop ((recordLoop data offset).2 - 1) = (recordDecoder.drain (data.drop (offset - 1))).2 := by
  have left : (data.drop (offset - 1)).length = data.length + 1 - offset := by
    rw [List.length_drop]
    omega
  induction offset using recordLoop.induct data with
  | case1 offset room ih =>
      have decoded : recordDecoder.decode (data.drop (offset - 1)) = some ((data.drop (offset - 1)).take eventSize, eventSize) :=
        Decoder.sized_decode (left.ge.trans' room)
      have result : recordLoop data offset = (handleRecord ((data.drop (offset - 1)).take eventSize) ::
          (recordLoop data (offset + eventSize)).1, (recordLoop data (offset + eventSize)).2) := by
        rw [recordLoop, if_pos room]
      have moved : offset + eventSize - 1 = offset - 1 + eventSize := by omega
      have next : (data.drop (offset + eventSize - 1)).length = data.length + 1 - (offset + eventSize) := by
        rw [List.length_drop]
        omega
      obtain ⟨actions, rest⟩ := ih (by omega) (by omega) next
      rw [moved] at actions rest
      rw [result, Decoder.drain_of_some _ decoded, List.drop_drop]
      exact ⟨congrArg (List.cons _) actions, rest⟩
  | case2 offset short =>
      have stops : recordDecoder.decode (data.drop (offset - 1)) = none :=
        Decoder.sized_decode_none (left.trans_lt (not_le.mp short))
      rw [recordLoop, if_neg short, Decoder.drain_of_none _ stops]
      exact ⟨rfl, rfl⟩

/-- A read that delivers bytes drains them together with the pending ones. -/
theorem readEventBatch_data {data : List UInt8} (some : data ≠ []) (pending : List UInt8) :
    readEventBatch (.some data) pending =
      ⟨true, (recordDecoder.drain (pending ++ data)).2, true,
        (recordDecoder.drain (pending ++ data)).1.map handleRecord⟩ := by
  have length : data.length ≠ 0 := fun none => some (List.length_eq_zero_iff.mp none)
  obtain ⟨actions, rest⟩ := recordLoop_eq_drain (pending ++ data) 1 le_rfl (Nat.le_add_left 1 _)
  rw [Nat.sub_self, List.drop_zero] at actions rest
  rw [readEventBatch]
  dsimp only
  rw [if_neg length, actions, rest]

/-! ## Runs of the worker -/

/-- What the worker does before the first read. -/
inductive Opening : List Action → Prop where
  | before : Opening []
  | opened : Opening [.dispatchHotplug none "start"]
  | failed : Opening [.log "err" "failed to open userinfo event queue"]

/-- The bytes taken from the stream have been cut into records, and each was handled. -/
structure Framed (stream : List UInt8) (s : Worker) (opening : List Action) (blocks : List (List UInt8)) : Prop where
  starts : Opening opening
  untouched : s.place = .opening → opening = [] ∧ blocks = []
  actions : s.actions = opening ++ blocks.map handleRecord
  taken : ∃ taken, stream = taken ++ s.unread ∧ recordDecoder.drain taken = (blocks, s.pending)

theorem framed_start (stream : List UInt8) : Framed stream ⟨.opening, [], [], stream⟩ [] [] := by
  have stops : recordDecoder.decode [] = none := Decoder.sized_decode_none (by decide)
  exact ⟨.before, fun _ => ⟨rfl, rfl⟩, rfl, [], rfl, recordDecoder.drain_of_none stops⟩

theorem Worker.read_place (s : Worker) (left : Nat) (size : Option Nat) : (s.read left size).place ≠ .opening := by
  unfold Worker.read
  dsimp only
  split
  · exact nofun
  · split
    · exact nofun
    · cases left <;> exact nofun

theorem Framed.read {stream : List UInt8} {s : Worker} {opening : List Action} {blocks : List (List UInt8)}
    (framed : Framed stream s opening blocks) (left : Nat) (size : Option Nat) :
    ∃ more, Framed stream (s.read left size) opening (blocks ++ more) := by
  obtain ⟨starts, -, actions, taken, streamEq, drained⟩ := framed
  have opened : ∀ more, (s.read left size).place = .opening → opening = [] ∧ blocks ++ more = [] :=
    fun more place => absurd place (s.read_place left size)
  cases size with
  | none =>
      refine ⟨[], starts, opened [], ?_, taken, streamEq, ?_⟩
      · rw [List.append_nil, ← actions]
        exact List.append_nil _
      · rw [List.append_nil]
        exact drained
  | some size =>
      by_cases nothing : s.unread.take (min size eventReadSize) = []
      · refine ⟨[], starts, opened [], ?_, taken, ?_, ?_⟩
        · simp [Worker.read, readEventBatch, nothing, actions]
        · simpa [Worker.read, nothing] using streamEq
        · simpa [Worker.read, readEventBatch, nothing] using drained
      · generalize chunk : s.unread.take (min size eventReadSize) = data at nothing
        have batch := readEventBatch_data nothing s.pending
        have before : data <+: s.unread := chunk ▸ List.take_prefix _ _
        have appended := recordDecoder.drain_append taken data
        rw [drained] at appended
        refine ⟨(recordDecoder.drain (s.pending ++ data)).1, starts, opened _, ?_, taken ++ data, ?_, ?_⟩
        · simp only [Worker.read, Option.map_some, chunk, batch, actions, List.map_append, List.append_assoc]
        · simp only [Worker.read, Option.map_some, chunk, Option.getD_some, List.append_assoc]
          rw [List.prefix_iff_eq_append.mp before]
          exact streamEq
        · simp only [Worker.read, Option.map_some, chunk, batch]
          exact appended

/-- Every step keeps the worker in step with the stream. -/
theorem Framed.step {stream : List UInt8} {s : Worker} {opening : List Action} {blocks : List (List UInt8)}
    (framed : Framed stream s opening blocks) (answer : Answer) :
    ∃ opening' more, Framed stream (s.step answer) opening' (blocks ++ more) := by
  have stays : ∃ opening' more, Framed stream s opening' (blocks ++ more) :=
    ⟨opening, [], by rwa [List.append_nil]⟩
  unfold Worker.step
  split
  next ok place =>
    obtain ⟨rfl, rfl⟩ := framed.untouched place
    have actions := framed.actions
    split
    · refine ⟨_, [], .opened, nofun, ?_, framed.taken⟩
      simp [actions]
    · refine ⟨_, [], .failed, nofun, ?_, framed.taken⟩
      simp [actions]
  next ready place =>
    refine ⟨opening, [], framed.starts, ?_, ?_, ?_⟩
    · cases ready <;> exact nofun
    · rw [List.append_nil]
      exact framed.actions
    · rw [List.append_nil]
      exact framed.taken
  next left size place => exact ⟨opening, framed.read left size⟩
  next => exact stays

theorem runWorker_framed (stream : List UInt8) (answers : List Answer) :
    ∃ opening blocks, Framed stream (runWorker stream answers) opening blocks := by
  have run : ∀ (s : Worker) (opening : List Action) (blocks : List (List UInt8)), Framed stream s opening blocks →
      ∃ opening' blocks', Framed stream (answers.foldl Worker.step s) opening' blocks' := by
    induction answers with
    | nil => exact fun s opening blocks framed => ⟨opening, blocks, framed⟩
    | cons answer rest ih =>
        intro s opening blocks framed
        obtain ⟨opening', more, next⟩ := framed.step answer
        exact ih _ _ _ next
  exact run _ _ _ (framed_start stream)

/-! ## Lossless framing -/

/-- The event in a record. -/
def eventOf (record : List UInt8) : Option Event := (parseBinary record).toOption

theorem updates_handled {opening : List Action} (starts : Opening opening) (blocks : List (List UInt8)) {s : Worker}
    (actions : s.actions = opening ++ blocks.map handleRecord) : s.updates = blocks.filterMap eventOf := by
  have none : opening.filterMap (fun
      | .dispatchHotplug (some event) "update" => some event
      | _ => none) = [] := by
    cases starts <;> rfl
  rw [Worker.updates, actions, List.filterMap_append, none, List.nil_append, List.filterMap_map]
  apply List.filterMap_congr
  intro record _
  rw [Function.comp_apply, handleRecord, eventOf]
  cases parseBinary record <;> rfl

theorem map_filterMap_isSome {α β : Type*} {f : α → Option β} {items : List α} (known : ∀ item ∈ items, (f item).isSome) :
    (items.filterMap f).map some = items.map f := by
  induction items with
  | nil => rfl
  | cons item items ih =>
      obtain ⟨first, others⟩ := List.forall_mem_cons.mp known
      obtain ⟨value, found⟩ := Option.isSome_iff_exists.mp first
      rw [List.filterMap_cons_some found, List.map_cons, List.map_cons, found, ih others]

/-- At every point of every run the records read completely have been handled, each once and in order, and the pending
bytes are the part of the next record that was read. -/
theorem runWorker_lossless (records : List (List UInt8)) (sizes : ∀ record ∈ records, record.length = eventSize)
    (answers : List Answer) :
    let s := runWorker records.flatten answers
    ∃ opening done rest, Opening opening ∧ records = done ++ rest ∧ s.actions = opening ++ done.map handleRecord ∧
      s.updates = done.filterMap eventOf ∧
      ((∀ record ∈ records, (eventOf record).isSome) → s.updates.map some = done.map eventOf) ∧
      records.flatten = done.flatten ++ s.pending ++ s.unread ∧ s.pending.length < eventSize ∧
      Decoder.PartOfNext s.pending rest ∧ (s.unread = [] → rest = []) := by
  intro s
  obtain ⟨opening, blocks, framed⟩ := runWorker_framed records.flatten answers
  obtain ⟨taken, streamEq, drained⟩ := framed.taken
  obtain ⟨done, rest, pending, split, takenEq, part, result⟩ := recordDecoder.drain_frames_pending id records
    (fun record inside => Decoder.sized_isFrame (sizes record inside)) ⟨s.unread, streamEq.symm⟩
  rw [List.map_id, drained] at result
  obtain ⟨rfl, rfl⟩ := Prod.mk.inj result
  have bytes : records.flatten = blocks.flatten ++ s.pending ++ s.unread := by rw [streamEq, takenEq]
  have updates := updates_handled framed.starts blocks framed.actions
  refine ⟨opening, blocks, rest, framed.starts, split, framed.actions, updates, ?_, bytes, ?_, part, ?_⟩
  · intro events
    have known : ∀ record ∈ blocks, (eventOf record).isSome :=
      fun record inside => events record (split ▸ List.mem_append_left rest inside)
    rw [updates]
    exact map_filterMap_isSome known
  · cases rest with
    | nil =>
        rw [show s.pending = [] from part]
        decide
    | cons next others =>
        have size := sizes next (split ▸ List.mem_append_right blocks (.head _))
        exact part.2.trans_eq size
  · intro finished
    rw [finished, List.append_nil, split, List.flatten_append] at bytes
    exact part.eq_nil (List.append_cancel_left bytes)

/-- The record of an IPv4 user whose other fields are zero. -/
def sampleRecord : List UInt8 := [3, 0, 102, 0, 102, 0, 2, 0] ++ List.replicate 94 0

example : (eventOf sampleRecord).isSome := by decide +kernel

theorem runWorker_lossless_two_records :
    let records := [sampleRecord, sampleRecord]
    let s := runWorker records.flatten [.opened true, .waited true, .read (some 150)]
    ∃ opening done rest, Opening opening ∧ records = done ++ rest ∧ s.actions = opening ++ done.map handleRecord ∧
      s.updates = done.filterMap eventOf ∧
      ((∀ record ∈ records, (eventOf record).isSome) → s.updates.map some = done.map eventOf) ∧
      records.flatten = done.flatten ++ s.pending ++ s.unread ∧ s.pending.length < eventSize ∧
      Decoder.PartOfNext s.pending rest ∧ (s.unread = [] → rest = []) :=
  runWorker_lossless _ (by decide) _

end XWrt.Natflow.UserEvents
