import Mathlib.Data.List.TakeWhile
import XWrt.Foundation.Framing

/-!
# The two readers of the user list

`foreach_userinfo` of `natflow-simple-qos.lua` and `read_userinfo_lines` of
`rpcd/luci.natflow` read the lines of `/dev/natflow_userinfo_ctl`. The first
looks for a newline by index, the second splits with a pattern and gives up
after 16 `EAGAIN` in a row. On a stream of whole lines both deliver the lines.
-/

namespace XWrt.Natflow.UserinfoLines

open XWrt.Foundation

def newline : UInt8 := 10

/-- What `fd:read` returns. -/
inductive Read where
  | data (bytes : List UInt8)
  | again
  | failed
  deriving DecidableEq, Repr

/-- The device as one reader finds it: its reads up to the empty one that ends the
snapshot, and whether `fd:close` succeeds. -/
structure Device where
  reads : List Read
  closes : Bool

/-! ## The reader of the qos script -/

/-- The inner loop of `foreach_userinfo`: the lines it consumes and the new `pending`. -/
def consumeLines (pending : List UInt8) : List (List UInt8) × List UInt8 :=
  match _found : pending.findIdx? (· = newline) with
  | none => ([], pending)
  | some i =>
      let rest := consumeLines (pending.drop (i + 1))
      (pending.take i :: rest.1, rest.2)
termination_by pending.length
decreasing_by
  have := Decoder.lt_of_findIdx?_eq_some _found
  rw [List.length_drop]
  omega

/-- The variables of `foreach_userinfo`, and the lines given to `consume_line` so far. -/
structure Consumed where
  lines : List (List UInt8)
  pending : List UInt8
  ok : Bool

/-- The outer loop of `foreach_userinfo`. -/
def foreachLoop (consumeLine : List UInt8 → Bool) : List Read → Consumed → Consumed
  | [], now => now
  | .again :: reads, now => foreachLoop consumeLine reads now
  | .failed :: _, now => { now with ok := false }
  | .data bytes :: reads, now =>
      if bytes = [] then now
      else
        let (lines, pending) := consumeLines (now.pending ++ bytes)
        foreachLoop consumeLine reads
          ⟨now.lines ++ lines, pending, now.ok && lines.all consumeLine⟩

/-- `foreach_userinfo`: the lines it delivers and its result. -/
def foreachUserinfo (consumeLine : List UInt8 → Bool) (device : Option Device) :
    List (List UInt8) × Bool :=
  match device with
  | none => ([], false)
  | some device =>
      let done := foreachLoop consumeLine device.reads ⟨[], [], true⟩
      (done.lines, done.ok && done.pending = [] && device.closes)

/-! ## The reader of the web interface -/

def userinfoReadRetries : Nat := 16

/-- The `*` of a Lua pattern: the longest run that lets the rest of the pattern match. -/
def maxExpand {β : Type} (single : UInt8 → Bool) (s : List UInt8)
    (next : List UInt8 → List UInt8 → Option β) : Option β :=
  (List.range ((s.takeWhile single).length + 1)).reverse.findSome? fun i => next (s.take i) (s.drop i)

/-- `pending:match("^([^\n]*)\n(.*)$")` -/
def matchLine (pending : List UInt8) : Option (List UInt8 × List UInt8) :=
  maxExpand (· ≠ newline) pending fun line after =>
    match after with
    | [] => none
    | c :: after =>
        if c = newline then
          maxExpand (fun _ => true) after fun rest stop => if stop = [] then some (line, rest) else none
        else none

theorem maxExpand_run {β : Type} {single : UInt8 → Bool} {s run rest : List UInt8} {result : β}
    {next : List UInt8 → List UInt8 → Option β} (split : s = run ++ rest)
    (whole : s.takeWhile single = run) (accepts : next run rest = some result) :
    maxExpand single s next = some result := by
  rw [maxExpand, whole, List.range_succ, List.reverse_append, List.reverse_singleton,
    List.singleton_append, split, List.findSome?_cons, List.take_left, List.drop_left, accepts]

theorem matchLine_line {line : List UInt8} (clean : newline ∉ line) (rest : List UInt8) :
    matchLine (line ++ newline :: rest) = some (line, rest) := by
  have run : (line ++ newline :: rest).takeWhile (· ≠ newline) = line := by
    rw [List.takeWhile_append_of_pos]
    · simp
    · intro c member
      exact decide_eq_true fun same => clean (same ▸ member)
  refine maxExpand_run rfl run ?_
  dsimp only
  rw [if_pos rfl]
  have all : rest.takeWhile (fun _ => true) = rest := List.takeWhile_eq_self_iff.mpr fun _ _ => rfl
  exact maxExpand_run (List.append_nil rest).symm all (if_pos rfl)

theorem matchLine_none {pending : List UInt8} (clean : newline ∉ pending) :
    matchLine pending = none := by
  rw [matchLine, maxExpand, List.findSome?_eq_none_iff]
  intro i _
  split
  · rfl
  · rename_i c after dropped
    refine if_neg fun same => clean ?_
    have member : c ∈ pending.drop i := dropped ▸ List.mem_cons_self
    exact same ▸ List.mem_of_mem_drop member

/-- The pattern takes the same first line as the search for a newline. -/
theorem matchLine_eq_decode (pending : List UInt8) :
    matchLine pending = ((Decoder.delimited newline).decode pending).map
      fun frame => (frame.1, pending.drop frame.2) := by
  by_cases member : newline ∈ pending
  · obtain ⟨line, rest, rfl, clean⟩ := List.eq_append_cons_of_mem member
    rw [matchLine_line clean, Decoder.delimited_decode clean]
    simp [List.drop_append]
  · rw [matchLine_none member, Decoder.delimited_decode_none member]
    rfl

theorem matchLine_shrinks {pending line rest : List UInt8}
    (matched : matchLine pending = some (line, rest)) : rest.length < pending.length := by
  rw [matchLine_eq_decode] at matched
  obtain ⟨⟨item, n⟩, decoded, same⟩ := Option.map_eq_some_iff.mp matched
  cases same
  obtain ⟨pos, within⟩ := (Decoder.delimited newline).consumes decoded
  rw [List.length_drop]
  omega

/-- The inner loop of `read_userinfo_lines`. -/
def matchLines (pending : List UInt8) : List (List UInt8) × List UInt8 :=
  match _matched : matchLine pending with
  | none => ([], pending)
  | some (line, rest) =>
      let more := matchLines rest
      (line :: more.1, more.2)
termination_by pending.length
decreasing_by exact matchLine_shrinks _matched

/-- The variables of `read_userinfo_lines`. -/
structure Collected where
  lines : List (List UInt8)
  pending : List UInt8
  retries : Nat

/-- The outer loop of `read_userinfo_lines`: the variables when it breaks with `success`. -/
def readLoop : List Read → Collected → Option Collected
  | [], now => if now.retries < userinfoReadRetries then some now else none
  | read :: reads, now =>
      if now.retries < userinfoReadRetries then
        match read with
        | .again => readLoop reads { now with retries := now.retries + 1 }
        | .failed => none
        | .data bytes =>
            if bytes = [] then some now
            else
              let (lines, pending) := matchLines (now.pending ++ bytes)
              readLoop reads ⟨now.lines ++ lines, pending, 0⟩
      else none

/-- `read_userinfo_lines` -/
def readUserinfoLines (device : Option Device) : Option (List (List UInt8)) :=
  match device with
  | none => none
  | some device =>
      (readLoop device.reads ⟨[], [], 0⟩).map fun done =>
        if done.pending ≠ [] then done.lines ++ [done.pending] else done.lines

/-! ## Both inner loops drain the pending bytes -/

theorem consumeLines_eq_drain (pending : List UInt8) :
    consumeLines pending = (Decoder.delimited newline).drain pending := by
  induction pending using consumeLines.induct with
  | case1 pending absent =>
      have decoded : (Decoder.delimited newline).decode pending = none :=
        Option.map_eq_none_iff.mpr absent
      rw [consumeLines, Decoder.drain_of_none _ decoded]
      split
      · rfl
      · rename_i found
        rw [absent] at found
        cases found
  | case2 pending i found ih =>
      have decoded : (Decoder.delimited newline).decode pending = some (pending.take i, i + 1) :=
        Option.map_eq_some_iff.mpr ⟨i, found, rfl⟩
      rw [consumeLines, Decoder.drain_of_some _ decoded, ← ih]
      split
      · rename_i absent
        rw [absent] at found
        cases found
      · rename_i j found'
        rw [found] at found'
        cases found'
        rfl

theorem matchLines_eq_drain (pending : List UInt8) :
    matchLines pending = (Decoder.delimited newline).drain pending := by
  induction pending using matchLines.induct with
  | case1 pending absent =>
      have decoded : (Decoder.delimited newline).decode pending = none := by
        rwa [matchLine_eq_decode, Option.map_eq_none_iff] at absent
      rw [matchLines, Decoder.drain_of_none _ decoded]
      split
      · rfl
      · rename_i found
        rw [absent] at found
        cases found
  | case2 pending line rest matched ih =>
      have split' := matched
      rw [matchLine_eq_decode] at split'
      obtain ⟨⟨item, n⟩, decoded, same⟩ := Option.map_eq_some_iff.mp split'
      cases same
      rw [matchLines, Decoder.drain_of_some _ decoded, ← ih]
      split
      · rename_i absent
        rw [absent] at matched
        cases matched
      · rename_i line' rest' matched'
        rw [matched] at matched'
        cases matched'
        rfl

/-! ## Whole snapshots -/

/-- The bytes of a read. -/
def Read.payload : Read → List UInt8
  | .data bytes => bytes
  | .again => []
  | .failed => []

/-- The reads cut a text into chunks, with any number of `EAGAIN` between them. -/
structure Cuts (text : List UInt8) (reads : List Read) : Prop where
  whole : reads.flatMap Read.payload = text
  plain : ∀ read ∈ reads, read ≠ .failed ∧ read ≠ .data []

/-- Fewer than 16 `EAGAIN` follow each other. -/
def Patient (reads : List Read) : Prop := ¬List.replicate userinfoReadRetries Read.again <:+: reads

section Rounds

variable {text : List UInt8} {reads : List Read} {bytes : List UInt8}

theorem Cuts.cons_again (cuts : Cuts text (.again :: reads)) : Cuts text reads :=
  ⟨cuts.whole, fun read member => cuts.plain read (List.mem_cons_of_mem _ member)⟩

theorem Cuts.not_failed (cuts : Cuts text (.failed :: reads)) : False :=
  (cuts.plain _ List.mem_cons_self).1 rfl

theorem Cuts.cons_data (cuts : Cuts text (.data bytes :: reads)) :
    bytes ≠ [] ∧ ∃ later, text = bytes ++ later ∧ Cuts later reads := by
  refine ⟨fun empty => (cuts.plain _ List.mem_cons_self).2 (empty ▸ rfl), _, cuts.whole.symm, rfl, ?_⟩
  exact fun read member => cuts.plain read (List.mem_cons_of_mem _ member)

theorem Patient.cons {read : Read} (patient : Patient (read :: reads)) : Patient reads :=
  fun run => patient (run.trans (List.suffix_cons read reads).isInfix)

/-- The first reader drains what is pending and all that is still to come. -/
theorem foreachLoop_drain (consumeLine : List UInt8 → Bool) (cuts : Cuts text reads)
    (now : Consumed)
    (drained : (Decoder.delimited newline).drain now.pending = ([], now.pending)) :
    let done := (Decoder.delimited newline).drain (now.pending ++ text)
    foreachLoop consumeLine reads now =
      ⟨now.lines ++ done.1, done.2, now.ok && done.1.all consumeLine⟩ := by
  induction reads generalizing text now with
  | nil =>
      obtain rfl : [] = text := cuts.whole
      simp [foreachLoop, drained]
  | cons read reads ih =>
      cases read with
      | failed => exact cuts.not_failed.elim
      | again => exact ih cuts.cons_again now drained
      | data bytes =>
          obtain ⟨filled, later, rfl, tail⟩ := cuts.cons_data
          rw [foreachLoop, if_neg filled, consumeLines_eq_drain, ← List.append_assoc,
            Decoder.drain_append]
          refine (ih tail _ (Decoder.drain_pending _ _)).trans ?_
          simp [Bool.and_assoc]

theorem Patient.few {retries : Nat}
    (patient : Patient (List.replicate retries .again ++ reads)) : retries < userinfoReadRetries := by
  by_contra many
  refine patient (List.IsInfix.trans ?_ (List.prefix_append _ reads).isInfix)
  rw [← Nat.add_sub_cancel' (not_lt.mp many), List.replicate_add]
  exact (List.prefix_append _ _).isInfix

theorem patient_of_length (short : reads.length < userinfoReadRetries) : Patient reads := by
  intro run
  have length := run.length_le
  rw [List.length_replicate] at length
  exact absurd short (not_lt.mpr length)

theorem Patient.right {earlier : List Read} (patient : Patient (earlier ++ reads)) : Patient reads :=
  fun run => patient (run.trans (List.suffix_append earlier reads).isInfix)

/-- The second reader drains the same bytes unless it meets too many `EAGAIN`. -/
theorem readLoop_drain (cuts : Cuts text reads) (now : Collected)
    (patient : Patient (List.replicate now.retries .again ++ reads))
    (drained : (Decoder.delimited newline).drain now.pending = ([], now.pending)) :
    let done := (Decoder.delimited newline).drain (now.pending ++ text)
    ∃ retries, readLoop reads now = some ⟨now.lines ++ done.1, done.2, retries⟩ := by
  induction reads generalizing text now with
  | nil =>
      obtain rfl : [] = text := cuts.whole
      exact ⟨now.retries, by simp [readLoop, patient.few, drained]⟩
  | cons read reads ih =>
      cases read with
      | failed => exact cuts.not_failed.elim
      | again =>
          rw [readLoop, if_pos patient.few]
          refine ih cuts.cons_again { now with retries := now.retries + 1 } ?_ drained
          rw [List.replicate_succ', List.append_assoc]
          exact patient
      | data bytes =>
          obtain ⟨filled, later, rfl, tail⟩ := cuts.cons_data
          obtain ⟨retries, loop⟩ :=
            ih tail ⟨now.lines ++ ((Decoder.delimited newline).drain (now.pending ++ bytes)).1, _, 0⟩
              patient.right.cons (Decoder.drain_pending _ (now.pending ++ bytes))
          refine ⟨retries, ?_⟩
          rw [← List.append_assoc, Decoder.drain_append]
          rw [readLoop, if_pos patient.few, if_neg filled, matchLines_eq_drain]
          exact loop.trans (by simp)

end Rounds

/-- Both readers deliver the lines of a stream of whole lines in order, however it is cut
into reads, as long as the second one does not meet 16 `EAGAIN` in a row. -/
theorem readers_deliver_lines (text : List UInt8)
    (terminated : ∀ last ∈ text.getLast?, last = newline) (consumeLine : List UInt8 → Bool)
    (first second : Device) (firstCuts : Cuts text first.reads)
    (secondCuts : Cuts text second.reads) (patient : Patient second.reads) :
    ∃ lines : List (List UInt8), (∀ line ∈ lines, newline ∉ line) ∧
      text = lines.flatMap (· ++ [newline]) ∧
      foreachUserinfo consumeLine (some first) = (lines, lines.all consumeLine && first.closes) ∧
      readUserinfoLines (some second) = some lines := by
  obtain ⟨lines, clean, rfl⟩ := Decoder.exists_lines terminated
  have drained := Decoder.drain_lines clean
  have empty : (Decoder.delimited newline).drain [] = ([], []) :=
    Decoder.drain_of_none _ (Decoder.delimited_decode_none List.not_mem_nil)
  refine ⟨lines, clean, rfl, ?_, ?_⟩
  · have loop := foreachLoop_drain consumeLine firstCuts ⟨[], [], true⟩ empty
    simp only [List.nil_append, drained] at loop
    simp [foreachUserinfo, loop]
  · obtain ⟨retries, loop⟩ := readLoop_drain secondCuts ⟨[], [], 0⟩ patient empty
    simp only [List.nil_append, drained] at loop
    simp [readUserinfoLines, loop]

/-- Two lines, cut next to and inside a line, with an `EAGAIN` between the halves. -/
theorem readers_deliver_lines_cut :
    ∃ lines : List (List UInt8), (∀ line ∈ lines, newline ∉ line) ∧
      [97, 10, 10, 98, 99, 10] = lines.flatMap (· ++ [newline]) ∧
      foreachUserinfo (fun _ => true) (some ⟨[.data [97], .again, .data [10, 10, 98], .data [99, 10]], true⟩) =
        (lines, lines.all (fun _ => true) && true) ∧
      readUserinfoLines (some ⟨[.again, .data [97, 10], .data [10, 98, 99], .again, .data [10]], true⟩) =
        some lines :=
  readers_deliver_lines [97, 10, 10, 98, 99, 10] (by simp [newline]) (fun _ => true)
    ⟨[.data [97], .again, .data [10, 10, 98], .data [99, 10]], true⟩
    ⟨[.again, .data [97, 10], .data [10, 98, 99], .again, .data [10]], true⟩
    ⟨rfl, by simp⟩ ⟨rfl, by simp⟩ (patient_of_length (by decide))

end XWrt.Natflow.UserinfoLines
