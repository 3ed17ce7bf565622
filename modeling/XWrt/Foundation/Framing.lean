import Mathlib.Data.List.Infix

/-!
# Incremental decoding of framed streams

A decoder recognises one frame at the start of a buffer. Draining a buffer
decodes frames until none is complete and keeps the rest. Draining does not
depend on where the stream was cut, and on a prefix of a stream of frames it
yields the complete frames and a strict prefix of the next one.
-/

namespace XWrt.Foundation

/-- Recognises a frame at the start of the buffer, with its length. Later bytes
do not change what was recognised. -/
structure Decoder (β α : Type*) where
  decode : List β → Option (α × Nat)
  consumes : ∀ {bytes : List β} {item : α} {n : Nat},
    decode bytes = some (item, n) → 0 < n ∧ n ≤ bytes.length
  stable : ∀ {bytes : List β} {item : α} {n : Nat} (more : List β),
    decode bytes = some (item, n) → decode (bytes ++ more) = some (item, n)

namespace Decoder

variable {β α : Type*} (decoder : Decoder β α)

/-- Decode as many frames as are complete; keep the bytes after them. -/
def drain (bytes : List β) : List α × List β :=
  match _found : decoder.decode bytes with
  | none => ([], bytes)
  | some (item, n) =>
      let rest := drain (bytes.drop n)
      (item :: rest.1, rest.2)
termination_by bytes.length
decreasing_by
  have := decoder.consumes _found
  rw [List.length_drop]
  omega

theorem drain_of_none {bytes : List β} (found : decoder.decode bytes = none) :
    decoder.drain bytes = ([], bytes) := by
  rw [drain]
  split
  · rfl
  · next other => rw [found] at other; cases other

theorem drain_of_some {bytes : List β} {item : α} {n : Nat} (found : decoder.decode bytes = some (item, n)) :
    decoder.drain bytes =
      (item :: (decoder.drain (bytes.drop n)).1, (decoder.drain (bytes.drop n)).2) := by
  rw [drain]
  split
  · next other => rw [found] at other; cases other
  · next other =>
      rw [found] at other
      cases other
      rfl

/-- Where the buffer was cut does not matter. -/
theorem drain_append (bytes more : List β) :
    decoder.drain (bytes ++ more) =
      ((decoder.drain bytes).1 ++ (decoder.drain ((decoder.drain bytes).2 ++ more)).1,
        (decoder.drain ((decoder.drain bytes).2 ++ more)).2) := by
  induction size : bytes.length using Nat.strongRecOn generalizing bytes with
  | ind length ih =>
      cases found : decoder.decode bytes with
      | none => simp [decoder.drain_of_none found]
      | some result =>
          obtain ⟨item, n⟩ := result
          obtain ⟨pos, within⟩ := decoder.consumes found
          have shorter : (bytes.drop n).length < length := by
            rw [List.length_drop]
            omega
          rw [decoder.drain_of_some found, decoder.drain_of_some (decoder.stable more found),
            List.drop_append_of_le_length within, ih _ shorter _ rfl]
          rfl

/-- What draining leaves holds no frame. -/
theorem drain_pending (bytes : List β) :
    decoder.drain (decoder.drain bytes).2 = ([], (decoder.drain bytes).2) := by
  have whole := decoder.drain_append bytes []
  rw [List.append_nil, List.append_nil] at whole
  have nothing := List.self_eq_append_right.mp (congrArg Prod.fst whole)
  exact Prod.ext nothing (congrArg Prod.snd whole).symm

/-- The buffer is exactly one frame. -/
def IsFrame (frame : List β) (item : α) : Prop := decoder.decode frame = some (item, frame.length)

variable {decoder}

theorem IsFrame.nonempty {frame : List β} {item : α} (whole : decoder.IsFrame frame item) :
    0 < frame.length :=
  (decoder.consumes whole).1

/-- A strict prefix of a frame is not recognised yet. -/
theorem IsFrame.incomplete {frame start : List β} {item : α} (whole : decoder.IsFrame frame item)
    (before : start <+: frame) (strict : start.length < frame.length) : decoder.decode start = none := by
  obtain ⟨more, rfl⟩ := before
  cases found : decoder.decode start with
  | none => rfl
  | some result =>
      obtain ⟨other, n⟩ := result
      have within := (decoder.consumes found).2
      have clash := (decoder.stable more found).symm.trans whole
      cases clash
      omega

/-- The bytes are what has been seen of the first of the frames still to come. -/
def PartOfNext (pending : List β) : List (List β) → Prop
  | [] => pending = []
  | next :: _ => pending <+: next ∧ pending.length < next.length

/-- When all the bytes of the frames to come are there, no frame is to come. -/
theorem PartOfNext.eq_nil {pending : List β} {rest : List (List β)} (part : PartOfNext pending rest)
    (whole : rest.flatten = pending) : rest = [] := by
  cases rest with
  | nil => rfl
  | cons next rest =>
      have short := part.2
      rw [← whole, List.flatten_cons, List.length_append] at short
      omega

variable (decoder) in
/-- What draining makes of a prefix of a stream of frames. -/
theorem drain_frames_pending (item : List β → α) (frames : List (List β))
    (whole : ∀ frame ∈ frames, decoder.IsFrame frame (item frame)) {bytes : List β}
    (before : bytes <+: frames.flatten) :
    ∃ (done rest : List (List β)) (pending : List β),
      frames = done ++ rest ∧ bytes = done.flatten ++ pending ∧ PartOfNext pending rest ∧
        decoder.drain bytes = (done.map item, pending) := by
  induction frames generalizing bytes with
  | nil =>
      have empty : bytes = [] := List.prefix_nil.mp before
      subst empty
      have nothing : decoder.decode [] = none := by
        cases found : decoder.decode [] with
        | none => rfl
        | some result =>
            have := decoder.consumes found
            simp only [List.length_nil] at this
            omega
      exact ⟨[], [], [], rfl, rfl, rfl, decoder.drain_of_none nothing⟩
  | cons frame frames ih =>
      have first := whole frame (.head _)
      rw [List.flatten_cons] at before
      by_cases short : bytes.length < frame.length
      · have inside : bytes <+: frame :=
          List.prefix_of_prefix_length_le before (List.prefix_append _ _) short.le
        exact ⟨[], frame :: frames, bytes, rfl, rfl, ⟨inside, short⟩,
          decoder.drain_of_none (first.incomplete inside short)⟩
      · have starts : frame <+: bytes :=
          List.prefix_of_prefix_length_le (List.prefix_append _ _) before (not_lt.mp short)
        obtain ⟨more, rfl⟩ := starts
        have tail : more <+: frames.flatten := (List.prefix_append_right_inj frame).mp before
        obtain ⟨done, rest, pending, framesEq, moreEq, part, drained⟩ :=
          ih (fun other member => whole other (.tail _ member)) tail
        refine ⟨frame :: done, rest, pending, by rw [framesEq, List.cons_append], ?_, part, ?_⟩
        · rw [moreEq, List.flatten_cons, List.append_assoc]
        · rw [decoder.drain_of_some (decoder.stable more first), List.drop_left, drained, List.map_cons]

/-! ## Frames of one size -/

section Sized

variable {size : Nat}

/-- Every frame has `size` bytes. -/
def sized (size : Nat) (positive : 0 < size) : Decoder β (List β) where
  decode bytes := if size ≤ bytes.length then some (bytes.take size, size) else none
  consumes := by
    intro bytes item n decoded
    obtain ⟨long, same⟩ := Option.ite_none_right_eq_some.mp decoded
    cases same
    exact ⟨positive, long⟩
  stable := by
    intro bytes item n more decoded
    obtain ⟨long, same⟩ := Option.ite_none_right_eq_some.mp decoded
    cases same
    have longer : size ≤ (bytes ++ more).length := by
      rw [List.length_append]
      exact Nat.le_add_right_of_le long
    rw [if_pos longer, List.take_append_of_le_length long]

theorem sized_decode {positive : 0 < size} {bytes : List β} (long : size ≤ bytes.length) :
    (sized size positive).decode bytes = some (bytes.take size, size) :=
  if_pos long

theorem sized_decode_none {positive : 0 < size} {bytes : List β} (short : bytes.length < size) :
    (sized size positive).decode bytes = none :=
  if_neg (not_le.mpr short)

theorem sized_isFrame {positive : 0 < size} {frame : List β} (exact : frame.length = size) :
    (sized size positive).IsFrame frame frame := by
  show _ = some (frame, frame.length)
  rw [sized_decode exact.ge, exact, ← exact, List.take_length]

end Sized

/-! ## Delimited frames -/

theorem lt_of_findIdx?_eq_some {p : β → Bool} {bytes : List β} {i : Nat}
    (found : bytes.findIdx? p = some i) : i < bytes.length := by
  obtain ⟨within, -⟩ := List.findIdx?_eq_some_iff_getElem.mp found
  exact within

section Delimited

variable [DecidableEq β] (delimiter : β)

/-- A frame is everything up to the next delimiter. -/
def delimited : Decoder β (List β) where
  decode bytes := (bytes.findIdx? (· = delimiter)).map fun i => (bytes.take i, i + 1)
  consumes := by
    intro bytes item n decoded
    obtain ⟨i, found, same⟩ := Option.map_eq_some_iff.mp decoded
    cases same
    exact ⟨Nat.succ_pos i, lt_of_findIdx?_eq_some found⟩
  stable := by
    intro bytes item n more decoded
    obtain ⟨i, found, same⟩ := Option.map_eq_some_iff.mp decoded
    cases same
    rw [List.findIdx?_append, found, Option.some_or, Option.map_some,
      List.take_append_of_le_length (lt_of_findIdx?_eq_some found).le]

variable {delimiter}

theorem findIdx?_delimiter {line : List β} (clean : delimiter ∉ line) (rest : List β) :
    (line ++ delimiter :: rest).findIdx? (· = delimiter) = some line.length := by
  induction line with
  | nil => simp [List.findIdx?_cons]
  | cons first line ih =>
      rw [List.mem_cons, not_or] at clean
      rw [List.cons_append, List.findIdx?_cons, ih clean.2]
      simp [Ne.symm clean.1]

theorem delimited_decode {line : List β} (clean : delimiter ∉ line) (rest : List β) :
    (delimited delimiter).decode (line ++ delimiter :: rest) = some (line, line.length + 1) := by
  show Option.map _ (List.findIdx? _ _) = _
  rw [findIdx?_delimiter clean, Option.map_some, List.take_left]

theorem delimited_decode_none {bytes : List β} (clean : delimiter ∉ bytes) :
    (delimited delimiter).decode bytes = none := by
  show Option.map _ (List.findIdx? _ _) = none
  rw [Option.map_eq_none_iff, List.findIdx?_eq_none_iff]
  intro byte member
  exact decide_eq_false fun same => clean (same ▸ member)

/-- Draining whole lines gives the lines. -/
theorem drain_lines {lines : List (List β)} (clean : ∀ line ∈ lines, delimiter ∉ line) :
    (delimited delimiter).drain (lines.flatMap (· ++ [delimiter])) = (lines, []) := by
  induction lines with
  | nil => exact drain_of_none _ (delimited_decode_none List.not_mem_nil)
  | cons line lines ih =>
      rw [List.forall_mem_cons] at clean
      rw [List.flatMap_cons, List.append_assoc, List.singleton_append,
        drain_of_some _ (delimited_decode clean.1 _)]
      simp [List.drop_append, List.drop_of_length_le, ih clean.2]

/-- A stream that ends with the delimiter is a sequence of whole lines. -/
theorem exists_lines {text : List β} (terminated : ∀ last ∈ text.getLast?, last = delimiter) :
    ∃ lines : List (List β), (∀ line ∈ lines, delimiter ∉ line) ∧
      text = lines.flatMap (· ++ [delimiter]) := by
  induction text with
  | nil => exact ⟨[], by simp, rfl⟩
  | cons first text ih =>
      have tail : ∀ last ∈ text.getLast?, last = delimiter := by
        intro last isLast
        refine terminated last ?_
        rw [Option.mem_def] at isLast ⊢
        rw [List.getLast?_cons, isLast]
        rfl
      obtain ⟨lines, clean, rfl⟩ := ih tail
      by_cases ends : first = delimiter
      · exact ⟨[] :: lines, List.forall_mem_cons.mpr ⟨List.not_mem_nil, clean⟩, by simp [ends]⟩
      · cases lines with
        | nil => exact absurd (terminated first rfl) ends
        | cons line lines =>
            rw [List.forall_mem_cons] at clean
            refine ⟨(first :: line) :: lines, List.forall_mem_cons.mpr ⟨?_, clean.2⟩, by simp⟩
            rw [List.mem_cons, not_or]
            exact ⟨Ne.symm ends, clean.1⟩

end Delimited

end Decoder

end XWrt.Foundation
