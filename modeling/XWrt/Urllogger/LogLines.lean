import XWrt.Urllogger.PrintEvent

/-!
# The log lines

The loop of `urllogger.sh` reads what the reader prints line by line, stores
each line and rotates the log after every 500. A newline in a payload is
printed as it is, inside quotes, so such an event is several lines for the loop.
-/

namespace XWrt.Urllogger

open XWrt.Foundation

/-! ## The loop -/

/-- The state of the loop, with the log as its lines. -/
structure Logger where
  count : Nat
  log : List (List UInt8)
  deriving DecidableEq, Repr

/-- `rotate_log`: a log of `logsize` bytes keeps the last six tenths of its lines. -/
def rotateLog (logsize : Nat) (log : List (List UInt8)) : List (List UInt8) :=
  let size := (log.map fun line => line.length + 1).sum
  if logsize ≤ size then
    let lines := log.length * 6 / 10
    log.drop (log.length - lines)
  else log

/-- The body of the loop. A shell variable holds no NUL bytes. -/
def Logger.store (logsize : Nat) (s : Logger) (line : List UInt8) : Logger :=
  let count := s.count + 1
  let rotated : Logger := if 500 ≤ count then ⟨0, rotateLog logsize s.log⟩ else ⟨count, s.log⟩
  { rotated with log := rotated.log ++ [line.filter (· ≠ 0)] }

/-- `while IFS= read -r line`: what follows the last newline is not stored. -/
def readLines (text : List UInt8) : List (List UInt8) := ((Decoder.delimited 10).drain text).1

/-- The loop over a text. -/
def Logger.consume (logsize : Nat) (s : Logger) (text : List UInt8) : Logger :=
  (readLines text).foldl (Logger.store logsize) s

/-! ## Newlines -/

theorem newline_not_mem_ascii {text : List Char} (plain : Plain text) : (10 : UInt8) ∉ ascii text :=
  fun inside => absurd (textData_ascii plain 10 inside) (by decide)

theorem count_csvWriteField (data : List UInt8) : (csvWriteField data).count 10 = data.count 10 := by
  have body : (data.flatMap fun byte => if byte = 34 then [34, byte] else [byte]).count 10 = data.count 10 := by
    induction data with
    | nil => rfl
    | cons byte data ih =>
        rw [List.flatMap_cons, List.count_append, ih]
        split
        next quote =>
          subst quote
          simp
        next => rw [List.count_singleton, List.count_cons, Nat.add_comm]
  unfold csvWriteField
  dsimp only
  split
  · rw [List.count_cons_of_ne (by decide), List.count_append, body]
    rfl
  · exact body

/-- All newlines of a line come from the payload. -/
theorem count_eventLine (clock : Clock) (event : Event) : (eventLine clock event).count 10 = event.payload.count 10 := by
  have heads : ((headFields clock event.hdr).flatMap fun field => ascii field ++ [44]).count 10 = 0 := by
    rw [List.count_eq_zero, List.mem_flatMap]
    rintro ⟨field, inside, member⟩
    rcases List.mem_append.mp member with text | comma
    · exact newline_not_mem_ascii (plain_headFields clock event.hdr field inside) text
    · exact absurd (List.mem_singleton.mp comma) (by decide)
  rw [eventLine, List.count_append, heads, Nat.zero_add, count_csvWriteField]

/-- The loop reads as many lines as there are newlines. -/
theorem length_readLines {text : List UInt8} (terminated : text.getLast? = some 10) :
    (readLines text).length = text.count 10 := by
  obtain ⟨lines, clean, rfl⟩ := Decoder.exists_lines fun last isLast => (Option.some.inj (terminated.symm.trans isLast)).symm
  rw [readLines, Decoder.drain_lines clean]
  clear terminated
  induction lines with
  | nil => rfl
  | cons line lines ih =>
      obtain ⟨here, others⟩ := List.forall_mem_cons.mp clean
      rw [List.flatMap_cons, List.count_append, List.count_append, List.count_eq_zero.mpr here, ← ih others, List.length_cons,
        Nat.add_comm]
      rfl

theorem printEvent_eq (clock : Clock) (event : Event) : printEvent clock event = eventLine clock event ++ [10] := rfl

theorem printEvent_getLast? (clock : Clock) (event : Event) : (printEvent clock event).getLast? = some 10 := by
  rw [printEvent_eq]
  exact List.getLast?_concat

theorem newline_not_mem_eventLine (clock : Clock) {event : Event} (clean : 10 ∉ event.payload) :
    10 ∉ eventLine clock event := by
  rw [← List.count_eq_zero] at clean ⊢
  rw [count_eventLine, clean]

/-! ## What the loop stores -/

/-- The text of a line in the log. -/
def stored (line : List UInt8) : List UInt8 := line.filter (· ≠ 0)

theorem rotateLog_suffix (logsize : Nat) (log : List (List UInt8)) : rotateLog logsize log <:+ log := by
  unfold rotateLog
  dsimp only
  split
  · exact List.drop_suffix _ _
  · exact List.suffix_rfl

theorem store_log (logsize : Nat) (s : Logger) (line : List UInt8) :
    (s.store logsize line).log <:+ s.log ++ [stored line] := by
  unfold Logger.store
  dsimp only
  split
  · exact (List.suffix_append_self_iff).mpr (rotateLog_suffix logsize s.log)
  · exact List.suffix_rfl

theorem store_count (logsize : Nat) {s : Logger} (below : s.count < 500) (line : List UInt8) :
    (s.store logsize line).count = (s.count + 1) % 500 := by
  unfold Logger.store
  dsimp only
  split
  next full => rw [show s.count + 1 = 500 by omega]
  next short => rw [Nat.mod_eq_of_lt (by omega)]

/-- The log is the end of what it was and of the lines, each once and in order; the count goes round with the lines. -/
theorem foldl_store (logsize : Nat) (lines : List (List UInt8)) {s : Logger} (below : s.count < 500) :
    (lines.foldl (Logger.store logsize) s).log <:+ s.log ++ lines.map stored ∧
      (lines.foldl (Logger.store logsize) s).count = (s.count + lines.length) % 500 := by
  induction lines generalizing s with
  | nil => exact ⟨by simp, (Nat.mod_eq_of_lt below).symm⟩
  | cons line lines ih =>
      have count := store_count logsize below line
      obtain ⟨log, counted⟩ := ih (count ▸ Nat.mod_lt _ (by decide) : (s.store logsize line).count < 500)
      constructor
      · refine log.trans ?_
        rw [List.map_cons, List.append_cons]
        exact List.suffix_append_self_iff.mpr (store_log logsize s line)
      · rw [List.foldl_cons, counted, count, List.length_cons, Nat.mod_add_mod]
        congr 1
        omega

/-! ## Events as lines -/

theorem printEvent_oneLine_iff (clock : Clock) (event : Event) :
    (printEvent clock event).count 10 = 1 ↔ 10 ∉ event.payload := by
  rw [printEvent_eq, List.count_append, count_eventLine, ← List.count_eq_zero]
  exact Nat.succ_inj

/-- One event is one line exactly when no payload has a newline: then every text ends with its only newline, the loop
reads one line for each event, and neither the count nor the log sees anything else. -/
theorem printEvents_lines_iff {order : ByteOrder} {prints : List (Clock × List UInt8)}
    (wf : ∀ printed ∈ prints, WellFormed order printed.2) :
    let line := fun printed : Clock × List UInt8 => eventLine printed.1 (eventOf order printed.2)
    let text := fun printed : Clock × List UInt8 => printEvent printed.1 (eventOf order printed.2)
    ((∀ printed ∈ prints, (text printed).count 10 = 1 ∧ (text printed).getLast? = some 10) ∧
      readLines (prints.flatMap text) = prints.map line ∧
      ∀ (logsize : Nat) (s : Logger), s.count < 500 →
        (s.consume logsize (prints.flatMap text)).log <:+ s.log ++ prints.map (fun printed => stored (line printed)) ∧
          (s.consume logsize (prints.flatMap text)).count = (s.count + prints.length) % 500) ↔
      ∀ printed ∈ prints, 10 ∉ printed.2.drop (eventOf order printed.2).hdr.headerLen := by
  intro line text
  have payload : ∀ printed ∈ prints, (eventOf order printed.2).payload =
      printed.2.drop (eventOf order printed.2).hdr.headerLen := fun printed inside => eventOf_payload (wf printed inside)
  constructor
  · rintro ⟨single, -, -⟩ printed inside
    rw [← payload printed inside]
    exact (printEvent_oneLine_iff _ _).mp (single printed inside).1
  · intro clean
    have plain : ∀ printed ∈ prints, 10 ∉ (eventOf order printed.2).payload := by
      intro printed inside
      rw [payload printed inside]
      exact clean printed inside
    have lines : readLines (prints.flatMap text) = prints.map line := by
      have whole : prints.flatMap text = (prints.map line).flatMap (· ++ [10]) := by
        rw [List.flatMap_map]
        rfl
      rw [readLines, whole, Decoder.drain_lines]
      intro other inside
      obtain ⟨printed, member, rfl⟩ := List.mem_map.mp inside
      exact newline_not_mem_eventLine _ (plain printed member)
    refine ⟨?_, lines, ?_⟩
    · exact fun printed inside => ⟨(printEvent_oneLine_iff _ _).mpr (plain printed inside), printEvent_getLast? _ _⟩
    · intro logsize s below
      rw [Logger.consume, lines]
      obtain ⟨log, count⟩ := foldl_store logsize (prints.map line) below
      rw [List.map_map] at log
      rw [List.length_map] at count
      exact ⟨log, count⟩

/-- A record whose payload is `a`, a newline and `b`. -/
def newlineRecord : List UInt8 := [2, 0, 62, 0, 65, 0, 2, 0] ++ List.replicate 54 0 ++ [97, 10, 98]

/-- The loop takes this event for two. -/
theorem newlineRecord_two_lines :
    WellFormed .little newlineRecord ∧
      (printEvent ⟨0, none, fun _ => none⟩ (eventOf .little newlineRecord)).count 10 = 2 ∧
      (readLines (printEvent ⟨0, none, fun _ => none⟩ (eventOf .little newlineRecord))).length = 2 := by
  have count : (printEvent ⟨0, none, fun _ => none⟩ (eventOf .little newlineRecord)).count 10 = 2 := by
    rw [printEvent_eq, List.count_append, count_eventLine]
    decide
  refine ⟨⟨by decide, by decide, by decide, by decide, by decide⟩, count, ?_⟩
  rw [length_readLines (printEvent_getLast? _ _), count]

theorem printEvents_lines_sample :
    let line := eventLine ⟨0, none, fun _ => none⟩ (eventOf .little sampleRecord)
    let text := printEvent ⟨0, none, fun _ => none⟩ (eventOf .little sampleRecord)
    text.count 10 = 1 ∧ readLines ([text, text].flatten) = [line, line] := by
  have wf : WellFormed .little sampleRecord := ⟨by decide, by decide, by decide, by decide, by decide⟩
  let prints : List (Clock × List UInt8) := List.replicate 2 (⟨0, none, fun _ => none⟩, sampleRecord)
  have formed : ∀ printed ∈ prints, WellFormed .little printed.2 := fun printed inside => List.eq_of_mem_replicate inside ▸ wf
  have clean : ∀ printed ∈ prints, 10 ∉ printed.2.drop (eventOf .little printed.2).hdr.headerLen := by
    intro printed inside
    rw [List.eq_of_mem_replicate inside]
    decide
  have lines := (printEvents_lines_iff formed).mpr clean
  exact ⟨(lines.1 _ (.head _)).1, lines.2.1⟩

end XWrt.Urllogger
