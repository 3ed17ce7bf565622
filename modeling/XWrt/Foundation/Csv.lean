import Mathlib.Data.List.Basic

/-!
# Comma-separated values

The record grammar of RFC 4180 over bytes, for any alphabet of plain text bytes,
and a reader that takes one record off a stream. What the grammar derives the
reader gives back, so a record stands for one list of values only.
-/

namespace XWrt.Foundation.Csv

def quote : UInt8 := 34
def comma : UInt8 := 44
def lineFeed : UInt8 := 10
def carriageReturn : UInt8 := 13

/-- The bytes that stand for themselves only between quotes. -/
def Special (byte : UInt8) : Prop := byte = quote ∨ byte = comma ∨ byte = carriageReturn ∨ byte = lineFeed

instance : DecidablePred Special := fun _ => inferInstanceAs (Decidable (_ ∨ _ ∨ _ ∨ _))

/-- `TEXTDATA` as the RFC has it: the printable ASCII bytes that are not special. -/
def TextData (byte : UInt8) : Prop := 32 ≤ byte ∧ byte ≤ 126 ∧ ¬ Special byte

instance : DecidablePred TextData := fun _ => inferInstanceAs (Decidable (_ ∧ _ ∧ _))

/-- The same for texts of any bytes. -/
def Octet (byte : UInt8) : Prop := ¬ Special byte

section Grammar

variable (text : UInt8 → Prop)

/-- The inside of a quoted field and its value. -/
inductive Escaped : List UInt8 → List UInt8 → Prop where
  | nil : Escaped [] []
  | plain {byte : UInt8} {raw value : List UInt8} (legal : text byte ∨ Special byte) (bare : byte ≠ quote)
      (rest : Escaped raw value) : Escaped (byte :: raw) (byte :: value)
  | doubled {raw value : List UInt8} (rest : Escaped raw value) : Escaped (quote :: quote :: raw) (quote :: value)

/-- A field and its value. -/
inductive Field : List UInt8 → List UInt8 → Prop where
  | escaped {raw value : List UInt8} (inside : Escaped text raw value) : Field (quote :: (raw ++ [quote])) value
  | bare {raw : List UInt8} (legal : ∀ byte ∈ raw, text byte) : Field raw raw

/-- A record and its values. -/
inductive Record : List UInt8 → List (List UInt8) → Prop where
  | last {raw value : List UInt8} (field : Field text raw value) : Record raw [value]
  | more {raw value line : List UInt8} {values : List (List UInt8)} (field : Field text raw value)
      (rest : Record line values) : Record (raw ++ comma :: line) (value :: values)

end Grammar

/-! ## A reader -/

/-- Behind an opening quote: the value up to the closing quote, and what follows. -/
def unquote : List UInt8 → Option (List UInt8 × List UInt8)
  | [] => none
  | [byte] => if byte = quote then some ([], []) else none
  | byte :: next :: rest =>
      if byte ≠ quote then (unquote (next :: rest)).map fun (value, after) => (byte :: value, after)
      else if next = quote then (unquote rest).map fun (value, after) => (quote :: value, after)
      else some ([], next :: rest)

def readField : List UInt8 → Option (List UInt8 × List UInt8)
  | [] => some ([], [])
  | byte :: rest =>
      if byte = quote then unquote rest
      else some ((byte :: rest).takeWhile (¬ Special ·), (byte :: rest).dropWhile (¬ Special ·))

/-- One record and what follows it; at most `fuel` fields. -/
def readFields : Nat → List UInt8 → Option (List (List UInt8) × List UInt8)
  | 0, _ => none
  | fuel + 1, bytes => do
      let (value, rest) ← readField bytes
      match rest with
      | [] => some ([value], [])
      | next :: others =>
          if next = comma then
            let (values, after) ← readFields fuel others
            some (value :: values, after)
          else some ([value], next :: others)

/-- A record has at most one field more than bytes. -/
def readRecord (bytes : List UInt8) : Option (List (List UInt8) × List UInt8) := readFields (bytes.length + 1) bytes

/-! ## The reader accepts the grammar -/

/-- The byte after a field: none, or one that is special and no quote. -/
def Ends (rest : List UInt8) : Prop := ∀ byte ∈ rest.head?, Special byte ∧ byte ≠ quote

theorem unquote_plain {byte : UInt8} (bare : byte ≠ quote) {rest : List UInt8} (more : rest ≠ []) :
    unquote (byte :: rest) = (unquote rest).map fun (value, after) => (byte :: value, after) := by
  obtain ⟨next, others, rfl⟩ := List.exists_cons_of_ne_nil more
  rw [unquote, if_pos bare]

theorem unquote_of_escaped {text : UInt8 → Prop} {raw value : List UInt8} (inside : Escaped text raw value)
    {rest : List UInt8} (ends : Ends rest) : unquote (raw ++ quote :: rest) = some (value, rest) := by
  induction inside with
  | nil =>
      cases rest with
      | nil => rfl
      | cons next others => rw [List.nil_append, unquote, if_neg (not_not.mpr rfl), if_neg (ends next rfl).2]
  | plain legal bare inside ih => rw [List.cons_append, unquote_plain bare (by simp), ih, Option.map_some]
  | doubled inside ih =>
      rw [List.cons_append, List.cons_append, unquote, if_neg (not_not.mpr rfl), if_pos rfl, ih, Option.map_some]

section Reader

variable {text : UInt8 → Prop}

/-- Text bytes end where a field ends. -/
theorem span_special {raw rest : List UInt8} (plain : ∀ byte ∈ raw, ¬ Special byte) (ends : Ends rest) :
    (raw ++ rest).takeWhile (¬ Special ·) = raw ∧ (raw ++ rest).dropWhile (¬ Special ·) = rest := by
  have legal : ∀ byte ∈ raw, decide (¬ Special byte) = true := fun byte inside => decide_eq_true (plain byte inside)
  have stop : rest.takeWhile (¬ Special ·) = [] ∧ rest.dropWhile (¬ Special ·) = rest := by
    cases rest with
    | nil => exact ⟨rfl, rfl⟩
    | cons next others =>
        have special := (ends next rfl).1
        simp [special]
  rw [List.takeWhile_append_of_pos legal, List.dropWhile_append_of_pos legal, stop.1, stop.2, List.append_nil]
  exact ⟨rfl, rfl⟩

theorem readField_of_field (plain : ∀ byte, text byte → ¬ Special byte) {raw value : List UInt8}
    (field : Field text raw value) {rest : List UInt8} (ends : Ends rest) :
    readField (raw ++ rest) = some (value, rest) := by
  cases field with
  | escaped inside =>
      rw [List.cons_append, readField, if_pos rfl, List.append_assoc, List.singleton_append]
      exact unquote_of_escaped inside ends
  | bare legal =>
      obtain ⟨front, back⟩ := span_special (fun byte inside => plain byte (legal byte inside)) ends
      cases bytes : raw ++ rest with
      | nil =>
          obtain ⟨rfl, rfl⟩ := List.append_eq_nil_iff.mp bytes
          rfl
      | cons first others =>
          have unquoted : first ≠ quote := by
            rintro rfl
            cases raw with
            | nil => exact (ends quote (by rw [← List.nil_append rest, bytes]; rfl)).2 rfl
            | cons byte raw =>
                obtain rfl := (List.cons.inj bytes).1
                exact plain quote (legal quote (.head _)) (.inl rfl)
          rw [readField, if_neg unquoted, ← bytes, front, back]

/-- The bytes after a record: none, or the end of a line. -/
def LineEnds (rest : List UInt8) : Prop := ∀ byte ∈ rest.head?, byte = carriageReturn ∨ byte = lineFeed

theorem LineEnds.ends {rest : List UInt8} (ends : LineEnds rest) : Ends rest := by
  intro byte first
  rcases ends byte first with rfl | rfl <;> decide

theorem ends_comma (line : List UInt8) : Ends (comma :: line) := by
  intro byte first
  obtain rfl := Option.some.inj first
  decide

theorem readFields_of_record (plain : ∀ byte, text byte → ¬ Special byte) {line : List UInt8}
    {values : List (List UInt8)} (record : Record text line values) {rest : List UInt8} (ends : LineEnds rest)
    {fuel : Nat} (enough : line.length < fuel) : readFields fuel (line ++ rest) = some (values, rest) := by
  induction record generalizing fuel with
  | last field =>
      obtain ⟨fuel, rfl⟩ := Nat.exists_eq_succ_of_ne_zero (Nat.ne_zero_of_lt enough)
      rw [readFields, readField_of_field plain field ends.ends]
      cases rest with
      | nil => rfl
      | cons next others =>
          have other : next ≠ comma := by rcases ends next rfl with rfl | rfl <;> decide
          exact if_neg other
  | @more raw value line values field record ih =>
      obtain ⟨fuel, rfl⟩ := Nat.exists_eq_succ_of_ne_zero (Nat.ne_zero_of_lt enough)
      rw [List.length_append, List.length_cons] at enough
      rw [readFields, List.append_assoc, List.cons_append, readField_of_field plain field (ends_comma _)]
      simp only [Option.bind_eq_bind, Option.bind_some, if_pos]
      rw [ih (by omega), Option.bind_some]

/-- What the grammar derives is read back. -/
theorem readRecord_of_record (plain : ∀ byte, text byte → ¬ Special byte) {line : List UInt8}
    {values : List (List UInt8)} (record : Record text line values) {rest : List UInt8} (ends : LineEnds rest) :
    readRecord (line ++ rest) = some (values, rest) :=
  readFields_of_record plain record ends (by rw [List.length_append]; omega)

/-- A record stands for one list of values. -/
theorem Record.unique (plain : ∀ byte, text byte → ¬ Special byte) {line : List UInt8} {values others : List (List UInt8)}
    (record : Record text line values) (other : Record text line others) : others = values := by
  have ends : LineEnds [] := nofun
  have read := readRecord_of_record plain record ends
  have read' := readRecord_of_record plain other ends
  rw [read] at read'
  exact (congrArg Prod.fst (Option.some.inj read')).symm

end Reader

end XWrt.Foundation.Csv
