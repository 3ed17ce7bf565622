import XWrt.Foundation.Pieces
import XWrt.Foundation.Shell

/-!
# The configuration of the controller

The file that the controller hands out as its agents have it, `fakemeshac`: a
list of sections with their options. A text is a list of bytes. `uci show` prints
an entry for each section and each option, and a value with its newlines.
-/

namespace XWrt.Fakemesh

open XWrt.Foundation
open Text Shell

/-- The characters of names in UCI. -/
def isNameChar (char : Char) : Bool := char.isAlphanum || char == '_'

/-- The name of a section as `uci show` has it: its own, or its type and number. -/
def IsShownName (name type : List Char) : Prop :=
  name ≠ [] ∧ name.all isNameChar ∨ ∃ digits : List Char, digits.all Char.isDigit ∧ name = '@' :: type ++ '[' :: digits ++ [']']

/-- What every entry begins with. -/
def package : List Char := "fakemeshac.".toList

/-- A section with its options. -/
structure AcSection where
  name : List Char
  type : List Char
  options : List (List Char × List Char)
  named : IsShownName name type
  typed : type ≠ [] ∧ ∀ char ∈ type, 33 ≤ char.toNat ∧ char.toNat ≤ 126
  optionsNamed : ∀ option ∈ options, option.1 ≠ [] ∧ option.1.all isNameChar

/-- The file. -/
structure AcConfig where
  sections : List AcSection
  distinct : (sections.map AcSection.name).Nodup

namespace AcSection

def get (s : AcSection) (option : String) : Option (List Char) := s.options.lookup option.toList

def isWifim (s : AcSection) : Bool := s.type == "wifim".toList

def path (s : AcSection) : List Char := package ++ s.name

/-- `fakemeshac.<section>=<type>` -/
def headerEntry (s : AcSection) : List Char := s.path ++ '=' :: s.type

/-- `fakemeshac.<section>.<option>='` -/
def optionFront (s : AcSection) (option : List Char) : List Char := s.path ++ '.' :: option ++ "='".toList

/-- `fakemeshac.<section>.<option>='<value>'` -/
def optionEntry (s : AcSection) (option : List Char × List Char) : List Char := s.optionFront option.1 ++ (option.2 ++ ['\''])

def entries (s : AcSection) : List (List Char) := s.headerEntry :: s.options.map s.optionEntry

end AcSection

namespace AcConfig

def entries (config : AcConfig) : List (List Char) := config.sections.flatMap AcSection.entries

/-- `uci show fakemeshac` -/
def uciShow (config : AcConfig) : List Char := config.entries.flatMap fun entry => entry ++ ['\n']

end AcConfig

def lines (text : List Char) : List (List Char) := text.splitOnP (· == '\n')

/-! ## The lines of the dump -/

theorem lines_flatMap (entries : List (List Char)) (rest : List Char) :
    lines ((entries.flatMap fun entry => entry ++ ['\n']) ++ rest) = entries.flatMap lines ++ lines rest := by
  induction entries with
  | nil => rfl
  | cons entry entries ih =>
      have first (text : List Char) : lines (entry ++ '\n' :: text) = lines entry ++ lines text :=
        List.splitOnP_append_cons entry text (beq_self_eq_true '\n')
      rw [List.flatMap_cons, List.flatMap_cons, List.append_assoc, List.append_assoc, List.append_assoc, List.singleton_append, first, ih]

theorem lines_uciShow (config : AcConfig) : lines config.uciShow = config.entries.flatMap lines ++ [[]] := by
  have whole := lines_flatMap config.entries []
  rwa [List.append_nil] at whole

theorem lines_append_replicate (text : List Char) (n : ℕ) : lines (text ++ List.replicate n '\n') = lines text ++ List.replicate n [] :=
  @splitOnP_append_replicate _ (· == '\n') _ rfl text n

/-- A text without newlines is a line. -/
theorem lines_of_free {text : List Char} (free : '\n' ∉ text) : lines text = [text] :=
  List.splitOnP_eq_singleton fun _ member => beq_eq_false_iff_ne.mpr fun same => free (same ▸ member)

theorem lines_append_front {front : List Char} (free : '\n' ∉ front) {text first : List Char} {others : List (List Char)}
    (pieces : lines text = first :: others) : lines (front ++ text) = (front ++ first) :: others := by
  refine splitOnP_append_front (fun char member => ?_) pieces
  exact beq_eq_false_iff_ne.mpr fun same => free (same ▸ member)

theorem lines_cons_newline (rest : List Char) : lines ('\n' :: rest) = [] :: lines rest := @splitOnP_cons_pos _ (· == '\n') _ rfl rest

theorem newline_notMem_lines {text line : List Char} (member : line ∈ lines text) : '\n' ∉ line := fun newline =>
  Bool.false_ne_true ((separates_of_mem_splitOnP member newline).symm.trans (beq_self_eq_true '\n'))

/-- A text is its lines with newlines between them. -/
theorem lines_injective : Function.Injective lines := by
  intro first second same
  have joined := congrArg (List.intercalate ['\n']) same
  rwa [lines, lines, ← List.splitOn_eq_splitOnP, ← List.splitOn_eq_splitOnP, List.intercalate_splitOn, List.intercalate_splitOn] at joined

namespace AcSection

variable (s : AcSection)

theorem newline_notMem_type : '\n' ∉ s.type := by
  intro member
  exact absurd (s.typed.2 _ member).1 (by decide)

/-- Where the characters of a name come from. -/
theorem mem_name {char : Char} (member : char ∈ s.name) : isNameChar char = true ∨ char ∈ "@[]".toList ∨ char ∈ s.type := by
  rcases s.named with ⟨-, plain⟩ | ⟨digits, numeral, shown⟩
  · exact .inl (List.all_eq_true.mp plain _ member)
  · rw [shown] at member
    simp only [List.cons_append, List.mem_cons, List.mem_append, List.not_mem_nil, or_false] at member
    rcases member with rfl | (type | (rfl | digit)) | rfl
    · exact .inr (.inl (by decide))
    · exact .inr (.inr type)
    · exact .inr (.inl (by decide))
    · have isDigit : char.isDigit = true := List.all_eq_true.mp numeral _ digit
      exact .inl (by rw [isNameChar, Char.isAlphanum, isDigit, Bool.or_true, Bool.true_or])
    · exact .inr (.inl (by decide))

theorem newline_notMem_name : '\n' ∉ s.name := by
  intro member
  rcases s.mem_name member with word | mark | type
  · exact absurd word (by decide)
  · exact absurd mark (by decide)
  · exact s.newline_notMem_type type

theorem newline_notMem_path : '\n' ∉ s.path := List.not_mem_append (by decide) s.newline_notMem_name

theorem newline_notMem_header : '\n' ∉ s.headerEntry :=
  List.not_mem_append s.newline_notMem_path (List.not_mem_cons_of_ne_of_not_mem (by decide) s.newline_notMem_type)

variable {s} in
theorem newline_notMem_optionFront {option : List Char × List Char} (member : option ∈ s.options) : '\n' ∉ s.optionFront option.1 := by
  have name : '\n' ∉ option.1 := fun newline => absurd (List.all_eq_true.mp (s.optionsNamed option member).2 _ newline) (by decide)
  refine List.not_mem_append (List.not_mem_append s.newline_notMem_path ?_) (by decide)
  exact List.not_mem_cons_of_ne_of_not_mem (by decide) name

variable {s} in
/-- A section of the type `wifim` has no other characters in its name. -/
theorem mem_name_of_wifim (wifim : s.isWifim = true) {char : Char} (member : char ∈ s.name) :
    isNameChar char = true ∨ char ∈ "@[]".toList := by
  rcases s.mem_name member with word | mark | type
  · exact .inl word
  · exact .inr mark
  · rw [eq_of_beq wifim] at type
    have plain : ∀ char ∈ "wifim".toList, isNameChar char = true := by decide
    exact .inl (plain char type)

end AcSection

end XWrt.Fakemesh
