import XWrt.Foundation.Padding

/-!
# Texts in a shell script

What a command prints comes back from a command substitution without the
newlines at its end, and a parameter without quotes is cut into fields.
-/

namespace XWrt.Foundation.Shell

open Text

/-- `$(command)`, for what the command prints -/
def substitution (output : List Char) : List Char := output.rdropWhile (· == '\n')

/-- The blanks of the default `IFS`. -/
def isBlank (char : Char) : Bool := char == ' ' || char == '\t' || char == '\n'

/-- The fields of a parameter without quotes. -/
def fields (text : List Char) : List (List Char) := words (fun char => !isBlank char) text

/-- The first positional parameter of a call whose arguments are one parameter without quotes. -/
def firstField (text : List Char) : List Char := ((fields text).head?).getD []

@[simp]
theorem substitution_nil : substitution [] = [] := rfl

/-- A line without newlines at its end is read back. -/
@[simp]
theorem substitution_line (text : List Char) : substitution (text ++ ['\n']) = substitution text := by
  rw [substitution, List.rdropWhile_concat_pos _ _ _ rfl, substitution]

theorem substitution_eq_self {text : List Char} (last : text.getLast? ≠ some '\n') : substitution text = text := by
  rw [substitution, List.rdropWhile_eq_self_iff]
  intro nonempty newline
  rw [List.getLast?_eq_some_getLast nonempty] at last
  exact last (congrArg some (eq_of_beq newline))

/-- The text is what comes back and some newlines. -/
theorem exists_substitution_append (text : List Char) : ∃ n, text = substitution text ++ List.replicate n '\n' := by
  refine ⟨(text.rtakeWhile (· == '\n')).length, ?_⟩
  have newlines : text.rtakeWhile (· == '\n') = List.replicate (text.rtakeWhile (· == '\n')).length '\n' := by
    refine List.eq_replicate_of_mem fun char member => ?_
    have same : (char == '\n') = true := List.mem_rtakeWhile_imp (p := (· == '\n')) member
    exact eq_of_beq same
  rw [← newlines]
  exact List.rdropWhile_append_rtakeWhile.symm

/-- A field stands alone in its text. -/
theorem fields_word {word : List Char} (solid : ∀ char ∈ word, isBlank char = false) (nonempty : word ≠ []) :
    fields word = [word] :=
  words_word (fun char member => by rw [solid char member, Bool.not_false]) nonempty

/-- The newlines that a command substitution drops separate words. -/
theorem words_substitution {inWord : Char → Bool} (outside : inWord '\n' = false) (text : List Char) :
    words inWord (substitution text) = words inWord text := by
  obtain ⟨n, whole⟩ := exists_substitution_append text
  have blanks : ∀ char ∈ List.replicate n '\n', inWord char = false := fun char member => by
    rw [List.eq_of_mem_replicate member, outside]
  have padded := words_between (List.forall_mem_nil _) blanks (substitution text)
  rw [List.nil_append, ← whole] at padded
  exact padded.symm

@[simp]
theorem fields_substitution (text : List Char) : fields (substitution text) = fields text := words_substitution rfl text

/-- Words on lines of their own. -/
theorem fields_lines {words : List (List Char)} (solid : ∀ word ∈ words, word ≠ [] ∧ ∀ char ∈ word, isBlank char = false) :
    fields (words.flatMap fun word => word ++ ['\n']) = words := by
  induction words with
  | nil => rfl
  | cons word words ih =>
      rw [List.forall_mem_cons] at solid
      rw [List.flatMap_cons, List.append_assoc, List.singleton_append, fields]
      rw [words_append_separator (fun char member => by rw [solid.1.2 char member, Bool.not_false]) solid.1.1 rfl]
      exact congrArg _ (ih solid.2)

end XWrt.Foundation.Shell
