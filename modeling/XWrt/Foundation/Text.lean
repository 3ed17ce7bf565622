import Mathlib.Data.List.DropRight

/-!
# Text as lists of characters

White space, trimming, and the words of a text: its longest pieces whose
characters all belong to a class. A text written as words with separators
between them has exactly these words.
-/

namespace XWrt.Foundation.Text

/-- Something holds of all characters of a text: the characters are tried that are there. -/
instance (priority := 2000) decidableForallMem {p : Char → Prop} [DecidablePred p] (text : List Char) : Decidable (∀ char ∈ text, p char) :=
  List.decidableBAll p text

/-- The lookup of a text in a list of texts compares by equality. -/
instance lawfulBEqText : LawfulBEq (List Char) := List.instLawfulBEq

/-- `isspace` in the C locale. -/
def isSpace (char : Char) : Bool := char == ' ' || (9 ≤ char.toNat && char.toNat ≤ 13)

/-- The text without the white space at its ends. -/
def trim (text : List Char) : List Char := (text.dropWhile isSpace).rdropWhile isSpace

theorem dropWhile_of_solid {text : List Char} (solid : ∀ char ∈ text, isSpace char = false) :
    text.dropWhile isSpace = text := by
  cases text with
  | nil => rfl
  | cons first rest => rw [List.dropWhile_cons_of_neg (by simp [solid first List.mem_cons_self])]

theorem trim_of_solid {text : List Char} (solid : ∀ char ∈ text, isSpace char = false) : trim text = text := by
  have reversed : ∀ char ∈ text.reverse, isSpace char = false := fun char inside => solid char (List.mem_reverse.mp inside)
  rw [trim, dropWhile_of_solid solid, List.rdropWhile, dropWhile_of_solid reversed, List.reverse_reverse]

/-- Every letter in upper case, as `toupper` has it in the C locale. -/
def upper (text : String) : String := String.ofList (text.toList.map Char.toUpper)

theorem toUpper_toUpper (char : Char) : char.toUpper.toUpper = char.toUpper := by
  have settled : ¬('a'.val ≤ char.toUpper.val ∧ char.toUpper.val ≤ 'z'.val) := by
    unfold Char.toUpper
    split
    next lower =>
        have low : 97 ≤ char.val.toNat := UInt32.le_iff_toNat_le.mp lower.1
        have high : char.val.toNat ≤ 122 := UInt32.le_iff_toNat_le.mp lower.2
        have shift : ('A'.val - 'a'.val).toNat = 2 ^ 32 - 32 := by decide
        rintro ⟨still, -⟩
        have still : 97 ≤ (char.val + ('A'.val - 'a'.val)).toNat := UInt32.le_iff_toNat_le.mp still
        rw [UInt32.toNat_add, shift] at still
        omega
    next other => exact other
  exact dif_neg settled

@[simp]
theorem toList_upper (text : String) : (upper text).toList = text.toList.map Char.toUpper := String.toList_ofList

@[simp]
theorem upper_upper (text : String) : upper (upper text) = upper text := by
  rw [upper, toList_upper, List.map_map]
  exact congrArg String.ofList (List.map_congr_left fun char _ => toUpper_toUpper char)

theorem upper_eq_empty {text : String} (empty : upper text = "") : text = "" := by
  have none := congrArg String.toList empty
  rw [toList_upper, String.toList_empty, List.map_eq_nil_iff] at none
  exact String.toList_eq_nil_iff.mp none

/-! ## Words -/

variable {α : Type*} {inWord : α → Bool}

/-- The longest nonempty pieces in which every element is in the class. -/
def words (inWord : α → Bool) (text : List α) : List (List α) :=
  (text.splitOnP fun item => !inWord item).filter fun piece => !piece.isEmpty

@[simp]
theorem words_nil (inWord : α → Bool) : words inWord [] = [] := rfl

theorem words_word {word : List α} (inside : ∀ item ∈ word, inWord item = true) (nonempty : word ≠ []) :
    words inWord word = [word] := by
  have whole : word.splitOnP (fun item => !inWord item) = [word] :=
    List.splitOnP_eq_singleton fun item member => by simp [inside item member]
  simp [words, whole, nonempty]

/-- A word ends at a separator. -/
theorem words_append_separator {word : List α} {separator : α} (inside : ∀ item ∈ word, inWord item = true)
    (nonempty : word ≠ []) (outside : inWord separator = false) (rest : List α) :
    words inWord (word ++ separator :: rest) = word :: words inWord rest := by
  have first : (word ++ separator :: rest).splitOnP (fun item => !inWord item) =
      word :: rest.splitOnP fun item => !inWord item :=
    List.splitOnP_append_cons_of_forall_mem (fun item member => by simp [inside item member]) separator (by simp [outside]) rest
  simp [words, first, nonempty]

/-- No piece has a separator. -/
theorem separates_of_mem_splitOnP {separates : α → Bool} {text piece : List α} (member : piece ∈ text.splitOnP separates) {item : α}
    (inside : item ∈ piece) : separates item = false := by
  induction text generalizing piece with
  | nil =>
      rw [List.splitOnP_nil, List.mem_singleton] at member
      rw [member] at inside
      cases inside
  | cons first rest ih =>
      obtain ⟨head, tail, split⟩ := List.exists_cons_of_ne_nil (List.splitOnP_ne_nil separates rest)
      rw [List.splitOnP_cons_eq_if_modifyHead, split] at member
      rw [split] at ih
      split at member
      · rcases List.mem_cons.mp member with rfl | later
        · cases inside
        · exact ih later inside
      next kept =>
          rcases List.mem_cons.mp member with rfl | later
          · rcases List.mem_cons.mp inside with rfl | inside
            · exact eq_false_of_ne_true kept
            · exact ih List.mem_cons_self inside
          · exact ih (List.mem_cons_of_mem _ later) inside

/-- Every element of a word is in the class. -/
theorem inWord_of_mem_words {text word : List α} (member : word ∈ words inWord text) {item : α} (inside : item ∈ word) :
    inWord item = true := by
  have outside := separates_of_mem_splitOnP (List.mem_of_mem_filter member) inside
  simpa using outside

theorem ne_nil_of_mem_words {text word : List α} (member : word ∈ words inWord text) : word ≠ [] := by
  have nonempty := (List.mem_filter.mp member).2
  simpa using nonempty

/-- Every element of the class stands in one of the words. -/
theorem mem_words {text : List α} {item : α} (member : item ∈ text) (inside : inWord item = true) :
    ∃ word ∈ words inWord text, item ∈ word := by
  have pieces : item ∈ (text.splitOnP fun item => !inWord item).flatten := by
    induction text with
    | nil => exact absurd member List.not_mem_nil
    | cons first rest ih =>
        obtain ⟨head, tail, split⟩ := List.exists_cons_of_ne_nil
          (List.splitOnP_ne_nil (fun item => !inWord item) rest)
        rw [List.splitOnP_cons_eq_if_modifyHead]
        rcases List.mem_cons.mp member with rfl | later
        · rw [if_neg (by simp [inside]), split]
          simp
        · have found := ih later
          rw [split] at found ⊢
          split
          · simpa using found
          · simp only [List.modifyHead_cons, List.flatten_cons, List.mem_append, List.mem_cons] at found ⊢
            exact found.imp_left Or.inr
  obtain ⟨word, piece, found⟩ := List.mem_flatten.mp pieces
  exact ⟨word, List.mem_filter.mpr ⟨piece, by simpa using List.ne_nil_of_mem found⟩, found⟩

/-- Classes that agree on a text give it the same words. -/
theorem words_congr {inWord other : α → Bool} {text : List α} (same : ∀ item ∈ text, inWord item = other item) :
    words inWord text = words other text := by
  have split : text.splitOnP (fun item => !inWord item) = text.splitOnP fun item => !other item := by
    induction text with
    | nil => rfl
    | cons first rest ih =>
        rw [List.forall_mem_cons] at same
        rw [List.splitOnP_cons_eq_if_modifyHead, List.splitOnP_cons_eq_if_modifyHead, same.1, ih same.2]
  rw [words, words, split]

/-- Cutting a text whose elements were replaced. -/
theorem splitOnP_map {β : Type*} (separates : α → Bool) (replace : β → α) (text : List β) :
    (text.map replace).splitOnP separates = (text.splitOnP fun item => separates (replace item)).map (List.map replace) := by
  induction text with
  | nil => rfl
  | cons first rest ih =>
      rw [List.map_cons, List.splitOnP_cons_eq_if_modifyHead, List.splitOnP_cons_eq_if_modifyHead, ih]
      split
      · rfl
      · cases rest.splitOnP fun item => separates (replace item) with
        | nil => rfl
        | cons head tail => rfl

/-- Words of a text whose elements were replaced. -/
theorem words_map {β : Type*} (inWord : α → Bool) (replace : β → α) (text : List β) :
    words inWord (text.map replace) = (words (fun item => inWord (replace item)) text).map (List.map replace) := by
  rw [words, splitOnP_map, List.filter_map, words]
  congr 2
  funext piece
  cases piece <;> rfl

/-- Cutting at further separators, after they were replaced by one that cuts. -/
theorem words_replace_if {inWord : α → Bool} {cut : α} (outside : inWord cut = false) (separates : α → Bool) (text : List α) :
    words inWord (text.map fun item => if separates item then cut else item) =
      words (fun item => inWord item && !separates item) text := by
  have classes : (fun item => inWord (if separates item then cut else item)) = fun item => inWord item && !separates item := by
    funext item
    cases further : separates item with
    | true => rw [if_pos rfl, outside, Bool.not_true, Bool.and_false]
    | false => rw [if_neg Bool.false_ne_true, Bool.not_false, Bool.and_true]
  rw [words_map, classes]
  have kept : ∀ piece ∈ words (fun item => inWord item && !separates item) text,
      piece.map (fun item => if separates item then cut else item) = piece := by
    intro piece member
    have same : ∀ item ∈ piece, (if separates item then cut else item) = item := by
      intro item inside
      have both := inWord_of_mem_words member inside
      rw [Bool.and_eq_true, Bool.not_eq_true'] at both
      exact if_neg (by rw [both.2]; exact Bool.false_ne_true)
    rw [List.map_congr_left same, List.map_id']
  rw [List.map_congr_left kept, List.map_id']

/-- Cutting at a further separator, after it was replaced by one that cuts. -/
theorem words_replace [DecidableEq α] {inWord : α → Bool} {separator cut : α} (outside : inWord cut = false) (text : List α) :
    words inWord (text.map fun item => if item = separator then cut else item) =
      words (fun item => inWord item && item != separator) text := by
  have replaced := words_replace_if outside (fun item => item == separator) text
  simpa only [beq_iff_eq, bne] using replaced

/-- The words of a text in which a separator stands between words. -/
theorem words_intercalate {separator : α} (outside : inWord separator = false) {pieces : List (List α)}
    (inside : ∀ piece ∈ pieces, ∀ item ∈ piece, inWord item = true) (nonempty : ∀ piece ∈ pieces, piece ≠ []) :
    words inWord ([separator].intercalate pieces) = pieces := by
  induction pieces with
  | nil => rfl
  | cons first rest ih =>
      rw [List.forall_mem_cons] at inside nonempty
      cases rest with
      | nil => simpa using words_word inside.1 nonempty.1
      | cons second others =>
          rw [List.intercalate_cons_cons, List.append_assoc, List.singleton_append,
            words_append_separator inside.1 nonempty.1 outside, ih inside.2 nonempty.2]

/-- A text with single separators, none at its ends, is its words with the separator between them. -/
theorem intercalate_words [DecidableEq α] {separator : α} {text : List α} (single : ¬[separator, separator] <:+: text)
    (first : text.head? ≠ some separator) (last : text.getLast? ≠ some separator) :
    [separator].intercalate (words (· != separator) text) = text := by
  induction length : text.length using Nat.strong_induction_on generalizing text with
  | _ n ih =>
      have inside : ∀ item ∈ text.takeWhile (· != separator), (item != separator) = true :=
        fun item member => List.mem_takeWhile_imp (p := (· != separator)) member
      have whole := List.takeWhile_append_dropWhile (p := (· != separator)) (l := text)
      generalize text.takeWhile (· != separator) = word at inside whole
      cases later : text.dropWhile (· != separator) with
      | nil =>
          rw [later, List.append_nil] at whole
          subst whole
          by_cases empty : word = []
          · rw [empty]
            rfl
          · rw [words_word inside empty, List.intercalate_singleton]
      | cons cut rest =>
          have cutEq : cut = separator := by
            have stops := List.head?_dropWhile_not (· != separator) text
            rw [later] at stops
            simpa using stops
          subst cutEq
          rw [later] at whole
          subst whole
          have nonempty : word ≠ [] := by
            rintro rfl
            exact first rfl
          have more : rest ≠ [] := by
            rintro rfl
            exact last (by simp)
          have again : [cut].intercalate (words (· != cut) rest) = rest := by
            apply ih rest.length _ _ _ _ rfl
            · rw [← length, List.length_append, List.length_cons]
              omega
            · exact fun double => single (double.trans ⟨word ++ [cut], [], by simp⟩)
            · intro starts
              obtain ⟨tail, rfl⟩ := List.head?_eq_some_iff.mp starts
              exact single ⟨word, tail, by simp⟩
            · intro ends
              exact last (by simp [List.getLast?_cons, ends])
          rw [words_append_separator inside nonempty (by simp)]
          cases pieces : words (· != cut) rest with
          | nil =>
              rw [pieces] at again
              exact absurd again.symm more
          | cons second others =>
              rw [List.intercalate_cons_cons, ← pieces, again]
              simp

section Joined

variable {separator : α}

theorem double_of_notMem {text : List α} (free : separator ∉ text) : ¬[separator, separator] <:+: text :=
  fun double => free (double.subset List.mem_cons_self)

/-- Two separators in a row after the first one. -/
theorem double_infix_append {front : List α} (free : separator ∉ front) (rest : List α) :
    [separator, separator] <:+: front ++ separator :: rest ↔
      rest.head? = some separator ∨ [separator, separator] <:+: rest := by
  induction front with
  | nil =>
      rw [List.nil_append, List.infix_cons_iff, List.cons_prefix_cons, List.head?_eq_some_iff]
      constructor
      · rintro (⟨-, tail, starts⟩ | later)
        · exact Or.inl ⟨tail, starts.symm⟩
        · exact Or.inr later
      · rintro (⟨tail, starts⟩ | later)
        · exact Or.inl ⟨rfl, tail, starts.symm⟩
        · exact Or.inr later
  | cons first front ih =>
      rw [List.mem_cons, not_or] at free
      rw [List.cons_append, List.infix_cons_iff, List.cons_prefix_cons, ← ih free.2]
      exact or_iff_right fun starts => free.1 starts.1

variable {pieces : List (List α)} (free : ∀ piece ∈ pieces, separator ∉ piece) (nonempty : ∀ piece ∈ pieces, piece ≠ [])
include free nonempty

theorem head?_intercalate : ([separator].intercalate pieces).head? ≠ some separator := by
  cases pieces with
  | nil => simp
  | cons first rest =>
      rw [List.forall_mem_cons] at free nonempty
      obtain ⟨item, tail, rfl⟩ := List.exists_cons_of_ne_nil nonempty.1
      intro starts
      apply free.1
      cases rest <;> simp_all

theorem getLast?_intercalate : ([separator].intercalate pieces).getLast? ≠ some separator := by
  induction pieces with
  | nil => simp
  | cons first rest ih =>
      rw [List.forall_mem_cons] at free nonempty
      cases rest with
      | nil =>
          rw [List.intercalate_singleton]
          exact fun ends => free.1 (List.mem_of_getLast? ends)
      | cons second others =>
          have more := ih free.2 nonempty.2
          have some : [separator].intercalate (second :: others) ≠ [] := by
            obtain ⟨item, tail, rfl⟩ := List.exists_cons_of_ne_nil (nonempty.2 second List.mem_cons_self)
            cases others <;> simp
          rw [List.intercalate_cons_cons, List.getLast?_append_of_ne_nil _ some]
          exact more

theorem double_intercalate : ¬[separator, separator] <:+: [separator].intercalate pieces := by
  induction pieces with
  | nil => simp
  | cons first rest ih =>
      rw [List.forall_mem_cons] at free nonempty
      cases rest with
      | nil =>
          rw [List.intercalate_singleton]
          exact double_of_notMem free.1
      | cons second others =>
          rw [List.intercalate_cons_cons, List.append_assoc, List.singleton_append, double_infix_append free.1]
          rintro (starts | later)
          · exact head?_intercalate free.2 nonempty.2 starts
          · exact ih free.2 nonempty.2 later

end Joined

/-! ## A pattern with one separator -/

section Pattern

variable {separator : α} {front back before after : List α}

theorem prefix_append_separator (clean : separator ∉ front) (free : separator ∉ before) :
    front ++ separator :: back <+: before ++ separator :: after ↔ front = before ∧ back <+: after := by
  induction front generalizing before with
  | nil =>
      cases before with
      | nil => simp
      | cons item before =>
          rw [List.mem_cons, not_or] at free
          simp [free.1]
  | cons item front ih =>
      rw [List.mem_cons, not_or] at clean
      cases before with
      | nil => simp [Ne.symm clean.1]
      | cons other before =>
          rw [List.mem_cons, not_or] at free
          rw [List.cons_append, List.cons_append, List.cons_prefix_cons, ih clean.2 free.2, List.cons.injEq, and_assoc]

/-- The pattern stands at the first separator of the text or behind it. -/
theorem infix_append_separator (clean : separator ∉ front) (free : separator ∉ before) :
    front ++ separator :: back <:+: before ++ separator :: after ↔
      (front <:+ before ∧ back <+: after) ∨ front ++ separator :: back <:+: after := by
  induction before with
  | nil =>
      rw [List.nil_append, List.infix_cons_iff, List.suffix_nil]
      exact or_congr_left (prefix_append_separator clean List.not_mem_nil)
  | cons item before ih =>
      rw [List.cons_append, List.infix_cons_iff, ← List.cons_append, prefix_append_separator clean free,
        ih (List.not_mem_of_not_mem_cons free), List.suffix_cons_iff, ← or_assoc, or_and_right]

/-- A pattern with a separator is not in a text without. -/
theorem not_infix_of_notMem (free : separator ∉ after) : ¬ front ++ separator :: back <:+: after :=
  fun inside => free (inside.subset (by simp))

end Pattern

/-- Strings joined with a separator and cut again. -/
theorem words_joined {inWord : Char → Bool} {separator : String} {char : Char} (single : separator.toList = [char])
    (outside : inWord char = false) {items : List String}
    (inside : ∀ item ∈ items, item.toList ≠ [] ∧ ∀ char ∈ item.toList, inWord char = true) :
    (words inWord (separator.intercalate items).toList).map String.ofList = items := by
  have pieces : words inWord ([char].intercalate (items.map String.toList)) = items.map String.toList := by
    refine words_intercalate outside (fun piece member => ?_) (fun piece member => ?_)
    · obtain ⟨item, here, rfl⟩ := List.mem_map.mp member
      exact (inside item here).2
    · obtain ⟨item, here, rfl⟩ := List.mem_map.mp member
      exact (inside item here).1
  rw [String.toList_intercalate, single, pieces, List.map_map]
  exact (List.map_congr_left fun item _ => String.ofList_toList).trans (List.map_id items)

end XWrt.Foundation.Text
