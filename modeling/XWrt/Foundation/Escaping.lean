import XWrt.Foundation.Keyed

/-!
# Texts in quotes

Special items are written as a letter behind a mark, and a reader takes what it
finds up to a closing item that stands behind no mark. The special items may be
substituted one after the other, if the mark comes first and no letter is
substituted again.
-/

namespace XWrt.Foundation.Escaping

variable {α : Type*} [DecidableEq α]

/-- Every occurrence of an item replaced. -/
def substitute (item : α) (replacement text : List α) : List α := text.flatMap fun other => if other = item then replacement else [other]

/-- The special items with their letters. -/
abbrev Letters (α : Type*) := List (α × α)

section Writing

variable (mark : α) (letters : Letters α)

/-- An item, or a letter behind the mark. -/
def escape (item : α) : List α :=
  match letters.lookup item with
  | some letter => [mark, letter]
  | none => [item]

/-- The text with all special items behind marks. -/
def write (text : List α) : List α := text.flatMap (escape mark letters)

/-- The special items substituted one after the other. -/
def substituteAll (text : List α) : List α := letters.foldl (fun text special => substitute special.1 [mark, special.2] text) text

end Writing

/-- What stands in front of the first closing item that is behind no mark, and the rest; a letter behind a mark has a meaning. -/
def read (mark close : α) (meaning : α → α) : List α → List α × List α
  | [] => ([], [])
  | [item] => if item = close ∨ item = mark then ([], []) else ([item], [])
  | item :: letter :: rest =>
      if item = close then ([], letter :: rest)
      else if item = mark then
        let (value, behind) := read mark close meaning rest
        (meaning letter :: value, behind)
      else
        let (value, behind) := read mark close meaning (letter :: rest)
        (item :: value, behind)

variable {mark close : α} {letters : Letters α}

/-! ## One substitution after the other -/

@[simp]
theorem substitute_nil (item : α) (replacement : List α) : substitute item replacement [] = [] := rfl

theorem substitute_append (item : α) (replacement left right : List α) :
    substitute item replacement (left ++ right) = substitute item replacement left ++ substitute item replacement right :=
  List.flatMap_append

theorem substitute_of_notMem {item : α} {text : List α} (free : item ∉ text) (replacement : List α) :
    substitute item replacement text = text := by
  induction text with
  | nil => rfl
  | cons first rest ih =>
      rw [List.mem_cons, not_or] at free
      rw [substitute, List.flatMap_cons, if_neg (Ne.symm free.1)]
      exact congrArg _ (ih free.2)

theorem substituteAll_append (left right : List α) :
    substituteAll mark letters (left ++ right) = substituteAll mark letters left ++ substituteAll mark letters right := by
  induction letters generalizing left right with
  | nil => rfl
  | cons special letters ih =>
      simp only [substituteAll, List.foldl_cons, substitute_append]
      exact ih _ _

theorem substituteAll_of_free {text : List α} (free : ∀ special ∈ letters, special.1 ∉ text) : substituteAll mark letters text = text := by
  induction letters with
  | nil => rfl
  | cons special letters ih =>
      rw [List.forall_mem_cons] at free
      rw [substituteAll, List.foldl_cons, substitute_of_notMem free.1]
      exact ih free.2

/-- No special item that comes later is the mark or a letter that was put before. -/
def Ordered (mark : α) (letters : Letters α) : Prop := letters.Pairwise fun first later => later.1 ≠ mark ∧ later.1 ≠ first.2

theorem substituteAll_singleton (ordered : Ordered mark letters) (item : α) : substituteAll mark letters [item] = escape mark letters item := by
  induction letters with
  | nil => rfl
  | cons special letters ih =>
      obtain ⟨later, ordered⟩ := List.pairwise_cons.mp ordered
      by_cases same : item = special.1
      · have stays : ∀ other ∈ letters, other.1 ∉ [mark, special.2] := fun other member inside => by
          rcases List.mem_pair.mp inside with isMark | isLetter
          · exact (later other member).1 isMark
          · exact (later other member).2 isLetter
        have first : substitute special.1 [mark, special.2] [item] = [mark, special.2] := by
          rw [substitute, List.flatMap_singleton, if_pos same]
        have letter : (special :: letters).lookup item = some special.2 := by rw [same, List.lookup_cons_self]
        rw [substituteAll, List.foldl_cons, first, escape, letter]
        exact substituteAll_of_free stays
      · have first : substitute special.1 [mark, special.2] [item] = [item] := by
          rw [substitute, List.flatMap_singleton, if_neg same]
        have letter : (special :: letters).lookup item = letters.lookup item := by
          rw [List.lookup_cons, beq_eq_false_iff_ne.mpr same]
        rw [substituteAll, List.foldl_cons, first, escape, letter]
        exact ih ordered

/-- The substitutions put every special item behind a mark. -/
theorem substituteAll_eq_write (ordered : Ordered mark letters) (text : List α) : substituteAll mark letters text = write mark letters text := by
  induction text with
  | nil => exact substituteAll_of_free fun _ _ => List.not_mem_nil
  | cons item text ih => 
      rw [← List.singleton_append, substituteAll_append, substituteAll_singleton ordered, ih]
      rfl

/-! ## Reading back -/

/-- Every letter has its special item as its meaning, and the mark and the closing item are special. -/
structure Readable (mark close : α) (letters : Letters α) (meaning : α → α) : Prop where
  markSpecial : (letters.lookup mark).isSome = true
  closeSpecial : (letters.lookup close).isSome = true
  means : ∀ special ∈ letters, meaning special.2 = special.1
  apart : close ≠ mark

variable {meaning : α → α}

theorem read_plain {item : α} (notClose : item ≠ close) (notMark : item ≠ mark) (rest : List α) :
    read mark close meaning (item :: rest) = (item :: (read mark close meaning rest).1, (read mark close meaning rest).2) := by
  cases rest with
  | nil => exact if_neg (not_or.mpr ⟨notClose, notMark⟩)
  | cons letter rest => rw [read, if_neg notClose, if_neg notMark]

theorem read_letter (apart : close ≠ mark) (letter : α) (rest : List α) :
    read mark close meaning (mark :: letter :: rest) =
      (meaning letter :: (read mark close meaning rest).1, (read mark close meaning rest).2) := by
  rw [read, if_neg (Ne.symm apart), if_pos rfl]

theorem read_close (rest : List α) : read mark close meaning (close :: rest) = ([], rest) := by
  cases rest with
  | nil => rw [read, if_pos (.inl rfl)]
  | cons letter rest => rw [read, if_pos rfl]

/-- A text is read back, whatever follows it behind the closing item. -/
theorem read_write (readable : Readable mark close letters meaning) (text rest : List α) :
    read mark close meaning (write mark letters text ++ close :: rest) = (text, rest) := by
  induction text with
  | nil => exact read_close rest
  | cons item text ih =>
      rw [write, List.flatMap_cons, List.append_assoc]
      rw [write] at ih
      cases special : letters.lookup item with
      | some letter =>
          have means := readable.means (item, letter) (Keyed.mem_of_lookup special)
          rw [escape, special]
          simp only [List.cons_append, List.nil_append]
          rw [read_letter readable.apart, ih, means]
      | none =>
          have notClose : item ≠ close := by
            rintro rfl
            have := readable.closeSpecial
            rw [special] at this
            cases this
          have notMark : item ≠ mark := by
            rintro rfl
            have := readable.markSpecial
            rw [special] at this
            cases this
          rw [escape, special]
          simp only [List.cons_append, List.nil_append]
          rw [read_plain notClose notMark, ih]

/-- A special item that is neither the mark nor a letter does not occur. -/
theorem notMem_write {item : α} (special : (letters.lookup item).isSome = true) (notMark : item ≠ mark)
    (noLetter : ∀ other ∈ letters, other.2 ≠ item) (text : List α) : item ∉ write mark letters text := by
  intro member
  obtain ⟨source, -, inside⟩ := List.mem_flatMap.mp member
  rw [escape] at inside
  cases letter : letters.lookup source with
  | some letter' =>
      rw [letter] at inside
      rcases List.mem_pair.mp inside with isMark | isLetter
      · exact notMark isMark
      · exact noLetter _ (Keyed.mem_of_lookup letter) isLetter.symm
  | none =>
      rw [letter, List.mem_singleton] at inside
      rw [inside, letter] at special
      cases special

/-- Nothing else gets into the text. -/
theorem mem_write {item : α} {text : List α} (member : item ∈ write mark letters text) :
    item = mark ∨ item ∈ text ∨ ∃ other ∈ letters, other.2 = item := by
  obtain ⟨source, here, inside⟩ := List.mem_flatMap.mp member
  rw [escape] at inside
  cases letter : letters.lookup source with
  | some letter' =>
      rw [letter] at inside
      rcases List.mem_pair.mp inside with isMark | isLetter
      · exact .inl isMark
      · exact .inr (.inr ⟨_, Keyed.mem_of_lookup letter, isLetter.symm⟩)
  | none =>
      rw [letter, List.mem_singleton] at inside
      exact .inr (.inl (inside ▸ here))

end XWrt.Foundation.Escaping
