import XWrt.Foundation.Text

/-!
# Words of a padded text

A text is cut at a separator into texts whose words are independent of each
other. A piece that is a word of its own keeps what stands next to it when the
padding around it is not made of separators. Cutting and a character by character
encoding commute when the encoding keeps the class of every character.
-/

namespace XWrt.Foundation.Text

variable {α β : Type*} {inWord : α → Bool}

theorem words_append {separator : α} (outside : inWord separator = false) (left right : List α) :
    words inWord (left ++ separator :: right) = words inWord left ++ words inWord right := by
  have split : (left ++ separator :: right).splitOnP (fun item => !inWord item) =
      left.splitOnP (fun item => !inWord item) ++ right.splitOnP fun item => !inWord item :=
    List.splitOnP_append_cons left right (by simp [outside])
  rw [words, split, List.filter_append]
  rfl

theorem words_cons {separator : α} (outside : inWord separator = false) (rest : List α) :
    words inWord (separator :: rest) = words inWord rest := words_append outside [] rest

theorem words_concat {separator : α} (outside : inWord separator = false) (front : List α) :
    words inWord (front ++ [separator]) = words inWord front := by
  rw [words_append outside, words_nil, List.append_nil]

/-- Characters that are in no word can be left out at both ends. -/
theorem words_between {left right : List α} (before : ∀ item ∈ left, inWord item = false)
    (after : ∀ item ∈ right, inWord item = false) (text : List α) :
    words inWord (left ++ text ++ right) = words inWord text := by
  have front : words inWord (left ++ text ++ right) = words inWord (text ++ right) := by
    induction left with
    | nil => rfl
    | cons item rest ih =>
        rw [List.forall_mem_cons] at before
        exact (words_cons before.1 _).trans (ih before.2)
  rw [front]
  clear front
  induction right using List.reverseRecOn with
  | nil => rw [List.append_nil]
  | append_singleton rest item ih =>
      rw [List.forall_mem_append, List.forall_mem_singleton] at after
      rw [← List.append_assoc, words_concat after.2, ih after.1]

/-- The words of texts with a separator between them. -/
theorem words_join {separator : α} (outside : inWord separator = false) (pieces : List (List α)) :
    words inWord ([separator].intercalate pieces) = pieces.flatMap (words inWord) := by
  induction pieces with
  | nil => rfl
  | cons first rest ih =>
      cases rest with
      | nil => rw [List.intercalate_singleton, List.flatMap_singleton]
      | cons second others =>
          rw [List.intercalate_cons_cons, List.append_assoc, List.singleton_append, words_append outside, ih,
            ← List.flatMap_cons]

theorem mem_intercalate {separator item : α} {pieces : List (List α)} (member : item ∈ [separator].intercalate pieces) :
    item = separator ∨ ∃ piece ∈ pieces, item ∈ piece := by
  induction pieces with
  | nil => exact absurd member List.not_mem_nil
  | cons first rest ih =>
      cases rest with
      | nil =>
          rw [List.intercalate_singleton] at member
          exact .inr ⟨first, .head _, member⟩
      | cons second others =>
          rw [List.intercalate_cons_cons, List.append_assoc, List.singleton_append] at member
          rcases List.mem_append.mp member with here | later
          · exact .inr ⟨first, .head _, here⟩
          · rcases List.mem_cons.mp later with same | later
            · exact .inl same
            · exact (ih later).imp_right fun ⟨piece, inside, here⟩ => ⟨piece, .tail _ inside, here⟩

theorem mem_intercalate_of_mem {separator item : α} {pieces : List (List α)} {piece : List α} (member : piece ∈ pieces) (inside : item ∈ piece) :
    item ∈ [separator].intercalate pieces := by
  induction pieces with
  | nil => exact absurd member List.not_mem_nil
  | cons first rest ih =>
      cases rest with
      | nil =>
          rw [List.intercalate_singleton]
          exact List.mem_singleton.mp member ▸ inside
      | cons second others =>
          rw [List.intercalate_cons_cons, List.append_assoc, List.singleton_append]
          rcases List.mem_cons.mp member with rfl | later
          · exact List.mem_append_left _ inside
          · exact List.mem_append_right _ (List.mem_cons_of_mem _ (ih later))

/-- The elements of a word are elements of the text. -/
theorem mem_of_mem_words [DecidableEq α] {text word : List α} (member : word ∈ words inWord text) {item : α} (inside : item ∈ word) :
    item ∈ text := by
  have same : words inWord text = words (fun item => inWord item && decide (item ∈ text)) text :=
    words_congr fun item here => by rw [decide_eq_true here, Bool.and_true]
  rw [same] at member
  have both := inWord_of_mem_words member inside
  exact of_decide_eq_true (Bool.and_eq_true _ _ |>.mp both).2

/-- The word around a core: the core, with what is next to it and is no separator. -/
def around (inWord : α → Bool) (left core right : List α) : List α :=
  left.rtakeWhile inWord ++ core ++ right.takeWhile inWord

theorem words_padded {core : List α} (inside : ∀ item ∈ core, inWord item = true) (some : core ≠ []) (left right : List α) :
    words inWord (left ++ core ++ right) =
      words inWord (left.rdropWhile inWord) ++ around inWord left core right :: words inWord (right.dropWhile inWord) := by
  have single : words inWord (around inWord left core right) = [around inWord left core right] := by
    refine words_word (fun item member => ?_) fun none => some (List.append_eq_nil_iff.mp (List.append_eq_nil_iff.mp none).1).2
    rcases List.mem_append.mp member with front | back
    · rcases List.mem_append.mp front with front | middle
      · exact List.mem_rtakeWhile_imp front
      · exact inside item middle
    · exact List.mem_takeWhile_imp back
  -- What follows the word starts with a separator, if there is anything.
  have after : words inWord (around inWord left core right ++ right.dropWhile inWord) =
      around inWord left core right :: words inWord (right.dropWhile inWord) := by
    cases later : right.dropWhile inWord with
    | nil => rw [List.append_nil, single, words_nil]
    | cons separator rest =>
        have stops : inWord separator = false := by
          have head := List.head?_dropWhile_not inWord right
          rw [later] at head
          exact head
        rw [words_append stops, single, words_cons stops]
        rfl
  -- What precedes it ends with one.
  have whole : left ++ core ++ right = left.rdropWhile inWord ++ (around inWord left core right ++ right.dropWhile inWord) := by
    rw [around]
    conv_lhs =>
      rw [← List.rdropWhile_append_rtakeWhile (p := inWord) (l := left),
        ← List.takeWhile_append_dropWhile (p := inWord) (l := right)]
    simp only [List.append_assoc]
  rw [whole]
  rcases List.eq_nil_or_concat (left.rdropWhile inWord) with none | ⟨front, separator, ends⟩
  · rw [none, List.nil_append, after, words_nil, List.nil_append]
  · have stops : inWord separator = false := by
      have last := List.rdropWhile_last_not inWord left (by rw [ends]; simp)
      simpa [ends] using last
    rw [ends, List.concat_eq_append, List.append_assoc, List.singleton_append, words_append stops, words_concat stops, after]

/-- A gap of separators parts the words. -/
theorem words_gap {gap : List α} (outside : ∀ item ∈ gap, inWord item = false) (some : gap ≠ []) (left right : List α) :
    words inWord (left ++ (gap ++ right)) = words inWord left ++ words inWord right := by
  obtain ⟨separator, rest, rfl⟩ := List.exists_cons_of_ne_nil some
  rw [List.forall_mem_cons] at outside
  have after := words_between outside.2 (List.forall_mem_nil _) right
  rw [List.append_nil] at after
  rw [List.cons_append, words_append outside.1, after]

section Encoding

variable {encode : α → List β} {inCode : β → Bool}

/-- The words of an encoded text are the encoded words. -/
theorem words_flatMap {text : List α} (some : ∀ item ∈ text, encode item ≠ [])
    (same : ∀ item ∈ text, ∀ code ∈ encode item, inCode code = inWord item) :
    words inCode (text.flatMap encode) = (words inWord text).map (List.flatMap encode) := by
  induction length : text.length using Nat.strong_induction_on generalizing text with
  | _ n ih =>
      -- The start of the text up to the first separator is one word or empty.
      have start : ∀ word : List α, (∀ item ∈ word, item ∈ text ∧ inWord item = true) →
          words inCode (word.flatMap encode) = (words inWord word).map (List.flatMap encode) := by
        intro word inside
        cases word with
        | nil => rfl
        | cons first rest =>
            rw [words_word (fun item member => (inside item member).2) (List.cons_ne_nil _ _), List.map_singleton]
            refine words_word (fun code member => ?_) ?_
            · obtain ⟨item, here, inCode⟩ := List.mem_flatMap.mp member
              exact (same item (inside item here).1 code inCode).trans (inside item here).2
            · rw [List.flatMap_cons]
              exact fun none => some first (inside first (.head _)).1 (List.append_eq_nil_iff.mp none).1
      have whole := List.takeWhile_append_dropWhile (p := inWord) (l := text)
      have word : ∀ item ∈ text.takeWhile inWord, item ∈ text ∧ inWord item = true :=
        fun item member => ⟨(List.takeWhile_prefix _).subset member, List.mem_takeWhile_imp member⟩
      cases later : text.dropWhile inWord with
      | nil =>
          rw [later, List.append_nil] at whole
          rw [whole] at word
          exact start text word
      | cons separator rest =>
          have stops : inWord separator = false := by
            have head := List.head?_dropWhile_not inWord text
            rw [later] at head
            exact head
          rw [later] at whole
          have inside : separator ∈ text := whole ▸ List.mem_append_right _ (.head _)
          have shorter : rest.length < n := by
            rw [← length, ← whole, List.length_append, List.length_cons]
            omega
          have more : ∀ item ∈ rest, item ∈ text := fun item member => whole ▸ List.mem_append_right _ (.tail _ member)
          rw [← whole, List.flatMap_append, List.flatMap_cons, words_append stops, List.map_append,
            words_gap (fun code member => (same separator inside code member).trans stops) (some separator inside),
            start _ word, ih rest.length shorter (fun item member => some item (more item member))
              (fun item member => same item (more item member)) rfl]

end Encoding

end XWrt.Foundation.Text
