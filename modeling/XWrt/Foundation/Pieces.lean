import XWrt.Foundation.Text

/-!
# Pieces of a text

A text is cut at its separators into pieces, which may be empty. Cutting at two
kinds of separators is cutting the pieces again, and what a pattern finds at the
start or after a separator it finds at the start of a piece.
-/

namespace XWrt.Foundation.Text

variable {α : Type*} {separates other : α → Bool}

/-- The text after each separator. -/
def afterSeparators (separates : α → Bool) : List α → List (List α)
  | [] => []
  | item :: rest => if separates item then rest :: afterSeparators separates rest else afterSeparators separates rest

theorem splitOnP_cons_pos {item : α} (cuts : separates item = true) (rest : List α) :
    (item :: rest).splitOnP separates = [] :: rest.splitOnP separates := by
  rw [List.splitOnP_cons_eq_if_modifyHead, if_pos cuts]

theorem splitOnP_cons_neg {item : α} (inside : separates item = false) {rest first : List α} {others : List (List α)}
    (pieces : rest.splitOnP separates = first :: others) :
    (item :: rest).splitOnP separates = (item :: first) :: others := by
  rw [List.splitOnP_cons_eq_if_modifyHead, if_neg (by simp [inside]), pieces]
  rfl

/-- The first piece, and the others. -/
theorem splitOnP_first (separates : α → Bool) (text : List α) :
    ∃ others, text.splitOnP separates = (text.takeWhile fun item => !separates item) :: others := by
  induction text with
  | nil => exact ⟨[], rfl⟩
  | cons item rest ih =>
      obtain ⟨others, pieces⟩ := ih
      cases cuts : separates item with
      | true => exact ⟨_, by rw [splitOnP_cons_pos cuts, List.takeWhile_cons_of_neg (by simp [cuts])]⟩
      | false => exact ⟨others, by rw [splitOnP_cons_neg cuts pieces, List.takeWhile_cons_of_pos (by simp [cuts])]⟩

/-- What stands in front without a separator belongs to the first piece. -/
theorem splitOnP_append_front {front : List α} (free : ∀ item ∈ front, separates item = false) {text first : List α} {others : List (List α)}
    (pieces : text.splitOnP separates = first :: others) : (front ++ text).splitOnP separates = (front ++ first) :: others := by
  induction front with
  | nil => exact pieces
  | cons item front ih =>
      rw [List.forall_mem_cons] at free
      exact splitOnP_cons_neg free.1 (ih free.2)

/-- Cutting at two kinds of separators. -/
theorem splitOnP_or (separates other : α → Bool) (text : List α) :
    text.splitOnP (fun item => separates item || other item) = (text.splitOnP separates).flatMap (List.splitOnP other) := by
  induction text with
  | nil => rfl
  | cons item rest ih =>
      obtain ⟨others, pieces⟩ := splitOnP_first separates rest
      cases cuts : separates item with
      | true =>
          rw [splitOnP_cons_pos (by simp [cuts]), splitOnP_cons_pos cuts, ih, List.flatMap_cons]
          rfl
      | false =>
          rw [splitOnP_cons_neg cuts pieces, List.flatMap_cons]
          rw [pieces, List.flatMap_cons] at ih
          obtain ⟨later, first⟩ := splitOnP_first other (rest.takeWhile fun item => !separates item)
          cases stops : other item with
          | true => rw [splitOnP_cons_pos (by simp [stops]), splitOnP_cons_pos stops, ih, List.cons_append]
          | false =>
              rw [first, List.cons_append] at ih
              rw [splitOnP_cons_neg (by simp [cuts, stops]) ih, splitOnP_cons_neg stops first, List.cons_append]

/-- Separators at the end make empty pieces. -/
theorem splitOnP_append_replicate {item : α} (cuts : separates item = true) (text : List α) (n : ℕ) :
    (text ++ List.replicate n item).splitOnP separates = text.splitOnP separates ++ List.replicate n [] := by
  have ends : (List.replicate n item).splitOnP separates = List.replicate (n + 1) [] := by
    induction n with
    | zero => rfl
    | succ n ih => rw [List.replicate_succ, splitOnP_cons_pos cuts, ih, ← List.replicate_succ]
  cases n with
  | zero => simp
  | succ n =>
      rw [List.replicate_succ, List.splitOnP_append_cons text _ cuts]
      rw [List.replicate_succ, splitOnP_cons_pos cuts, List.replicate_succ, List.cons.injEq] at ends
      rw [ends.2]

/-- A word free of further separators is a word when these cut, too. -/
theorem mem_words_of_free (finer : ∀ item, separates item = true → other item = true) {text word : List α}
    (member : word ∈ words (fun item => !separates item) text) (free : ∀ item ∈ word, other item = false) :
    word ∈ words (fun item => !other item) text := by
  have both : (fun item => separates item || other item) = other := by
    funext item
    cases cuts : separates item with
    | true => rw [finer item cuts, Bool.true_or]
    | false => rw [Bool.false_or]
  have cut := splitOnP_or separates other text
  rw [both] at cut
  obtain ⟨piece, nonempty⟩ := List.mem_filter.mp member
  simp only [Bool.not_not] at piece
  refine List.mem_filter.mpr ⟨?_, nonempty⟩
  simp only [Bool.not_not]
  rw [cut]
  refine List.mem_flatMap.mpr ⟨word, piece, ?_⟩
  rw [List.splitOnP_eq_singleton free]
  exact List.mem_singleton_self word

section Starts

variable {holds : List α → Prop} (firstPiece : ∀ text, holds (text.takeWhile fun item => !separates item) ↔ holds text)
include firstPiece

theorem exists_afterSeparators_iff (text : List α) :
    (∃ rest ∈ afterSeparators separates text, holds rest) ↔ ∃ piece ∈ (text.splitOnP separates).tail, holds piece := by
  induction text with
  | nil => simp [afterSeparators]
  | cons item rest ih =>
      obtain ⟨others, pieces⟩ := splitOnP_first separates rest
      rw [pieces, List.tail_cons] at ih
      rw [afterSeparators]
      cases cuts : separates item with
      | true => rw [if_pos rfl, splitOnP_cons_pos cuts, pieces, List.tail_cons, List.exists_mem_cons_iff, List.exists_mem_cons_iff, ih, firstPiece]
      | false => rw [if_neg Bool.false_ne_true, splitOnP_cons_neg cuts pieces, List.tail_cons, ih]

/-- What holds of a text if it holds of its first piece holds at a start if and only if it holds of a piece. -/
theorem exists_start_iff (text : List α) :
    (∃ rest ∈ text :: afterSeparators separates text, holds rest) ↔ ∃ piece ∈ text.splitOnP separates, holds piece := by
  have later := exists_afterSeparators_iff firstPiece text
  obtain ⟨others, pieces⟩ := splitOnP_first separates text
  rw [pieces, List.tail_cons] at later
  rw [pieces, List.exists_mem_cons_iff, List.exists_mem_cons_iff, later, firstPiece]

end Starts

section Prefix

variable {inside : α → Bool}

theorem takeWhile_stop {front : List α} (all : ∀ item ∈ front, inside item = true) {item : α} (stops : inside item = false) (rest : List α) :
    (front ++ item :: rest).takeWhile inside = front := by
  rw [List.takeWhile_append_of_pos all, List.takeWhile_cons_of_neg (by simp [stops]), List.append_nil]

theorem dropWhile_stop {front : List α} (all : ∀ item ∈ front, inside item = true) {item : α} (stops : inside item = false) (rest : List α) :
    (front ++ item :: rest).dropWhile inside = item :: rest := by
  rw [List.dropWhile_append_of_pos all, List.dropWhile_cons_of_neg (by simp [stops])]

theorem prefix_takeWhile_iff {key : List α} (free : ∀ item ∈ key, inside item = true) (text : List α) :
    key <+: text.takeWhile inside ↔ key <+: text := by
  constructor
  · exact fun found => found.trans (List.takeWhile_prefix inside)
  · rintro ⟨rest, rfl⟩
    rw [List.takeWhile_append_of_pos free]
    exact List.prefix_append key _

theorem dropWhile_takeWhile {blank : α → Bool} (blanks : ∀ item, blank item = true → inside item = true) (text : List α) :
    (text.takeWhile inside).dropWhile blank = (text.dropWhile blank).takeWhile inside := by
  induction text with
  | nil => rfl
  | cons item rest ih =>
      cases space : blank item with
      | true =>
          rw [List.takeWhile_cons_of_pos (blanks item space), List.dropWhile_cons_of_pos space, List.dropWhile_cons_of_pos space, ih]
      | false =>
          rw [List.dropWhile_cons_of_neg (by simp [space])]
          cases within : inside item with
          | true => rw [List.takeWhile_cons_of_pos within, List.dropWhile_cons_of_neg (by simp [space])]
          | false =>
              rw [List.takeWhile_cons_of_neg (by simp [within])]
              rfl

end Prefix

end XWrt.Foundation.Text
