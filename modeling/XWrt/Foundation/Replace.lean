import Mathlib.Data.List.Infix

/-!
# Replacing a pattern everywhere

From the left to the right, every occurrence of a pattern is replaced and the
search goes on behind it. The result is free of the pattern where the
replacement is marked at both ends, and a cut before replacing differs from a
cut after it exactly when it shortens a text with an occurrence in front of the
cut.
-/

namespace XWrt.Foundation.Replace

variable {α : Type*}

theorem prefix_of_separator {p u v : List α} {x : α} (free : x ∉ p) (starts : p <+: u ++ x :: v) : p <+: u := by
  rcases Nat.le_total p.length u.length with short | long
  · exact List.prefix_of_prefix_length_le starts (List.prefix_append u _) short
  · rcases long.eq_or_lt with same | longer
    · exact List.prefix_of_prefix_length_le starts (List.prefix_append u _) same.ge
    · have more : u ++ [x] <+: p := by
        apply List.prefix_of_prefix_length_le _ starts
        · rw [List.length_append]
          exact longer
        · exact ⟨v, by simp⟩
      exact absurd (more.subset (by simp)) free

theorem infix_of_separator {p u v : List α} {x : α} (free : x ∉ p) (inside : p <:+: u ++ x :: v) :
    p <:+: u ∨ p <:+: v := by
  induction u with
  | nil =>
      rw [List.nil_append, List.infix_cons_iff] at inside
      rcases inside with starts | later
      · exact Or.inl (prefix_of_separator (u := []) free starts).isInfix
      · exact Or.inr later
  | cons first u ih =>
      rw [List.cons_append, List.infix_cons_iff] at inside
      rcases inside with starts | later
      · exact Or.inl (prefix_of_separator (u := first :: u) free starts).isInfix
      · exact (ih later).imp_left fun within => List.infix_cons_iff.mpr (Or.inr within)

variable [DecidableEq α]

/-- The text behind the next `skip` items, with every occurrence replaced. -/
def replaceFrom (pattern replacement : List α) : ℕ → List α → List α
  | _, [] => []
  | skip + 1, _ :: rest => replaceFrom pattern replacement skip rest
  | 0, first :: rest =>
      if pattern <+: first :: rest then
        replacement ++ replaceFrom pattern replacement (pattern.length - 1) rest
      else first :: replaceFrom pattern replacement 0 rest

/-- The text with every occurrence of the pattern replaced. -/
def replaceAll (pattern replacement text : List α) : List α := replaceFrom pattern replacement 0 text

variable {pattern replacement : List α}

@[simp]
theorem replaceAll_nil : replaceAll pattern replacement [] = [] := rfl

theorem replaceFrom_eq (skip : ℕ) (text : List α) :
    replaceFrom pattern replacement skip text = replaceAll pattern replacement (text.drop skip) := by
  induction text generalizing skip with
  | nil => cases skip <;> rfl
  | cons first rest ih =>
      cases skip with
      | zero => rfl
      | succ skip => exact ih skip

theorem replaceAll_cons {first : α} {rest : List α} (other : ¬pattern <+: first :: rest) :
    replaceAll pattern replacement (first :: rest) = first :: replaceAll pattern replacement rest :=
  if_neg other

theorem replaceAll_append (nonempty : pattern ≠ []) (rest : List α) :
    replaceAll pattern replacement (pattern ++ rest) = replacement ++ replaceAll pattern replacement rest := by
  obtain ⟨first, others, rfl⟩ := List.exists_cons_of_ne_nil nonempty
  rw [List.cons_append, replaceAll, replaceFrom, if_pos (List.cons_prefix_cons.mpr ⟨rfl, List.prefix_append _ _⟩),
    replaceFrom_eq, List.length_cons, Nat.add_sub_cancel, List.drop_left]

/-- A text is empty, or starts with the pattern, or with an item at which the search goes on. -/
@[elab_as_elim]
theorem occurrence_rec (nonempty : pattern ≠ []) {motive : List α → Prop} (nil : motive [])
    (found : ∀ rest, motive rest → motive (pattern ++ rest))
    (other : ∀ first rest, ¬pattern <+: first :: rest → motive rest → motive (first :: rest)) (text : List α) :
    motive text := by
  induction length : text.length using Nat.strong_induction_on generalizing text with
  | _ n ih =>
      cases text with
      | nil => exact nil
      | cons first rest =>
          by_cases here : pattern <+: first :: rest
          · obtain ⟨behind, split⟩ := here
            rw [← split] at length ⊢
            have shorter : behind.length < n := by
              rw [← length, List.length_append]
              have := List.length_pos_iff.mpr nonempty
              omega
            exact found behind (ih _ shorter behind rfl)
          · exact other first rest here (ih rest.length (by rw [← length]; exact Nat.lt_succ_self _) rest rfl)

theorem replaceAll_of_free {text : List α} (free : ¬pattern <:+: text) : replaceAll pattern replacement text = text := by
  induction text with
  | nil => rfl
  | cons first rest ih =>
      rw [List.infix_cons_iff, not_or] at free
      rw [replaceAll_cons free.1, ih free.2]

theorem length_replaceAll_le (nonempty : pattern ≠ []) (shorter : replacement.length ≤ pattern.length) (text : List α) :
    (replaceAll pattern replacement text).length ≤ text.length := by
  induction text using occurrence_rec nonempty with
  | nil => exact le_rfl
  | found rest ih =>
      rw [replaceAll_append nonempty, List.length_append, List.length_append]
      omega
  | other first rest other ih =>
      rw [replaceAll_cons other]
      exact Nat.succ_le_succ ih

/-! ## The result is free of the pattern -/

section Marked

variable {mark : α} {middle : List α} (nonempty : pattern ≠ [])
include nonempty

/-- What is in front of the result and has no mark was in front of the text. -/
theorem prefix_of_replaceAll {front text : List α} (free : mark ∉ front)
    (starts : front <+: replaceAll pattern (mark :: middle) text) : front <+: text := by
  induction text using occurrence_rec nonempty generalizing front with
  | nil => exact starts
  | found rest ih =>
      rw [replaceAll_append nonempty] at starts
      cases front with
      | nil => exact List.nil_prefix
      | cons item front =>
          rw [List.cons_append, List.cons_prefix_cons] at starts
          exact absurd (starts.1 ▸ List.mem_cons_self) free
  | other first rest other ih =>
      rw [replaceAll_cons other] at starts
      cases front with
      | nil => exact List.nil_prefix
      | cons item front =>
          rw [List.cons_prefix_cons] at starts ⊢
          exact ⟨starts.1, ih (fun inside => free (List.mem_cons_of_mem _ inside)) starts.2⟩

theorem replaceAll_free {last : α} (unmarked : mark ∉ pattern) (unmarkedLast : last ∉ pattern)
    (shorter : middle.length + 2 ≤ pattern.length) (text : List α) : ¬pattern <:+: replaceAll pattern (mark :: (middle ++ [last])) text := by
  induction text using occurrence_rec nonempty with
  | nil =>
      rw [replaceAll_nil, List.infix_nil]
      exact nonempty
  | found rest ih =>
      rw [replaceAll_append nonempty]
      intro inside
      have split : mark :: (middle ++ [last]) ++ replaceAll pattern (mark :: (middle ++ [last])) rest =
          (mark :: middle) ++ last :: replaceAll pattern (mark :: (middle ++ [last])) rest := by simp
      rw [split] at inside
      rcases infix_of_separator unmarkedLast inside with within | later
      · have bound := within.length_le
        rw [List.length_cons] at bound
        omega
      · exact ih later
  | other first rest other ih =>
      intro inside
      rw [replaceAll_cons other, List.infix_cons_iff] at inside
      rcases inside with starts | later
      · rw [← replaceAll_cons other] at starts
        exact other (prefix_of_replaceAll nonempty unmarked starts)
      · exact ih later

end Marked

/-! ## Cutting before and after -/

/-- Without an occurrence in front of the cut, the order does not matter. -/
theorem replaceAll_take_of_none {n : ℕ} {text : List α} (none : ∀ i < n, ¬pattern <+: text.drop i) :
    replaceAll pattern replacement (text.take n) = (replaceAll pattern replacement text).take n := by
  induction text generalizing n with
  | nil => simp
  | cons first rest ih =>
      cases n with
      | zero => rfl
      | succ n =>
          have here : ¬pattern <+: first :: rest := none 0 (Nat.succ_pos n)
          have cut : ¬pattern <+: first :: rest.take n := fun starts =>
            here (starts.trans (List.take_prefix (n + 1) (first :: rest)))
          rw [List.take_succ_cons, replaceAll_cons cut, replaceAll_cons here, List.take_succ_cons,
            ih fun i below => none (i + 1) (Nat.succ_lt_succ below)]

section Cut

variable {mark : α} {middle : List α} (unmarked : mark ∉ pattern)
include unmarked

/-- A cut inside of an occurrence in front leaves items of the pattern where the mark would be. -/
theorem replaceAll_take_pattern {n : ℕ} (inside : n < pattern.length) (rest others : List α) :
    replaceAll pattern (mark :: middle) ((pattern ++ rest).take n) ≠ mark :: others := by
  rw [List.take_append_of_le_length inside.le, replaceAll_of_free]
  · intro same
    have first : mark ∈ pattern.take n := same ▸ List.mem_cons_self
    exact unmarked (List.mem_of_mem_take first)
  · intro whole
    have bound := whole.length_le
    rw [List.length_take] at bound
    omega

variable (nonempty : pattern ≠ [])
include nonempty

theorem replaceAll_take_ne {n : ℕ} {text : List α} (cuts : n < text.length) :
    replaceAll pattern (mark :: middle) (text.take n) ≠ replaceAll pattern (mark :: middle) text := by
  induction text using occurrence_rec nonempty generalizing n with
  | nil => cases cuts
  | found rest ih =>
      rw [replaceAll_append nonempty]
      rcases Nat.lt_or_ge n pattern.length with inside | behind
      · exact replaceAll_take_pattern unmarked inside rest _
      · rw [List.take_append, List.take_of_length_le behind, replaceAll_append nonempty]
        intro same
        rw [List.length_append] at cuts
        exact ih (by omega) (List.append_cancel_left same)
  | other first rest other ih =>
      rw [replaceAll_cons other]
      cases n with
      | zero => exact (List.cons_ne_nil _ _).symm
      | succ n =>
          have cut : ¬pattern <+: first :: rest.take n := fun starts =>
            other (starts.trans (List.take_prefix (n + 1) (first :: rest)))
          rw [List.take_succ_cons, replaceAll_cons cut]
          intro same
          exact ih (Nat.lt_of_succ_lt_succ cuts) (List.cons.inj same).2

/-- Replacing in the cut text gives the cut of the result exactly when nothing is cut off or no
occurrence starts in front of the cut. -/
theorem replaceAll_take_iff (shorter : (mark :: middle).length < pattern.length) (n : ℕ) (text : List α) :
    replaceAll pattern (mark :: middle) (text.take n) = (replaceAll pattern (mark :: middle) text).take n ↔
      text.length ≤ n ∨ ∀ i < n, ¬pattern <+: text.drop i := by
  constructor
  · intro same
    by_contra neither
    rw [not_or, not_le] at neither
    obtain ⟨cuts, some⟩ := neither
    simp only [not_forall, not_not] at some
    obtain ⟨i, below, occurs⟩ := some
    induction text using occurrence_rec nonempty generalizing n i with
    | nil => cases cuts
    | found rest ih =>
        rw [replaceAll_append nonempty] at same
        rcases Nat.lt_or_ge n pattern.length with inside | behind
        · obtain ⟨n, rfl⟩ := Nat.exists_eq_succ_of_ne_zero (Nat.ne_zero_of_lt below)
          rw [List.cons_append, List.take_succ_cons] at same
          exact replaceAll_take_pattern unmarked inside rest _ same
        · -- The result of the cut text is shorter than the cut, so it would have to be the whole result.
          rw [List.take_append, List.take_of_length_le behind, replaceAll_append nonempty, List.take_append,
            List.take_of_length_le (shorter.le.trans behind)] at same
          have same := List.append_cancel_left same
          have short := length_replaceAll_le nonempty shorter.le (rest.take (n - pattern.length))
          rw [same, List.length_take, List.length_take] at short
          rw [List.length_append] at cuts
          have whole : (replaceAll pattern (mark :: middle) rest).take (n - (mark :: middle).length) =
              replaceAll pattern (mark :: middle) rest := List.take_of_length_le (by omega)
          rw [whole] at same
          exact replaceAll_take_ne unmarked nonempty (by omega) same
    | other first rest other ih =>
        cases n with
        | zero => cases below
        | succ n =>
            cases i with
            | zero => exact other occurs
            | succ i =>
                have cut : ¬pattern <+: first :: rest.take n := fun starts =>
                  other (starts.trans (List.take_prefix (n + 1) (first :: rest)))
                rw [List.take_succ_cons, replaceAll_cons cut, replaceAll_cons other, List.take_succ_cons] at same
                exact ih n (List.cons.inj same).2 (Nat.lt_of_succ_lt_succ cuts) i (Nat.lt_of_succ_lt_succ below) occurs
  · rintro (whole | none)
    · rw [List.take_of_length_le whole,
        List.take_of_length_le ((length_replaceAll_le nonempty shorter.le text).trans whole)]
    · exact replaceAll_take_of_none none

end Cut

end XWrt.Foundation.Replace
