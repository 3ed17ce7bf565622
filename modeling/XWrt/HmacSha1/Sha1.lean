import Mathlib.Data.Fin.Basic
import Mathlib.Tactic.IntervalCases

/-!
# The block function of SHA-1

`SHA1_Transform` of `sha1.c` on a little-endian machine, as `sha.h` has it. The
rounds are unrolled: a round does not move the working variables, the next one
names them in another order, and the sixteen words of the block are expanded in
the block itself. The function is the compression function of the standard,
with its schedule of eighty words and its five moving variables.
-/

namespace XWrt.HmacSha1

/-- `sha1_quadbyte` -/
abbrev Word := BitVec 32

/-- `sha1_byte` -/
abbrev Byte := BitVec 8

/-- `rol(value, bits)` -/
def rol (value : Word) (bits : ℕ) : Word := value <<< bits ||| value >>> (32 - bits)

/-- The word of four bytes, the high one first. -/
def word (high second third low : Byte) : Word :=
  high.setWidth 32 <<< 24 ||| second.setWidth 32 <<< 16 ||| third.setWidth 32 <<< 8 ||| low.setWidth 32

/-! ## The standard -/

namespace Standard

/-- A block as words. -/
def words (block : List Byte) (t : ℕ) : Word :=
  word (block.getD (4 * t) 0) (block.getD (4 * t + 1) 0) (block.getD (4 * t + 2) 0) (block.getD (4 * t + 3) 0)

/-- The message schedule of a block. -/
def schedule (block : List Byte) (t : ℕ) : Word :=
  if t < 16 then words block t
  else rol (schedule block (t - 3) ^^^ schedule block (t - 8) ^^^ schedule block (t - 14) ^^^ schedule block (t - 16)) 1

def ch (x y z : Word) : Word := (x &&& y) ^^^ (~~~x &&& z)

def parity (x y z : Word) : Word := x ^^^ y ^^^ z

def maj (x y z : Word) : Word := (x &&& y) ^^^ (x &&& z) ^^^ (y &&& z)

/-- The function of round `t`. -/
def f (t : ℕ) : Word → Word → Word → Word :=
  if t < 20 then ch else if t < 40 then parity else if t < 60 then maj else parity

/-- The constant of round `t`. -/
def k (t : ℕ) : Word :=
  if t < 20 then 0x5A827999 else if t < 40 then 0x6ED9EBA1 else if t < 60 then 0x8F1BBCDC else 0xCA62C1D6

/-- Five words: the hash value, or the working variables. -/
structure Five where
  a : Word
  b : Word
  c : Word
  d : Word
  e : Word
  deriving DecidableEq, Repr

def round (block : List Byte) (v : Five) (t : ℕ) : Five where
  a := rol v.a 5 + f t v.b v.c v.d + v.e + k t + schedule block t
  b := v.a
  c := rol v.b 30
  d := v.c
  e := v.d

/-- The compression function. -/
def compress (h : Five) (block : List Byte) : Five :=
  let v := (List.range 80).foldl (round block) h
  ⟨h.a + v.a, h.b + v.b, h.c + v.c, h.d + v.d, h.e + v.e⟩

end Standard

/-! ## The program -/

/-- The working variables `a` to `e`, by number, and `block->l`. -/
structure Working where
  regs : Vector Word 5
  l : Vector Word 16

/-- `block->c` read as `block->l`. -/
def loadWords (block : List Byte) : Vector Word 16 :=
  Vector.ofFn fun i =>
    word (block.getD (4 * i + 3) 0) (block.getD (4 * i + 2) 0) (block.getD (4 * i + 1) 0) (block.getD (4 * i) 0)

/-- `block->l` read as `block->c`. -/
def storeWords (l : Vector Word 16) : List Byte :=
  l.toList.flatMap fun word =>
    [word.extractLsb' 0 8, word.extractLsb' 8 8, word.extractLsb' 16 8, word.extractLsb' 24 8]

/-- `blk0(i)` writes a word; the value of the macro is the word written. -/
def blk0 (i : Fin 16) (l : Vector Word 16) : Vector Word 16 :=
  l.set i (rol (l.get i) 24 &&& 0xFF00FF00 ||| rol (l.get i) 8 &&& 0x00FF00FF)

/-- `blk(i)` -/
def blk (i : Fin 16) (l : Vector Word 16) : Vector Word 16 :=
  l.set i (rol (l.get (i + 13) ^^^ l.get (i + 8) ^^^ l.get (i + 2) ^^^ l.get i) 1)

/-- The common form of the macros `R0` to `R4`. -/
def mix (f : Word → Word → Word → Word) (constant : Word) (expand : Vector Word 16 → Vector Word 16)
    (v w x y z : Fin 5) (i : Fin 16) (s : Working) : Working :=
  let l := expand s.l
  let sum := s.regs.get z +
    (f (s.regs.get w) (s.regs.get x) (s.regs.get y) + l.get i + constant + rol (s.regs.get v) 5)
  let regs := s.regs.set z sum
  { regs := regs.set w (rol (regs.get w) 30), l := l }

def R0 (v w x y z : Fin 5) (i : Fin 16) : Working → Working :=
  mix (fun w x y => (w &&& (x ^^^ y)) ^^^ y) 0x5A827999 (blk0 i) v w x y z i

def R1 (v w x y z : Fin 5) (i : Fin 16) : Working → Working :=
  mix (fun w x y => (w &&& (x ^^^ y)) ^^^ y) 0x5A827999 (blk i) v w x y z i

def R2 (v w x y z : Fin 5) (i : Fin 16) : Working → Working :=
  mix (fun w x y => w ^^^ x ^^^ y) 0x6ED9EBA1 (blk i) v w x y z i

def R3 (v w x y z : Fin 5) (i : Fin 16) : Working → Working :=
  mix (fun w x y => ((w ||| x) &&& y) ||| (w &&& x)) 0x8F1BBCDC (blk i) v w x y z i

def R4 (v w x y z : Fin 5) (i : Fin 16) : Working → Working :=
  mix (fun w x y => w ^^^ x ^^^ y) 0xCA62C1D6 (blk i) v w x y z i

/-- The index of a word of the state. -/
def register (i : ℕ) : Fin 5 := Fin.ofNat 5 i

/-- The call number `i`: its macro, and the variables it names. The first is called on
`a, b, c, d, e`, the second on `e, a, b, c, d`, and so on. -/
def call (s : Working) (i : ℕ) : Working :=
  let first : Fin 5 := -Fin.ofNat 5 i
  let macros := if i < 16 then R0 else if i < 20 then R1 else if i < 40 then R2 else if i < 60 then R3 else R4
  macros first (first + 1) (first + 2) (first + 3) (first + 4) (Fin.ofNat 16 i) s

/-- `SHA1_Transform`: the state, and the block as the call leaves it. -/
def transform (state : Vector Word 5) (block : List Byte) : Vector Word 5 × List Byte :=
  let s := (List.range 80).foldl call ⟨state, loadWords block⟩
  (state.zipWith (· + ·) s.regs, storeWords s.l)

/-! ## The macros -/

theorem swap_word (high second third low : Byte) :
    rol (word low third second high) 24 &&& 0xFF00FF00 ||| rol (word low third second high) 8 &&& 0x00FF00FF =
      word high second third low := by
  rw [word, word]
  apply BitVec.eq_of_getLsbD_eq
  intro i small
  interval_cases i <;> simp [rol]

theorem ch_eq (w x y : Word) : (w &&& (x ^^^ y)) ^^^ y = Standard.ch w x y := by
  rw [Standard.ch]
  ext i small
  simp only [BitVec.getElem_xor, BitVec.getElem_and, BitVec.getElem_not]
  cases w[i] <;> simp

theorem maj_eq (w x y : Word) : ((w ||| x) &&& y) ||| (w &&& x) = Standard.maj w x y := by
  rw [Standard.maj]
  ext i small
  simp only [BitVec.getElem_xor, BitVec.getElem_and, BitVec.getElem_or]
  cases w[i] <;> cases x[i] <;> simp

theorem get_set {α : Type*} {n : ℕ} (values : Vector α n) (i j : Fin n) (value : α) :
    (values.set i value).get j = if i = j then value else values.get j := by
  change (values.set i value)[j.val] = if i = j then value else values[j.val]
  rw [Vector.getElem_set]
  simp only [Fin.ext_iff]

/-- What a macro does to the variable its first argument names. -/
theorem mix_first (f : Word → Word → Word → Word) (constant : Word) (expand : Vector Word 16 → Vector Word 16)
    (first : Fin 5) (i : Fin 16) (s : Working) :
    let after := (mix f constant expand first (first + 1) (first + 2) (first + 3) (first + 4) i s).regs
    after.get (first + 4) = s.regs.get (first + 4) +
        (f (s.regs.get (first + 1)) (s.regs.get (first + 2)) (s.regs.get (first + 3)) + (expand s.l).get i + constant +
          rol (s.regs.get first) 5) ∧
      after.get first = s.regs.get first ∧ after.get (first + 1) = rol (s.regs.get (first + 1)) 30 ∧
        after.get (first + 2) = s.regs.get (first + 2) ∧ after.get (first + 3) = s.regs.get (first + 3) := by
  have apart : ∀ first : Fin 5, first + 1 ≠ first + 4 ∧ first + 1 ≠ first ∧ first + 4 ≠ first ∧ first + 4 ≠ first + 1 ∧
      first + 1 ≠ first + 2 ∧ first + 4 ≠ first + 2 ∧ first + 1 ≠ first + 3 ∧ first + 4 ≠ first + 3 := by decide
  obtain ⟨h₁, h₂, h₃, h₄, h₅, h₆, h₇, h₈⟩ := apart first
  simp only [mix, get_set, if_neg h₁, if_neg h₂, if_neg h₃, if_neg h₄, if_neg h₅, if_neg h₆, if_neg h₇, if_neg h₈,
    ite_true, and_self]

/-! ## The rounds -/

/-- The variables of the standard after `t` rounds are those of the program under the
names of the next call; the block has the last sixteen words of the schedule. -/
structure Follows (block : List Byte) (t : ℕ) (v : Standard.Five) (s : Working) : Prop where
  a : s.regs.get (-Fin.ofNat 5 t) = v.a
  b : s.regs.get (-Fin.ofNat 5 t + 1) = v.b
  c : s.regs.get (-Fin.ofNat 5 t + 2) = v.c
  d : s.regs.get (-Fin.ofNat 5 t + 3) = v.d
  e : s.regs.get (-Fin.ofNat 5 t + 4) = v.e
  expanded : ∀ u < t, t ≤ u + 16 → s.l.get (Fin.ofNat 16 u) = Standard.schedule block u
  loaded : ∀ i : Fin 16, t ≤ i → s.l.get i = (loadWords block).get i

theorem first_succ (t : ℕ) : -Fin.ofNat 5 t = -Fin.ofNat 5 (t + 1) + 1 := by
  have succ : ∀ n : Fin 5, -n = -(n + 1) + 1 := by decide
  have cast : Fin.ofNat 5 (t + 1) = Fin.ofNat 5 t + 1 := by
    ext
    simp [Fin.val_add]
  rw [cast, ← succ]

/-- The word that a call adds is the next one of the schedule, and the block keeps the
last sixteen words. -/
structure Expands (block : List Byte) (t : ℕ) (expand : Vector Word 16 → Vector Word 16) (l : Vector Word 16) : Prop where
  here : (expand l).get (Fin.ofNat 16 t) = Standard.schedule block t
  others : ∀ i, i ≠ Fin.ofNat 16 t → (expand l).get i = l.get i

theorem blk0_expands {block : List Byte} {t : ℕ} {v : Standard.Five} {s : Working} (follows : Follows block t v s)
    (early : t < 16) : Expands block t (blk0 (Fin.ofNat 16 t)) s.l := by
  have place : (Fin.ofNat 16 t).val = t := Nat.mod_eq_of_lt early
  have raw : s.l.get (Fin.ofNat 16 t) = word (block.getD (4 * t + 3) 0) (block.getD (4 * t + 2) 0)
      (block.getD (4 * t + 1) 0) (block.getD (4 * t) 0) := by
    rw [follows.loaded _ place.ge]
    change (loadWords block)[(Fin.ofNat 16 t).val] = _
    simp only [loadWords, Vector.getElem_ofFn, place]
  constructor
  · rw [blk0, get_set, if_pos rfl, raw, swap_word, Standard.schedule, if_pos early, Standard.words]
  · intro i other
    rw [blk0, get_set, if_neg other.symm]

theorem blk_expands {block : List Byte} {t : ℕ} {v : Standard.Five} {s : Working} (follows : Follows block t v s)
    (late : 16 ≤ t) : Expands block t (blk (Fin.ofNat 16 t)) s.l := by
  have back : ∀ n, ∀ i : Fin 16, (t + i.val) % 16 = (t - n) % 16 → Fin.ofNat 16 t + i = Fin.ofNat 16 (t - n) := by
    intro n i same
    ext
    simpa [Fin.val_add] using same
  have third : Fin.ofNat 16 t + 13 = Fin.ofNat 16 (t - 3) := back 3 13 (by simp; omega)
  have eighth : Fin.ofNat 16 t + 8 = Fin.ofNat 16 (t - 8) := back 8 8 (by simp; omega)
  have fourteenth : Fin.ofNat 16 t + 2 = Fin.ofNat 16 (t - 14) := back 14 2 (by simp; omega)
  have sixteenth : s.l.get (Fin.ofNat 16 t) = s.l.get (Fin.ofNat 16 (t - 16)) := by
    rw [← back 16 0 (by simp; omega), Fin.add_zero]
  constructor
  · rw [blk, get_set, if_pos rfl, third, eighth, fourteenth, sixteenth, follows.expanded _ (by omega) (by omega),
      follows.expanded _ (by omega) (by omega), follows.expanded _ (by omega) (by omega),
      follows.expanded _ (by omega) (by omega)]
    rw [Standard.schedule.eq_1 block t, if_neg (by omega)]
  · intro i other
    rw [blk, get_set, if_neg other.symm]

/-- One call is one round. -/
theorem mix_follows {block : List Byte} {t : ℕ} {v : Standard.Five} {s : Working} (follows : Follows block t v s)
    {f : Word → Word → Word → Word} {constant : Word} {expand : Vector Word 16 → Vector Word 16}
    (function : f = Standard.f t) (number : constant = Standard.k t) (expands : Expands block t expand s.l) :
    let first : Fin 5 := -Fin.ofNat 5 t
    Follows block (t + 1) (Standard.round block v t)
      (mix f constant expand first (first + 1) (first + 2) (first + 3) (first + 4) (Fin.ofNat 16 t) s) := by
  intro first
  obtain ⟨sum, same, turned, third, fourth⟩ := mix_first f constant expand first (Fin.ofNat 16 t) s
  have next : -Fin.ofNat 5 (t + 1) = first + 4 := by
    have before : ∀ n : Fin 5, n = n + 1 + 4 := by decide
    rw [before (-Fin.ofNat 5 (t + 1)), ← first_succ]
  have around : ∀ n : Fin 5, n + 4 + 1 = n ∧ n + 4 + 2 = n + 1 ∧ n + 4 + 3 = n + 2 ∧ n + 4 + 4 = n + 3 := by decide
  obtain ⟨h₁, h₂, h₃, h₄⟩ := around first
  constructor
  · rw [next, sum, function, number, expands.here, follows.a, follows.b, follows.c, follows.d, follows.e]
    simp only [Standard.round]
    ac_rfl
  · rw [next, h₁, same, follows.a]
    rfl
  · rw [next, h₂, turned, follows.b]
    rfl
  · rw [next, h₃, third, follows.c]
    rfl
  · rw [next, h₄, fourth, follows.d]
    rfl
  · intro u before recent
    change (expand s.l).get _ = _
    rcases Nat.lt_succ_iff_lt_or_eq.mp before with earlier | rfl
    · have other : Fin.ofNat 16 u ≠ Fin.ofNat 16 t := by
        intro same
        have values : u % 16 = t % 16 := congrArg Fin.val same
        omega
      rw [expands.others _ other, follows.expanded u earlier (by omega)]
    · exact expands.here
  · intro i behind
    change (expand s.l).get i = _
    have other : i ≠ Fin.ofNat 16 t := by
      rintro rfl
      have small : (Fin.ofNat 16 t).val ≤ t := Nat.mod_le t 16
      omega
    rw [expands.others i other, follows.loaded i (by omega)]

theorem call_follows {block : List Byte} {t : ℕ} {v : Standard.Five} {s : Working} (follows : Follows block t v s)
    (bound : t < 80) : Follows block (t + 1) (Standard.round block v t) (call s t) := by
  have chosen : (fun w x y => (w &&& (x ^^^ y)) ^^^ y) = Standard.ch := funext₃ ch_eq
  have majority : (fun w x y => ((w ||| x) &&& y) ||| (w &&& x)) = Standard.maj := funext₃ maj_eq
  unfold call
  by_cases h₁ : t < 16
  · rw [if_pos h₁]
    refine mix_follows follows ?_ ?_ (blk0_expands follows h₁)
    · rw [chosen, Standard.f, if_pos (by omega)]
    · rw [Standard.k, if_pos (by omega)]
  rw [if_neg h₁]
  have expands := blk_expands follows (by omega)
  by_cases h₂ : t < 20
  · rw [if_pos h₂]
    refine mix_follows follows ?_ ?_ expands
    · rw [chosen, Standard.f, if_pos h₂]
    · rw [Standard.k, if_pos h₂]
  rw [if_neg h₂]
  by_cases h₃ : t < 40
  · rw [if_pos h₃]
    refine mix_follows follows ?_ ?_ expands
    · rw [Standard.f, if_neg h₂, if_pos h₃]
      rfl
    · rw [Standard.k, if_neg h₂, if_pos h₃]
  rw [if_neg h₃]
  by_cases h₄ : t < 60
  · rw [if_pos h₄]
    refine mix_follows follows ?_ ?_ expands
    · rw [majority, Standard.f, if_neg h₂, if_neg h₃, if_pos h₄]
    · rw [Standard.k, if_neg h₂, if_neg h₃, if_pos h₄]
  · rw [if_neg h₄]
    refine mix_follows follows ?_ ?_ expands
    · rw [Standard.f, if_neg h₂, if_neg h₃, if_neg h₄]
      rfl
    · rw [Standard.k, if_neg h₂, if_neg h₃, if_neg h₄]

/-- The five words of a state. -/
def five (state : Vector Word 5) : Standard.Five := ⟨state.get 0, state.get 1, state.get 2, state.get 3, state.get 4⟩

theorem calls_follow (block : List Byte) (state : Vector Word 5) {t : ℕ} (bound : t ≤ 80) :
    Follows block t ((List.range t).foldl (Standard.round block) (five state))
      ((List.range t).foldl call ⟨state, loadWords block⟩) := by
  induction t with
  | zero => exact ⟨rfl, rfl, rfl, rfl, rfl, fun u none => absurd none (Nat.not_lt_zero u), fun _ _ => rfl⟩
  | succ t ih =>
      rw [List.range_succ, List.foldl_append, List.foldl_append]
      exact call_follows (ih (by omega)) (by omega)

/-- `SHA1_Transform` is the compression function of the standard. -/
theorem transform_fst (state : Vector Word 5) (block : List Byte) :
    five (transform state block).1 = Standard.compress (five state) block := by
  obtain ⟨a, b, c, d, e, -, -⟩ := calls_follow block state (le_refl 80)
  have sums : ∀ i, (transform state block).1.get i =
      state.get i + ((List.range 80).foldl call ⟨state, loadWords block⟩).regs.get i :=
    fun i => Vector.getElem_zipWith i.isLt
  rw [five, sums, sums, sums, sums, sums, Standard.compress, ← a, ← b, ← c, ← d, ← e]
  rfl

/-- The block of the message "abc". -/
example : (transform #v[0x67452301, 0xEFCDAB89, 0x98BADCFE, 0x10325476, 0xC3D2E1F0]
    ([0x61, 0x62, 0x63, 0x80] ++ List.replicate 59 0 ++ [24])).1 =
    #v[0xA9993E36, 0x4706816A, 0xBA3E2571, 0x7850C26C, 0x9CD0D89D] := by decide +kernel

end XWrt.HmacSha1
