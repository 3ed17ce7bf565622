import Mathlib.Tactic.Ring
import XWrt.Foundation.BlockStream
import XWrt.HmacSha1.Sha1

/-!
# SHA-1 of a message in pieces

`SHA1_Init`, `SHA1_Update` and `SHA1_Final` of `sha1.c`. A context counts the
bits of the message modulo `2 ^ 64` in two words and keeps the bytes behind the
last whole block. Whole blocks of a piece are compressed where they are, which
overwrites them. The digest is the one of the standard for the pieces put
together.
-/

namespace XWrt.HmacSha1

open XWrt.Foundation

/-! ## The standard -/

namespace Standard

def initial : Five := ⟨0x67452301, 0xEFCDAB89, 0x98BADCFE, 0x10325476, 0xC3D2E1F0⟩

/-- The bytes of a word, the high one first. -/
def bytes {n : ℕ} (count : ℕ) (word : BitVec n) : List Byte :=
  (List.range count).map fun i => (word >>> ((count - 1 - i) * 8)).setWidth 8

/-- A one bit, the fewest zeros, and the number of bits of the message. -/
def pad (message : List Byte) : List Byte :=
  message ++ [0x80] ++ List.replicate ((119 - message.length % 64) % 64) 0 ++
    bytes 8 (BitVec.ofNat 64 (8 * message.length))

def output (h : Five) : List Byte := [h.a, h.b, h.c, h.d, h.e].flatMap (bytes 4)

/-- The hash of a message. -/
def sha1 (message : List Byte) : List Byte := output ((BlockStream.blocks 64 (pad message)).foldl compress initial)

end Standard

/-! ## The program -/

/-- `SHA_CTX` -/
structure ShaCtx where
  state : Vector Word 5
  count0 : Word
  count1 : Word
  buffer : List Byte

/-- `memcpy(&memory[place], data, sizeof data)` -/
def overwrite (memory : List Byte) (place : ℕ) (data : List Byte) : List Byte :=
  memory.take place ++ data ++ memory.drop (place + data.length)

/-- `SHA1_Init` leaves the buffer as it is. -/
def init (ctx : ShaCtx) : ShaCtx :=
  { ctx with state := #v[0x67452301, 0xEFCDAB89, 0x98BADCFE, 0x10325476, 0xC3D2E1F0], count0 := 0, count1 := 0 }

/-- The `for` loop of `SHA1_Update` on the data from `i` on: the state, the blocks as the
loop leaves them, and the data that is left. -/
def wholeBlocks (state : Vector Word 5) (data : List Byte) : Vector Word 5 × List Byte × List Byte :=
  if 64 ≤ data.length then
    let block := transform state (data.take 64)
    let (state, done, rest) := wholeBlocks block.1 (data.drop 64)
    (state, block.2 ++ done, rest)
  else (state, [], data)
termination_by data.length

/-- `SHA1_Update`: the context, and the data as the call leaves it. -/
def update (ctx : ShaCtx) (data : List Byte) : ShaCtx × List Byte :=
  let len : Word := BitVec.ofNat 32 data.length
  let j := (ctx.count0 >>> 3 &&& 63).toNat
  let count0 := ctx.count0 + len <<< 3
  let carried := if count0 < len <<< 3 then ctx.count1 + 1 else ctx.count1
  let count1 := carried + len >>> 29
  if 63 < (j + data.length) % 2 ^ 32 then
    let i := 64 - j
    let first := transform ctx.state (overwrite ctx.buffer j (data.take i))
    let (state, done, rest) := wholeBlocks first.1 (data.drop i)
    (⟨state, count0, count1, overwrite first.2 0 rest⟩, data.take i ++ done ++ rest)
  else (⟨ctx.state, count0, count1, overwrite ctx.buffer j data⟩, data)

theorem count0_update (ctx : ShaCtx) (data : List Byte) :
    (update ctx data).1.count0 = ctx.count0 + BitVec.ofNat 32 data.length <<< 3 := by
  dsimp only [update]
  split <;> rfl

theorem and_63 (word : Word) : (word >>> 3 &&& 63).toNat = word.toNat / 8 % 64 := by
  rw [BitVec.toNat_and, BitVec.toNat_ushiftRight, Nat.shiftRight_eq_div_pow]
  exact Nat.and_two_pow_sub_one_eq_mod _ 6

theorem and_504 (word : Word) : (word &&& 504).toNat = word.toNat / 8 % 64 * 8 := by
  have shifted : word &&& (504 : Word) = (word >>> 3 &&& 63) <<< 3 := by
    apply BitVec.eq_of_getLsbD_eq
    intro i small
    interval_cases i <;> simp
  rw [shifted, BitVec.toNat_shiftLeft, and_63, Nat.shiftLeft_eq]
  omega

/-- The `while` loop of `SHA1_Final`. -/
def padZeros (ctx : ShaCtx) : ShaCtx :=
  if ctx.count0 &&& 504 ≠ 448 then padZeros (update ctx [0]).1 else ctx
termination_by (120 - ctx.count0.toNat / 8 % 64) % 64
decreasing_by
  next unfinished =>
    have open' : ctx.count0.toNat / 8 % 64 ≠ 56 := by
      intro finished
      refine unfinished (BitVec.eq_of_toNat_eq ?_)
      rw [and_504, finished]
      rfl
    rw [count0_update, BitVec.toNat_add]
    change (120 - (ctx.count0.toNat + 8) % 2 ^ 32 / 8 % 64) % 64 < _
    omega

/-- `finalcount` -/
def finalcount (ctx : ShaCtx) : List Byte :=
  (List.range 8).map fun i => ((if 4 ≤ i then ctx.count0 else ctx.count1) >>> ((3 - i % 4) * 8) &&& 255).setWidth 8

/-- `SHA1_Final`: the digest, and the context wiped. -/
def final (ctx : ShaCtx) : List Byte × ShaCtx :=
  let counts := finalcount ctx
  let ctx := (update (padZeros (update ctx [0x80]).1) counts).1
  ((List.range 20).map fun i => (ctx.state.get (register (i / 4)) >>> ((3 - i % 4) * 8) &&& 255).setWidth 8,
    ⟨Vector.replicate 5 0, 0, 0, List.replicate 64 0⟩)

/-! ## The pieces of a message -/

/-- The state and the waiting bytes after a message. -/
def absorbed (message : List Byte) : Standard.Five × List Byte :=
  BlockStream.absorb 64 Standard.compress (Standard.initial, []) message

/-- The context has absorbed the message. -/
structure Represents (ctx : ShaCtx) (message : List Byte) : Prop where
  state : five ctx.state = (absorbed message).1
  waiting : ctx.buffer.take (message.length % 64) = (absorbed message).2
  length : ctx.buffer.length = 64
  count : ctx.count1.toNat * 2 ^ 32 + ctx.count0.toNat = 8 * message.length % 2 ^ 64

theorem length_overwrite {memory data : List Byte} {place : ℕ} (fits : place + data.length ≤ memory.length) :
    (overwrite memory place data).length = memory.length := by
  rw [overwrite, List.length_append, List.length_append, List.length_take, List.length_drop]
  omega

theorem take_overwrite {memory data : List Byte} {place : ℕ} (fits : place ≤ memory.length) :
    (overwrite memory place data).take (place + data.length) = memory.take place ++ data := by
  rw [overwrite]
  refine List.take_left' ?_
  rw [List.length_append, List.length_take, Nat.min_eq_left fits]

theorem length_transform (state : Vector Word 5) (block : List Byte) : (transform state block).2.length = 64 := by
  rw [transform, storeWords, List.length_flatMap]
  simp only [List.length_cons, List.length_nil, List.map_const', List.sum_replicate_nat, Vector.length_toList]

theorem absorb_wholeBlocks (state : Vector Word 5) (data : List Byte) :
    BlockStream.absorb 64 Standard.compress (five state, []) data =
        (five (wholeBlocks state data).1, (wholeBlocks state data).2.2) ∧
      (wholeBlocks state data).2.2.length < 64 := by
  fun_induction wholeBlocks state data with
  | case1 state data long block state' done rest result ih =>
      have first : (data.take 64).length = 64 := List.length_take_of_le long
      rw [result] at ih
      refine ⟨?_, ih.2⟩
      conv_lhs => rw [← List.take_append_drop 64 data]
      rw [BlockStream.absorb_block (by decide) _ first, ← transform_fst]
      exact ih.1
  | case2 state data short =>
      refine ⟨?_, Nat.lt_of_not_le short⟩
      rw [BlockStream.absorb_short (by simpa using short)]
      rfl

theorem length_absorbed (message : List Byte) : (absorbed message).2.length = message.length % 64 := by
  rw [absorbed, BlockStream.length_absorb (by decide), List.length_nil, Nat.zero_add]

theorem Represents.place {ctx : ShaCtx} {message : List Byte} (represents : Represents ctx message) :
    (ctx.count0 >>> 3 &&& 63).toNat = message.length % 64 := by
  have count := represents.count
  rw [and_63]
  omega

theorem represents_init (ctx : ShaCtx) (length : ctx.buffer.length = 64) : Represents (init ctx) [] where
  state := rfl
  waiting := rfl
  length := length
  count := by simp [init]

/-! ### The counter -/

theorem two_words (high : ℕ) {low : ℕ} (small : low < 2 ^ 32) :
    high % 2 ^ 32 * 2 ^ 32 + low = (high * 2 ^ 32 + low) % 2 ^ 64 := by
  omega

/-- The carry of a sum of two words shows in the sum. -/
theorem carried_sum {first second : ℕ} (first_lt : first < 2 ^ 32) (second_lt : second < 2 ^ 32) :
    (if (first + second) % 2 ^ 32 < second then 1 else 0) * 2 ^ 32 + (first + second) % 2 ^ 32 = first + second := by
  rcases Nat.lt_or_ge (first + second) (2 ^ 32) with fits | wraps
  · rw [Nat.mod_eq_of_lt fits, if_neg (by omega)]
    omega
  · have wrapped : (first + second) % 2 ^ 32 = first + second - 2 ^ 32 := by omega
    rw [wrapped, if_pos (by omega)]
    omega

theorem carried_count {c1 c0 m n : ℕ} (c0_lt : c0 < 2 ^ 32) (count : c1 * 2 ^ 32 + c0 = 8 * m % 2 ^ 64) :
    (c1 + (if (c0 + 8 * n % 2 ^ 32) % 2 ^ 32 < 8 * n % 2 ^ 32 then 1 else 0) + n / 2 ^ 29) % 2 ^ 32 * 2 ^ 32 +
      (c0 + 8 * n % 2 ^ 32) % 2 ^ 32 = 8 * (m + n) % 2 ^ 64 := by
  have parts : 8 * n = n / 2 ^ 29 * 2 ^ 32 + 8 * n % 2 ^ 32 := by omega
  have carried := carried_sum c0_lt (Nat.mod_lt (8 * n) (by decide : 0 < 2 ^ 32))
  generalize (if (c0 + 8 * n % 2 ^ 32) % 2 ^ 32 < 8 * n % 2 ^ 32 then 1 else 0) = carry at *
  have total : (c1 + carry + n / 2 ^ 29) * 2 ^ 32 + (c0 + 8 * n % 2 ^ 32) % 2 ^ 32 = c1 * 2 ^ 32 + c0 + 8 * n := by
    calc (c1 + carry + n / 2 ^ 29) * 2 ^ 32 + (c0 + 8 * n % 2 ^ 32) % 2 ^ 32
      _ = c1 * 2 ^ 32 + (carry * 2 ^ 32 + (c0 + 8 * n % 2 ^ 32) % 2 ^ 32) + n / 2 ^ 29 * 2 ^ 32 := by ring
      _ = c1 * 2 ^ 32 + (c0 + 8 * n % 2 ^ 32) + n / 2 ^ 29 * 2 ^ 32 := by rw [carried]
      _ = c1 * 2 ^ 32 + c0 + (n / 2 ^ 29 * 2 ^ 32 + 8 * n % 2 ^ 32) := by ring
      _ = c1 * 2 ^ 32 + c0 + 8 * n := by rw [← parts]
  rw [two_words _ (Nat.mod_lt _ (by decide)), total, count, Nat.mul_add, Nat.mod_add_mod]

theorem count_update {ctx : ShaCtx} {message data : List Byte} (represents : Represents ctx message)
    (fits : data.length < 2 ^ 32) :
    (update ctx data).1.count1.toNat * 2 ^ 32 + (update ctx data).1.count0.toNat =
      8 * (message ++ data).length % 2 ^ 64 := by
  have low : (BitVec.ofNat 32 data.length <<< 3).toNat = 8 * data.length % 2 ^ 32 := by
    rw [BitVec.toNat_shiftLeft, BitVec.toNat_ofNat, Nat.mod_eq_of_lt fits, Nat.shiftLeft_eq, Nat.mul_comm]
  have high : (BitVec.ofNat 32 data.length >>> 29).toNat = data.length / 2 ^ 29 := by
    rw [BitVec.toNat_ushiftRight, BitVec.toNat_ofNat, Nat.mod_eq_of_lt fits, Nat.shiftRight_eq_div_pow]
  have word0 : (update ctx data).1.count0.toNat = (ctx.count0.toNat + 8 * data.length % 2 ^ 32) % 2 ^ 32 := by
    rw [count0_update, BitVec.toNat_add, low]
  have word1 : (update ctx data).1.count1.toNat = (ctx.count1.toNat +
      (if (ctx.count0.toNat + 8 * data.length % 2 ^ 32) % 2 ^ 32 < 8 * data.length % 2 ^ 32 then 1 else 0) +
        data.length / 2 ^ 29) % 2 ^ 32 := by
    have sum : (update ctx data).1.count1 =
        (if ctx.count0 + BitVec.ofNat 32 data.length <<< 3 < BitVec.ofNat 32 data.length <<< 3 then ctx.count1 + 1
          else ctx.count1) + BitVec.ofNat 32 data.length >>> 29 := by
      dsimp only [update]
      split <;> rfl
    have one : (1 : Word).toNat = 1 := rfl
    rw [sum, BitVec.toNat_add, high]
    simp only [BitVec.lt_def, BitVec.toNat_add, low]
    split
    · rw [BitVec.toNat_add, one, Nat.mod_add_mod]
    · rfl
  rw [word0, word1, List.length_append]
  exact carried_count ctx.count0.isLt represents.count

/-! ### The bytes -/

theorem represents_update {ctx : ShaCtx} {message data : List Byte} (represents : Represents ctx message)
    (fits : data.length + 64 ≤ 2 ^ 32) : Represents (update ctx data).1 (message ++ data) := by
  have count := count_update represents (by omega : data.length < 2 ^ 32)
  have length := represents.length
  have small : message.length % 64 < 64 := Nat.mod_lt _ (by decide)
  have waits : (ctx.buffer.take (message.length % 64)).length = message.length % 64 :=
    List.length_take_of_le (by omega)
  have both : absorbed (message ++ data) = BlockStream.absorb 64 Standard.compress
      (five ctx.state, ctx.buffer.take (message.length % 64)) data := by
    rw [represents.state, represents.waiting]
    exact BlockStream.absorb_append message data
  by_cases short : message.length % 64 + data.length < 64
  · have after : (update ctx data).1.state = ctx.state ∧
        (update ctx data).1.buffer = overwrite ctx.buffer (message.length % 64) data := by
      dsimp only [update]
      rw [represents.place, if_neg (by omega)]
      exact ⟨rfl, rfl⟩
    have place : (message ++ data).length % 64 = message.length % 64 + data.length := by
      rw [List.length_append]
      omega
    rw [BlockStream.absorb_short (by rwa [waits])] at both
    constructor
    · rw [after.1, both]
    · rw [after.2, both, place, take_overwrite (by omega)]
    · rw [after.2, length_overwrite (by omega), length]
    · exact count
  · have filled : overwrite ctx.buffer (message.length % 64) (data.take (64 - message.length % 64)) =
        ctx.buffer.take (message.length % 64) ++ data.take (64 - message.length % 64) := by
      rw [overwrite, List.drop_eq_nil_of_le, List.append_nil]
      rw [List.length_take, length]
      omega
    let first := transform ctx.state
      (ctx.buffer.take (message.length % 64) ++ data.take (64 - message.length % 64))
    let loop := wholeBlocks first.1 (data.drop (64 - message.length % 64))
    have after : (update ctx data).1.state = loop.1 ∧ (update ctx data).1.buffer = overwrite first.2 0 loop.2.2 := by
      dsimp only [update]
      rw [represents.place, if_pos (by omega), filled]
      exact ⟨rfl, rfl⟩
    obtain ⟨loops, short⟩ := absorb_wholeBlocks first.1 (data.drop (64 - message.length % 64))
    have taken : (data.take (64 - message.length % 64)).length = 64 - message.length % 64 :=
      List.length_take_of_le (by omega)
    have nonempty : data.take (64 - message.length % 64) ≠ [] := List.ne_nil_of_length_pos (by omega)
    have absorbs : absorbed (message ++ data) = (five loop.1, loop.2.2) := by
      rw [both, ← List.take_append_drop (64 - message.length % 64) data, BlockStream.absorb_append,
        BlockStream.absorb_full nonempty (by rw [waits, taken]; omega), ← transform_fst]
      exact loops
    have place : (message ++ data).length % 64 = 0 + loop.2.2.length := by
      rw [← length_absorbed, absorbs, Nat.zero_add]
    constructor
    · rw [after.1, absorbs]
    · rw [after.2, absorbs, place, take_overwrite (Nat.zero_le _), List.take_zero, List.nil_append]
    · rw [after.2, length_overwrite, length_transform]
      rw [length_transform]
      omega
    · exact count

/-- The context behind any pieces of a message. -/
theorem represents_pieces {ctx : ShaCtx} {message : List Byte} {pieces : List (List Byte)}
    (represents : Represents ctx message) (fits : ∀ piece ∈ pieces, piece.length + 64 ≤ 2 ^ 32) :
    Represents (pieces.foldl (fun ctx piece => (update ctx piece).1) ctx) (message ++ pieces.flatten) := by
  induction pieces generalizing ctx message with
  | nil => simpa using represents
  | cons piece pieces ih =>
      rw [List.forall_mem_cons] at fits
      have rest := ih (represents_update represents fits.1) fits.2
      rwa [List.append_assoc, ← List.flatten_cons] at rest

/-! ### The data -/

/-- Behind the bytes that fill the buffer, data of less than a block is left alone. -/
theorem update_snd {ctx : ShaCtx} {data : List Byte}
    (short : (ctx.count0 >>> 3 &&& 63).toNat + data.length < 128) : (update ctx data).2 = data := by
  have place : (ctx.count0 >>> 3 &&& 63).toNat < 64 := by
    rw [and_63]
    omega
  dsimp only [update]
  split
  · have few : ¬64 ≤ (data.drop (64 - (ctx.count0 >>> 3 &&& 63).toNat)).length := by
      rw [List.length_drop]
      omega
    rw [wholeBlocks, if_neg few, List.append_nil, List.take_append_drop]
  · rfl

/-! ## The digest -/

/-- A cast to a byte does not need the mask. -/
theorem setWidth_and_255 (word : Word) : (word &&& (255 : Word)).setWidth 8 = word.setWidth 8 := by
  apply BitVec.eq_of_getLsbD_eq
  intro i small
  interval_cases i <;> simp

theorem finalcount_eq {ctx : ShaCtx} {message : List Byte} (represents : Represents ctx message) :
    finalcount ctx = Standard.bytes 8 (BitVec.ofNat 64 (8 * message.length)) := by
  have count := represents.count
  have bound0 := ctx.count0.isLt
  refine List.map_congr_left fun i member => ?_
  have small : i < 8 := List.mem_range.mp member
  rw [setWidth_and_255]
  apply BitVec.eq_of_toNat_eq
  rw [BitVec.toNat_setWidth, BitVec.toNat_setWidth, BitVec.toNat_ushiftRight, BitVec.toNat_ushiftRight,
    BitVec.toNat_ofNat, ← count, Nat.shiftRight_eq_div_pow, Nat.shiftRight_eq_div_pow]
  clear count
  interval_cases i <;> simp <;> omega

theorem length_mod_of_count {ctx : ShaCtx} {message : List Byte} (represents : Represents ctx message) :
    ctx.count0 &&& 504 = 448 ↔ message.length % 64 = 56 := by
  have masked : (ctx.count0 &&& 504).toNat = message.length % 64 * 8 := by
    rw [and_504, ← and_63, represents.place]
  constructor
  · intro same
    rw [same] at masked
    change 448 = _ at masked
    omega
  · intro same
    apply BitVec.eq_of_toNat_eq
    rw [masked, same]
    rfl

theorem padZeros_represents {ctx : ShaCtx} {message : List Byte} (represents : Represents ctx message) :
    Represents (padZeros ctx) (message ++ List.replicate ((120 - message.length % 64) % 64) 0) := by
  fun_induction padZeros ctx generalizing message with
  | case1 ctx unfinished ih =>
      have open' : message.length % 64 ≠ 56 := fun finished => unfinished ((length_mod_of_count represents).mpr finished)
      have rest := ih (represents_update represents (by decide))
      have one : (120 - message.length % 64) % 64 = (120 - (message ++ [(0 : Byte)]).length % 64) % 64 + 1 := by
        rw [List.length_append, List.length_singleton]
        omega
      rwa [List.append_assoc, List.singleton_append, ← List.replicate_succ, ← one] at rest
  | case2 ctx finished =>
      rw [(length_mod_of_count represents).mp (not_not.mp finished)]
      simpa using represents

theorem output_eq (state : Vector Word 5) :
    ((List.range 20).map fun i => (state.get (register (i / 4)) >>> ((3 - i % 4) * 8) &&& 255).setWidth 8) =
      Standard.output (five state) := by
  simp only [setWidth_and_255]
  rfl

theorem length_pad (message : List Byte) : 64 ∣ (Standard.pad message).length := by
  have whole : ∀ n, 64 ∣ n + 1 + (119 - n % 64) % 64 + 8 := fun n => by omega
  have length : (Standard.pad message).length = message.length + 1 + (119 - message.length % 64) % 64 + 8 := by
    simp only [Standard.pad, Standard.bytes, List.length_append, List.length_singleton, List.length_replicate,
      List.length_map, List.length_range]
  rw [length]
  exact whole _

/-- The digest is the hash of the message. -/
theorem final_digest {ctx : ShaCtx} {message : List Byte} (represents : Represents ctx message) :
    (final ctx).1 = Standard.sha1 message := by
  have marked := represents_update represents (by decide : [(0x80 : Byte)].length + 64 ≤ 2 ^ 32)
  have padded := padZeros_represents marked
  have zeros : (120 - (message ++ [(0x80 : Byte)]).length % 64) % 64 = (119 - message.length % 64) % 64 := by
    rw [List.length_append, List.length_singleton]
    omega
  have eight : (finalcount ctx).length + 64 ≤ 2 ^ 32 := by
    rw [finalcount, List.length_map, List.length_range]
    decide
  have counted := represents_update padded eight
  rw [finalcount_eq represents, zeros] at counted
  have whole : BlockStream.absorb 64 Standard.compress (Standard.initial, []) (Standard.pad message) = _ :=
    BlockStream.absorb_blocks (by decide) Standard.initial (length_pad message)
  have state : five _ = (absorbed (Standard.pad message)).1 := counted.state
  have hash : (absorbed (Standard.pad message)).1 =
      (BlockStream.blocks 64 (Standard.pad message)).foldl Standard.compress Standard.initial := by rw [absorbed, whole]
  rw [Standard.sha1, ← hash, ← state, ← output_eq, final, finalcount_eq represents]

/-- The digest of a message in pieces. -/
theorem sha1_pieces (ctx : ShaCtx) (length : ctx.buffer.length = 64) {pieces : List (List Byte)}
    (fits : ∀ piece ∈ pieces, piece.length + 64 ≤ 2 ^ 32) :
    (final (pieces.foldl (fun ctx piece => (update ctx piece).1) (init ctx))).1 = Standard.sha1 pieces.flatten :=
  final_digest (represents_pieces (represents_init ctx length) fits)

theorem sha1_pieces_abc :
    (final ([[0x61], [], [0x62, 0x63]].foldl (fun ctx piece => (update ctx piece).1)
        (init ⟨#v[0, 0, 0, 0, 0], 0, 0, List.replicate 64 0⟩))).1 = Standard.sha1 [0x61, 0x62, 0x63] :=
  sha1_pieces ⟨#v[0, 0, 0, 0, 0], 0, 0, List.replicate 64 0⟩ List.length_replicate (by decide)

end XWrt.HmacSha1
