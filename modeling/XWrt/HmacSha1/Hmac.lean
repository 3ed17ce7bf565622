import XWrt.HmacSha1.Stream

/-!
# HMAC-SHA1

`hmac_sha1.c` and the program `hmac_sha1_main.c`. A key comes in pieces and is
hashed from the piece on that makes it longer than a block. A context that has
its key authenticates any number of messages, each in any pieces.
-/

namespace XWrt.HmacSha1

/-! ## The standard -/

namespace Standard

/-- The key as a block. -/
def keyBlock (key : List Byte) : List Byte :=
  let key := if key.length ≤ 64 then key else sha1 key
  key ++ List.replicate (64 - key.length) 0

def xorPad (filler : Byte) (block : List Byte) : List Byte := block.map (filler ^^^ ·)

/-- `SHA1(K XOR opad, SHA1(K XOR ipad, message))` -/
def hmac (key message : List Byte) : List Byte :=
  sha1 (xorPad 0x5c (keyBlock key) ++ sha1 (xorPad 0x36 (keyBlock key) ++ message))

end Standard

/-! ## The program -/

/-- `HMAC_SHA1_CTX` -/
structure HmacCtx where
  ipad : List Byte
  opad : List Byte
  shactx : ShaCtx
  key : List Byte
  keylen : ℕ
  hashkey : Bool

/-- `HMAC_SHA1_Init` -/
def hmacInit (ctx : HmacCtx) : HmacCtx :=
  { ctx with
    key := List.replicate 64 0
    ipad := List.replicate 64 0x36
    opad := List.replicate 64 0x5c
    keylen := 0
    hashkey := false }

/-- The start of the hash of a key, with the key data so far. -/
def startKeyHash (ctx : HmacCtx) : HmacCtx :=
  let shactx := init ctx.shactx
  if 0 < ctx.keylen then
    let (shactx, data) := update shactx (ctx.key.take ctx.keylen)
    { ctx with hashkey := true, shactx := shactx, key := overwrite ctx.key 0 data, keylen := 20 }
  else { ctx with hashkey := true, shactx := shactx, keylen := 20 }

/-- `HMAC_SHA1_UpdateKey`: the context, and the key data as the call leaves it. -/
def updateKey (ctx : HmacCtx) (key : List Byte) : HmacCtx × List Byte :=
  if key.length < 1 then (ctx, key)
  else if ctx.hashkey || 64 < (key.length + ctx.keylen) % 2 ^ 32 then
    let ctx := if ctx.hashkey then ctx else startKeyHash ctx
    let (shactx, data) := update ctx.shactx key
    ({ ctx with shactx := shactx }, data)
  else ({ ctx with key := overwrite ctx.key ctx.keylen key, keylen := ctx.keylen + key.length }, key)

/-- The loop of `HMAC_SHA1_EndKey` on one of the pads. -/
def xorKey (pad key : List Byte) (keylen : ℕ) : List Byte :=
  (pad.take keylen).zipWith (· ^^^ ·) (key.take keylen) ++ pad.drop keylen

/-- `HMAC_SHA1_EndKey` -/
def endKey (ctx : HmacCtx) : HmacCtx :=
  let ctx :=
    if ctx.hashkey then
      let finished := final ctx.shactx
      { ctx with key := overwrite (List.replicate 64 0) 0 finished.1, shactx := finished.2 }
    else ctx
  let key :=
    if ctx.keylen < 64 then overwrite ctx.key ctx.keylen (List.replicate (64 - ctx.keylen) 0) else ctx.key
  { ctx with key := key, ipad := xorKey ctx.ipad key ctx.keylen, opad := xorKey ctx.opad key ctx.keylen }

/-- `HMAC_SHA1_StartMessage` -/
def startMessage (ctx : HmacCtx) : HmacCtx :=
  let (shactx, ipad) := update (init ctx.shactx) ctx.ipad
  { ctx with shactx := shactx, ipad := ipad }

/-- `HMAC_SHA1_UpdateMessage`: the context, and the data as the call leaves it. -/
def updateMessage (ctx : HmacCtx) (data : List Byte) : HmacCtx × List Byte :=
  let (shactx, data) := update ctx.shactx data
  ({ ctx with shactx := shactx }, data)

/-- `HMAC_SHA1_EndMessage`: the bytes for `out`, and the context. -/
def endMessage (ctx : HmacCtx) : List Byte × HmacCtx :=
  let (buf, c) := final ctx.shactx
  let (c, opad) := update (init c) ctx.opad
  let (c, _) := update c buf
  let (out, c) := final c
  (out, { ctx with shactx := c, opad := opad })

/-- One message in pieces. -/
def authenticate (ctx : HmacCtx) (pieces : List (List Byte)) : List Byte × HmacCtx :=
  endMessage (pieces.foldl (fun ctx piece => (updateMessage ctx piece).1) (startMessage ctx))

/-- One message after the other with the same key. -/
def authenticateAll (ctx : HmacCtx) : List (List (List Byte)) → List (List Byte)
  | [] => []
  | pieces :: messages =>
      let (out, ctx) := authenticate ctx pieces
      out :: authenticateAll ctx messages

/-- `main`, on the arguments behind the name of the program and on what every `fread`
gives: the bytes for the standard output. -/
def main (ctx : HmacCtx) (args : List (List Byte)) (reads : List (List Byte)) : Option (List Byte) :=
  match args with
  | [key] => some (authenticate (endKey (updateKey (hmacInit ctx) key).1) reads).1
  | _ => none

/-! ## The key -/

/-- The context between `HMAC_SHA1_Init` and `HMAC_SHA1_EndKey`, with the key so far. -/
structure Keying (ctx : HmacCtx) (key : List Byte) : Prop where
  ipad : ctx.ipad = List.replicate 64 0x36
  opad : ctx.opad = List.replicate 64 0x5c
  length : ctx.key.length = 64
  buffer : ctx.shactx.buffer.length = 64
  phase : (ctx.hashkey = false ∧ key.length ≤ 64 ∧ ctx.keylen = key.length ∧ ctx.key.take key.length = key) ∨
    (ctx.hashkey = true ∧ 64 < key.length ∧ ctx.keylen = 20 ∧ Represents ctx.shactx key)

/-- The context behind `HMAC_SHA1_EndKey`. -/
structure Keyed (ctx : HmacCtx) (key : List Byte) : Prop where
  ipad : ctx.ipad = Standard.xorPad 0x36 (Standard.keyBlock key)
  opad : ctx.opad = Standard.xorPad 0x5c (Standard.keyBlock key)
  buffer : ctx.shactx.buffer.length = 64

theorem length_sha1 (message : List Byte) : (Standard.sha1 message).length = 20 := by
  rw [Standard.sha1, Standard.output, List.length_flatMap]
  rfl

theorem length_keyBlock (key : List Byte) : (Standard.keyBlock key).length = 64 := by
  rw [Standard.keyBlock]
  split
  · rw [List.length_append, List.length_replicate]
    omega
  · rw [List.length_append, List.length_replicate, length_sha1]

theorem update_init_snd (ctx : ShaCtx) {data : List Byte} (short : data.length < 128) :
    (update (init ctx) data).2 = data := by
  have place : ((init ctx).count0 >>> 3 &&& 63).toNat = 0 := by
    change ((0 : Word) >>> 3 &&& 63).toNat = 0
    decide
  refine update_snd ?_
  omega

theorem keying_hmacInit (ctx : HmacCtx) (buffer : ctx.shactx.buffer.length = 64) : Keying (hmacInit ctx) [] :=
  ⟨rfl, rfl, rfl, buffer, .inl ⟨rfl, Nat.zero_le 64, rfl, rfl⟩⟩

/-- The hash of the key begins with the data so far. -/
theorem startKeyHash_represents {ctx : HmacCtx} {key : List Byte} (keying : Keying ctx key) (short : key.length ≤ 64)
    (keylen : ctx.keylen = key.length) (held : ctx.key.take key.length = key) :
    Represents (startKeyHash ctx).shactx key ∧ (startKeyHash ctx).key.length = 64 := by
  have fresh := represents_init ctx.shactx keying.buffer
  rw [startKeyHash, keylen, held]
  split
  · refine ⟨represents_update fresh (by omega), ?_⟩
    change (overwrite ctx.key 0 (update (init ctx.shactx) key).2).length = 64
    rw [update_init_snd _ (by omega), length_overwrite (by rw [keying.length]; omega), keying.length]
  next empty =>
    obtain rfl : key = [] := List.eq_nil_of_length_eq_zero (by omega)
    exact ⟨fresh, keying.length⟩

theorem startKeyHash_keeps (ctx : HmacCtx) :
    (startKeyHash ctx).ipad = ctx.ipad ∧ (startKeyHash ctx).opad = ctx.opad ∧ (startKeyHash ctx).keylen = 20 ∧
      (startKeyHash ctx).hashkey = true := by
  rw [startKeyHash]
  split <;> exact ⟨rfl, rfl, rfl, rfl⟩

theorem updateKey_keying {ctx : HmacCtx} {key piece : List Byte} (keying : Keying ctx key)
    (fits : piece.length + 64 < 2 ^ 32) : Keying (updateKey ctx piece).1 (key ++ piece) := by
  rw [updateKey]
  split
  next empty =>
    obtain rfl : piece = [] := List.eq_nil_of_length_eq_zero (by omega)
    rwa [List.append_nil]
  rcases keying.phase with ⟨plain, short, keylen, held⟩ | ⟨hashed, long, keylen, represents⟩
  · have sum : (piece.length + ctx.keylen) % 2 ^ 32 = (key ++ piece).length := by
      rw [keylen, List.length_append]
      omega
    rw [plain, sum]
    by_cases long : 64 < (key ++ piece).length
    · rw [if_pos (by simpa using long), if_neg Bool.false_ne_true]
      obtain ⟨represents, length⟩ := startKeyHash_represents keying short keylen held
      obtain ⟨ipad, opad, twenty, hashed⟩ := startKeyHash_keeps ctx
      have fed := represents_update represents (by omega : piece.length + 64 ≤ 2 ^ 32)
      exact ⟨ipad.trans keying.ipad, opad.trans keying.opad, length, fed.length, .inr ⟨hashed, long, twenty, fed⟩⟩
    · rw [if_neg (by simpa using long)]
      rw [List.length_append] at long
      have place : ctx.key.take ctx.keylen = key := keylen ▸ held
      refine ⟨keying.ipad, keying.opad, ?_, keying.buffer, .inl ⟨rfl, ?_, ?_, ?_⟩⟩
      · rw [length_overwrite (by rw [keying.length]; omega), keying.length]
      · rw [List.length_append]
        omega
      · rw [keylen, List.length_append]
      · change (overwrite ctx.key ctx.keylen piece).take _ = _
        rw [List.length_append, ← keylen, take_overwrite (by rw [keying.length]; omega), place]
  · rw [hashed, if_pos (by rw [Bool.true_or]), if_pos rfl]
    have fed := represents_update represents (by omega : piece.length + 64 ≤ 2 ^ 32)
    refine ⟨keying.ipad, keying.opad, keying.length, fed.length, .inr ⟨hashed, ?_, keylen, fed⟩⟩
    rw [List.length_append]
    omega

theorem updateKey_pieces {ctx : HmacCtx} {key : List Byte} {pieces : List (List Byte)} (keying : Keying ctx key)
    (fits : ∀ piece ∈ pieces, piece.length + 64 < 2 ^ 32) :
    Keying (pieces.foldl (fun ctx piece => (updateKey ctx piece).1) ctx) (key ++ pieces.flatten) := by
  induction pieces generalizing ctx key with
  | nil => simpa using keying
  | cons piece pieces ih =>
      rw [List.forall_mem_cons] at fits
      have rest := ih (updateKey_keying keying fits.1) fits.2
      rwa [List.append_assoc, ← List.flatten_cons] at rest

/-- The loop reaches all of the key; the zeros behind it leave the filler. -/
theorem xorKey_eq (filler : Byte) {memory key : List Byte} (short : key.length ≤ 64)
    (held : memory.take key.length = key) :
    xorKey (List.replicate 64 filler) memory key.length =
      Standard.xorPad filler (key ++ List.replicate (64 - key.length) 0) := by
  have zipped : ∀ key : List Byte, (List.replicate key.length filler).zipWith (· ^^^ ·) key = key.map (filler ^^^ ·) := by
    intro key
    induction key with
    | nil => rfl
    | cons byte key ih => rw [List.length_cons, List.replicate_succ, List.zipWith_cons_cons, ih, List.map_cons]
  have zero : filler ^^^ 0 = filler := BitVec.xor_zero
  rw [xorKey, held, List.take_replicate, List.drop_replicate, Nat.min_eq_left short, zipped, Standard.xorPad,
    List.map_append, List.map_replicate, zero]

/-- The key behind the padding of `HMAC_SHA1_EndKey`. -/
theorem take_padded {memory key : List Byte} (held : memory.take key.length = key) :
    (if key.length < 64 then overwrite memory key.length (List.replicate (64 - key.length) 0) else memory).take
      key.length = key := by
  split
  · rw [overwrite, held, List.append_assoc, List.take_left]
  · exact held

theorem endKey_keyed {ctx : HmacCtx} {key : List Byte} (keying : Keying ctx key) : Keyed (endKey ctx) key := by
  rcases keying.phase with ⟨plain, short, keylen, held⟩ | ⟨hashed, long, keylen, represents⟩
  · have padded := take_padded held
    rw [endKey, plain, if_neg Bool.false_ne_true, keylen]
    refine ⟨?_, ?_, keying.buffer⟩
    · rw [keying.ipad, xorKey_eq _ short padded, Standard.keyBlock, if_pos short]
    · rw [keying.opad, xorKey_eq _ short padded, Standard.keyBlock, if_pos short]
  · have digest : (final ctx.shactx).1 = Standard.sha1 key := final_digest represents
    have twenty := length_sha1 key
    have held : (overwrite (List.replicate 64 0) 0 (Standard.sha1 key)).take (Standard.sha1 key).length =
        Standard.sha1 key := by
      rw [overwrite, List.take_zero, List.nil_append, List.take_left]
    have padded := take_padded held
    have short : (Standard.sha1 key).length ≤ 64 := by omega
    dsimp only [endKey]
    rw [hashed, if_pos rfl, digest, keylen, ← twenty]
    refine ⟨?_, ?_, rfl⟩
    · rw [keying.ipad, xorKey_eq _ short padded, Standard.keyBlock, if_neg (Nat.not_le_of_lt long)]
    · rw [keying.opad, xorKey_eq _ short padded, Standard.keyBlock, if_neg (Nat.not_le_of_lt long)]

/-! ## The messages -/

theorem foldl_updateMessage (pieces : List (List Byte)) (ctx : HmacCtx) :
    pieces.foldl (fun ctx piece => (updateMessage ctx piece).1) ctx =
      { ctx with shactx := pieces.foldl (fun ctx piece => (update ctx piece).1) ctx.shactx } := by
  induction pieces generalizing ctx with
  | nil => rfl
  | cons piece pieces ih => rw [List.foldl_cons, ih, List.foldl_cons, updateMessage]

theorem endMessage_hash {ctx : HmacCtx} {inner : List Byte} (represents : Represents ctx.shactx inner)
    (outer : ctx.opad.length = 64) :
    (endMessage ctx).1 = Standard.sha1 (ctx.opad ++ Standard.sha1 inner) ∧ (endMessage ctx).2.ipad = ctx.ipad ∧
      (endMessage ctx).2.opad = ctx.opad ∧ (endMessage ctx).2.shactx.buffer.length = 64 := by
  have digest := final_digest represents
  have blank : Represents (init (final ctx.shactx).2) [] := represents_init _ List.length_replicate
  have first := represents_update blank (by omega : ctx.opad.length + 64 ≤ 2 ^ 32)
  have short : (Standard.sha1 inner).length + 64 ≤ 2 ^ 32 := by rw [length_sha1]; decide
  have second := represents_update first short
  rw [List.nil_append] at second
  dsimp only [endMessage]
  rw [digest, final_digest second, update_init_snd _ (by omega)]
  exact ⟨rfl, rfl, rfl, List.length_replicate⟩

/-- A message leaves the key in the context. -/
theorem authenticate_keyed {ctx : HmacCtx} {key : List Byte} {pieces : List (List Byte)} (keyed : Keyed ctx key)
    (fits : ∀ piece ∈ pieces, piece.length + 64 ≤ 2 ^ 32) :
    (authenticate ctx pieces).1 = Standard.hmac key pieces.flatten ∧ Keyed (authenticate ctx pieces).2 key := by
  have inner : ctx.ipad.length = 64 := by rw [keyed.ipad, Standard.xorPad, List.length_map, length_keyBlock]
  have outer : ctx.opad.length = 64 := by rw [keyed.opad, Standard.xorPad, List.length_map, length_keyBlock]
  have started := represents_update (represents_init ctx.shactx keyed.buffer) (by omega : ctx.ipad.length + 64 ≤ 2 ^ 32)
  have fed := represents_pieces started fits
  rw [List.nil_append] at fed
  have left := update_init_snd ctx.shactx (by omega : ctx.ipad.length < 128)
  rw [authenticate, foldl_updateMessage, startMessage]
  dsimp only
  rw [left]
  obtain ⟨out, ipad, opad, buffer⟩ := @endMessage_hash { ctx with
    shactx := pieces.foldl (fun ctx piece => (update ctx piece).1) (update (init ctx.shactx) ctx.ipad).1 } _ fed outer
  refine ⟨?_, ipad.trans keyed.ipad, opad.trans keyed.opad, buffer⟩
  rw [Standard.hmac, ← keyed.ipad, ← keyed.opad]
  exact out

theorem authenticateAll_keyed {ctx : HmacCtx} {key : List Byte} {messages : List (List (List Byte))}
    (keyed : Keyed ctx key) (fits : ∀ pieces ∈ messages, ∀ piece ∈ pieces, piece.length + 64 ≤ 2 ^ 32) :
    authenticateAll ctx messages = messages.map fun pieces => Standard.hmac key pieces.flatten := by
  induction messages generalizing ctx with
  | nil => rfl
  | cons pieces messages ih =>
      rw [List.forall_mem_cons] at fits
      obtain ⟨out, after⟩ := authenticate_keyed keyed fits.1
      rw [authenticateAll, List.map_cons, ← out, ← ih after fits.2]

/-- A key in pieces, and then messages in pieces. -/
theorem hmac_pieces (ctx : HmacCtx) (buffer : ctx.shactx.buffer.length = 64) {key : List (List Byte)}
    {messages : List (List (List Byte))} (keyFits : ∀ piece ∈ key, piece.length + 64 < 2 ^ 32)
    (fits : ∀ pieces ∈ messages, ∀ piece ∈ pieces, piece.length + 64 ≤ 2 ^ 32) :
    authenticateAll (endKey (key.foldl (fun ctx piece => (updateKey ctx piece).1) (hmacInit ctx))) messages =
      messages.map fun pieces => Standard.hmac key.flatten pieces.flatten :=
  authenticateAll_keyed (endKey_keyed (updateKey_pieces (keying_hmacInit ctx buffer) keyFits)) fits

def clearMemory : HmacCtx where
  ipad := List.replicate 64 0
  opad := List.replicate 64 0
  shactx := ⟨Vector.replicate 5 0, 0, 0, List.replicate 64 0⟩
  key := List.replicate 64 0
  keylen := 0
  hashkey := false

/-- A key of two pieces that is hashed, and two messages. -/
theorem hmac_pieces_long_key :
    authenticateAll (endKey ([List.replicate 60 0x61, List.replicate 10 0x62].foldl
        (fun ctx piece => (updateKey ctx piece).1) (hmacInit clearMemory))) [[[1], [2, 3]], []] =
      [Standard.hmac (List.replicate 60 0x61 ++ List.replicate 10 0x62) [1, 2, 3],
        Standard.hmac (List.replicate 60 0x61 ++ List.replicate 10 0x62) []] :=
  hmac_pieces clearMemory List.length_replicate (by decide) (by decide)

/-- What the program prints. -/
theorem main_prints (ctx : HmacCtx) (buffer : ctx.shactx.buffer.length = 64) {key : List Byte} {reads : List (List Byte)}
    (keyFits : key.length + 64 < 2 ^ 32) (sizes : ∀ read ∈ reads, read.length ≤ 2048) :
    main ctx [key] reads = some (Standard.hmac key reads.flatten) := by
  have keying := updateKey_keying (keying_hmacInit ctx buffer) keyFits
  have fits : ∀ read ∈ reads, read.length + 64 ≤ 2 ^ 32 := fun read member => by
    have size := sizes read member
    omega
  exact congrArg some (authenticate_keyed (endKey_keyed keying) fits).1

end XWrt.HmacSha1
