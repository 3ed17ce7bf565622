import XWrt.Foundation.Numerals
import XWrt.Foundation.Text

/-!
# Binary user records

`parse_binary` of `natflow-userinfo.lua` on the 102 bytes the kernel writes for
one user. Its counters are too large for a Lua number, so their decimal text is
computed in chunks of six digits. Every record of the kernel's layout, in either
byte order, is read back.
-/

namespace XWrt.Natflow

open XWrt.Foundation
open XWrt.Foundation.Numerals

namespace UserRecord

def eventVersion : Nat := 3
def eventSize : Nat := 102
def afInet : Nat := 2
def afInet6 : Nat := 10

/-! ## Reading numbers -/

/-- `data:byte(pos, pos + count - 1)` -/
def bytes (data : List UInt8) (pos count : Nat) : List Nat := ((data.drop (pos - 1)).take count).map UInt8.toNat

/-- `read_u16` -/
def readU16 (data : List UInt8) (pos : Nat) (le : Bool) : Option Nat :=
  match bytes data pos 2 with
  | [a, b] => if le then some (a + b * 256) else some (a * 256 + b)
  | _ => none

/-- `read_u32` -/
def readU32 (data : List UInt8) (pos : Nat) (le : Bool) : Option Nat :=
  match bytes data pos 4 with
  | [a, b, c, d] =>
      if le then some (a + b * 256 + c * 65536 + d * 16777216) else some (a * 16777216 + b * 65536 + c * 256 + d)
  | _ => none

def base : Nat := 1000000

/-- The loop that appends what is carried out of the last chunk. -/
def carryChunks (carry : Nat) : List Nat :=
  if 0 < carry then carry % base :: carryChunks (carry / base) else []
termination_by carry
decreasing_by exact Nat.div_lt_self ‹_› (by decide)

/-- One more byte: the loop over the chunks, lowest first. -/
def addByte : List Nat → Nat → List Nat
  | [], carry => carryChunks carry
  | chunk :: rest, carry =>
      let value := chunk * 256 + carry
      value % base :: addByte rest (value / base)

/-- `string.format("%06d", chunk)` -/
def sixDigits (chunk : Nat) : List Char := (Nat.toDigits 10 chunk).leftpad 6 '0'

/-- The text of the chunks, from the last one down. -/
def chunksText (chunks : List Nat) : List Char :=
  chunks.dropLast.reverse.foldl (fun out chunk => out ++ sixDigits chunk) (Nat.toDigits 10 (chunks.getLastD 0))

/-- `read_u64_decimal` -/
def readU64Decimal (data : List UInt8) (pos : Nat) (le : Bool) : Option String := do
  let chunks ← [1, 2, 3, 4, 5, 6, 7, 8].foldlM (fun chunks i => do
    let idx := if le then pos + 8 - i else pos + i - 1
    let byte ← (bytes data idx 1).head?
    pure (addByte chunks byte)) [0]
  pure (String.ofList (chunksText chunks))

example : readU64Decimal (List.replicate 8 255) 1 true = some "18446744073709551615" := by decide +kernel

/-! ## Reading addresses -/

/-- `format_ipv4` -/
def formatIpv4 (data : List UInt8) (pos : Nat) : Option String :=
  match bytes data pos 4 with
  | [a, b, c, d] => some (toString a ++ "." ++ toString b ++ "." ++ toString c ++ "." ++ toString d)
  | _ => none

/-- `string.format("%x", group)` -/
def hexText (group : Nat) : String := String.ofList (Nat.toDigits 16 group)

/-- `format_ipv6` -/
def formatIpv6 (data : List UInt8) (pos : Nat) : Option String := do
  let groups ← (List.range 8).mapM fun i =>
    match bytes data (pos + i * 2) 2 with
    | [hi, lo] => some (hexText (hi * 256 + lo))
    | _ => none
  pure (":".intercalate groups)

/-- `string.format("%02X", byte)` -/
def hexByte (byte : Nat) : String := String.ofList (((Nat.toDigits 16 byte).map Char.toUpper).leftpad 2 '0')

/-- `format_mac` -/
def formatMac (data : List UInt8) (pos : Nat) : Option String :=
  match bytes data pos 6 with
  | [a, b, c, d, e, f] => some (":".intercalate ([a, b, c, d, e, f].map hexByte))
  | _ => none

/-! ## Records -/

inductive Family where
  | ipv4
  | ipv6
  deriving DecidableEq, Repr

/-- `event_family` on the number in a record. -/
def eventFamily (ip : String) (family : Option Nat) : Family :=
  if family = some afInet then .ipv4
  else if family = some afInet6 then .ipv6
  else if ':' ∈ ip.toList then .ipv6 else .ipv4

structure Event where
  version : Nat
  family : Family
  ipaddr : String
  macaddr : String
  idleTime : Nat
  authType : Nat
  authStatus : Nat
  authRuleId : Nat
  rxPackets : String
  rxBytes : String
  txPackets : String
  txBytes : String
  rxSpeedPackets : Nat
  rxSpeedBytes : Nat
  txSpeedPackets : Nat
  txSpeedBytes : Nat
  ifname : List UInt8
  deriving DecidableEq, Repr

/-- The address of a record, formatted by its family. -/
def formatAddress (record : List UInt8) (family : Option Nat) : Except String (Option String) :=
  if family = some afInet then .ok (formatIpv4 record 13)
  else if family = some afInet6 then .ok (formatIpv6 record 13)
  else .error "unsupported address family"

/-- `parse_binary` once the byte order is known. -/
def parseFields (record : List UInt8) (le : Bool) : Except String Event := do
  let version := readU16 record 1 le
  let headerLen := readU16 record 3 le
  let recordLen := readU16 record 5 le
  if version ≠ some eventVersion ∨ headerLen ≠ some eventSize ∨ recordLen ≠ some eventSize then
    throw "unsupported event layout"
  let family := readU16 record 7 le
  let ipaddr ← formatAddress record family
  match ipaddr, formatMac record 29 with
  | some ipaddr, some macaddr =>
      pure {
        version := version.getD 0
        family := eventFamily ipaddr family
        ipaddr
        macaddr
        idleTime := (readU32 record 9 le).getD 0
        authType := (bytes record 35 1).headD 0
        authStatus := (bytes record 36 1).headD 0
        authRuleId := (readU16 record 37 le).getD 0
        rxPackets := (readU64Decimal record 39 le).getD "0"
        rxBytes := (readU64Decimal record 47 le).getD "0"
        txPackets := (readU64Decimal record 55 le).getD "0"
        txBytes := (readU64Decimal record 63 le).getD "0"
        rxSpeedPackets := (readU32 record 71 le).getD 0
        rxSpeedBytes := (readU32 record 75 le).getD 0
        txSpeedPackets := (readU32 record 79 le).getD 0
        txSpeedBytes := (readU32 record 83 le).getD 0
        ifname := ((record.drop 86).take 16).takeWhile (· != 0) }
  | _, _ => throw "invalid address fields"

/-- `parse_binary` -/
def parseBinary (record : List UInt8) : Except String Event :=
  if record.length ≠ eventSize then .error "invalid record length"
  else if bytes record 1 2 = [eventVersion, 0] then parseFields record true
  else if bytes record 1 2 = [0, eventVersion] then parseFields record false
  else .error "unsupported event version"

/-! ## The kernel's layout -/

inductive Address where
  | v4 (a b c d : UInt8)
  | v6 (a b c d e f g h : UInt16)
  deriving DecidableEq

def Address.family : Address → Family
  | v4 .. => .ipv4
  | v6 .. => .ipv6

def Address.afNumber : Address → Nat
  | v4 .. => afInet
  | v6 .. => afInet6

/-- The decimal octets or the hexadecimal groups. -/
def Address.text : Address → String
  | v4 a b c d => ".".intercalate ([a, b, c, d].map fun octet => toString octet.toNat)
  | v6 a b c d e f g h => ":".intercalate ([a, b, c, d, e, f, g, h].map fun group => hexText group.toNat)

structure MacAddress where
  a : UInt8
  b : UInt8
  c : UInt8
  d : UInt8
  e : UInt8
  f : UInt8
  deriving DecidableEq

def MacAddress.bytes (mac : MacAddress) : List UInt8 := [mac.a, mac.b, mac.c, mac.d, mac.e, mac.f]

def MacAddress.text (mac : MacAddress) : String := ":".intercalate (mac.bytes.map fun byte => hexByte byte.toNat)

/-- The values of a record. -/
structure Values where
  address : Address
  mac : MacAddress
  idleTime : UInt32
  authType : UInt8
  authStatus : UInt8
  authRuleId : UInt16
  rxPackets : UInt64
  rxBytes : UInt64
  txPackets : UInt64
  txBytes : UInt64
  rxSpeedPackets : UInt32
  rxSpeedBytes : UInt32
  txSpeedPackets : UInt32
  txSpeedBytes : UInt32
  ifname : List UInt8
  ifnameFits : ifname.length ≤ 16
  ifnamePlain : ∀ byte ∈ ifname, byte ≠ 0

/-- The bytes of a record that belong to no value: after an IPv4 address and after the end of the name. -/
structure Filler where
  address : Vector UInt8 12
  name : Vector UInt8 15

/-- A number as `width` bytes. -/
def wordBytes (le : Bool) (width n : Nat) : List UInt8 :=
  let low := (List.range width).map fun i => UInt8.ofNat (n / 256 ^ i)
  if le then low else low.reverse

/-- Addresses are in network order whatever the byte order of the numbers. -/
def Address.bytes (filler : Filler) : Address → List UInt8
  | v4 a b c d => [a, b, c, d] ++ filler.address.toList
  | v6 a b c d e f g h => [a, b, c, d, e, f, g, h].flatMap fun group => wordBytes false 2 group.toNat

def Values.parts (values : Values) (le : Bool) (filler : Filler) : List (List UInt8) :=
  [wordBytes le 2 eventVersion, wordBytes le 2 eventSize, wordBytes le 2 eventSize,
    wordBytes le 2 values.address.afNumber, wordBytes le 4 values.idleTime.toNat, values.address.bytes filler,
    values.mac.bytes, [values.authType], [values.authStatus], wordBytes le 2 values.authRuleId.toNat,
    wordBytes le 8 values.rxPackets.toNat, wordBytes le 8 values.rxBytes.toNat, wordBytes le 8 values.txPackets.toNat,
    wordBytes le 8 values.txBytes.toNat, wordBytes le 4 values.rxSpeedPackets.toNat,
    wordBytes le 4 values.rxSpeedBytes.toNat, wordBytes le 4 values.txSpeedPackets.toNat,
    wordBytes le 4 values.txSpeedBytes.toNat, (values.ifname ++ 0 :: filler.name.toList).take 16]

/-- The record of some values. -/
def Values.encode (values : Values) (le : Bool) (filler : Filler) : List UInt8 := (values.parts le filler).flatten

/-- The event that stands for some values. -/
def Values.event (values : Values) : Event where
  version := eventVersion
  family := values.address.family
  ipaddr := values.address.text
  macaddr := values.mac.text
  idleTime := values.idleTime.toNat
  authType := values.authType.toNat
  authStatus := values.authStatus.toNat
  authRuleId := values.authRuleId.toNat
  rxPackets := toString values.rxPackets.toNat
  rxBytes := toString values.rxBytes.toNat
  txPackets := toString values.txPackets.toNat
  txBytes := toString values.txBytes.toNat
  rxSpeedPackets := values.rxSpeedPackets.toNat
  rxSpeedBytes := values.rxSpeedBytes.toNat
  txSpeedPackets := values.txSpeedPackets.toNat
  txSpeedBytes := values.txSpeedBytes.toNat
  ifname := values.ifname

/-! ## Counters -/

theorem carryChunks_eq (carry : Nat) : carryChunks carry = Nat.digits base carry := by
  induction carry using Nat.strong_induction_on with
  | _ carry ih =>
      rw [carryChunks]
      split
      next some => rw [ih _ (Nat.div_lt_self some (by decide)), Nat.digits_def' (by decide) some]
      next none => rw [Nat.eq_zero_of_not_pos none, Nat.digits_zero]

theorem addByte_eq (chunks : List Nat) (carry : Nat) : addByte chunks carry = mulAdd base 256 chunks carry := by
  induction chunks generalizing carry with
  | nil => exact carryChunks_eq carry
  | cons chunk rest ih => rw [addByte, mulAdd, ih]

/-- The chunks of a number; zero has one. -/
def chunksOf (n : Nat) : List Nat := if n = 0 then [0] else Nat.digits base n

theorem addByte_chunksOf (n : Nat) {byte : Nat} (small : byte < 256) : addByte (chunksOf n) byte = chunksOf (n * 256 + byte) := by
  unfold chunksOf
  rcases Nat.eq_zero_or_pos n with rfl | some
  · have fits : byte < base := small.trans (by decide)
    simp only [if_pos, addByte, Nat.zero_mul, Nat.zero_add, Nat.mod_eq_of_lt fits, Nat.div_eq_of_lt fits]
    rw [carryChunks_eq, Nat.digits_zero]
    split
    next none => rw [none]
    next positive => rw [Nat.digits_of_lt base byte positive fits]
  · rw [if_neg some.ne', if_neg (by omega), addByte_eq, mulAdd_digits (by decide) (by decide)]

theorem chunksText_cons {chunk : Nat} {rest : List Nat} (some : rest ≠ []) :
    chunksText (chunk :: rest) = chunksText rest ++ sixDigits chunk := by
  obtain ⟨next, others, rfl⟩ := List.exists_cons_of_ne_nil some
  simp [chunksText]

theorem chunksText_digits (n : Nat) (positive : 0 < n) : chunksText (Nat.digits base n) = Nat.toDigits 10 n := by
  induction n using Nat.strong_induction_on with
  | _ n ih =>
      have last : n % base < 10 ^ 6 := Nat.mod_lt n (by decide)
      rw [Nat.digits_def' (by decide) positive]
      rcases Nat.eq_zero_or_pos (n / base) with none | some
      · have single : n % base = n := Nat.mod_eq_of_lt (Nat.lt_of_div_eq_zero (by decide) none)
        rw [none, single, Nat.digits_zero]
        rfl
      · have split : n / base * 10 ^ 6 + n % base = n := Nat.div_add_mod' n base
        rw [chunksText_cons (Nat.digits_ne_nil_iff_ne_zero.mpr some.ne'), ih _ (Nat.div_lt_self positive (by decide)) some,
          sixDigits, leftpad_toDigits (by decide) 5 last, ← toDigits_append_fixedDigits (by decide) some 6 last, split]

theorem chunksText_chunksOf (n : Nat) : String.ofList (chunksText (chunksOf n)) = toString n := by
  have digits : chunksText (chunksOf n) = Nat.toDigits 10 n := by
    unfold chunksOf
    split
    next none => rw [none]; rfl
    next some => exact chunksText_digits n (Nat.pos_of_ne_zero some)
  rw [digits]
  exact Nat.repr_eq_ofList_toDigits.symm

/-! ## Numbers read back -/

/-- Bytes inside a longer piece. -/
theorem bytes_inner {data : List UInt8} {pos : Nat} (count start : Nat) {few : Nat} (positive : 0 < pos) (inside : start + few ≤ count) :
    bytes data (pos + start) few = ((bytes data pos count).drop start).take few := by
  have shifted : pos + start - 1 = pos - 1 + start := by omega
  rw [bytes, bytes, shifted, ← List.map_drop, ← List.map_take, List.drop_take, List.drop_drop, List.take_take,
    Nat.min_eq_left (by omega)]

theorem bytes_single {data : List UInt8} {pos : Nat} (count : Nat) {i : Nat} (positive : 0 < pos) (inside : i < count) :
    (bytes data (pos + i) 1).head? = (bytes data pos count)[i]? := by
  rw [bytes_inner count i positive inside, List.head?_take, List.head?_drop]
  simp

theorem readU16_wordBytes {data : List UInt8} {pos n : Nat} {le : Bool} (small : n < 2 ^ 16)
    (found : bytes data pos 2 = (wordBytes le 2 n).map UInt8.toNat) : readU16 data pos le = some n := by
  rw [readU16, found]
  cases le with
  | true =>
      simp [wordBytes, List.range, List.range.loop]
      omega
  | false =>
      simp [wordBytes, List.range, List.range.loop]
      omega

theorem readU32_wordBytes {data : List UInt8} {pos n : Nat} {le : Bool} (small : n < 2 ^ 32)
    (found : bytes data pos 4 = (wordBytes le 4 n).map UInt8.toNat) : readU32 data pos le = some n := by
  rw [readU32, found]
  cases le with
  | true =>
      simp [wordBytes, List.range, List.range.loop]
      omega
  | false =>
      simp [wordBytes, List.range, List.range.loop]
      omega

/-- The byte that the loop over a counter adds in round `i`, in either order. -/
theorem round_byte {data : List UInt8} {pos n : Nat} {le : Bool} (positive : 0 < pos)
    (found : bytes data pos 8 = (wordBytes le 8 n).map UInt8.toNat) {i : Nat} (first : 1 ≤ i) (last : i ≤ 8) :
    (bytes data (if le then pos + 8 - i else pos + i - 1) 1).head? = some (n / 256 ^ (8 - i) % 256) := by
  cases le with
  | true =>
      have start : pos + 8 - i = pos + (8 - i) := by omega
      rw [if_pos rfl, start, bytes_single 8 positive (by omega), found, wordBytes, if_pos rfl, List.map_map,
        List.getElem?_map, List.getElem?_range (by omega)]
      simp
  | false =>
      have start : pos + i - 1 = pos + (i - 1) := by omega
      have back : 8 - 1 - (i - 1) = 8 - i := by omega
      rw [if_neg Bool.false_ne_true, start, bytes_single 8 positive (by omega), found, wordBytes,
        if_neg Bool.false_ne_true, List.getElem?_map, List.getElem?_reverse (by simp; omega), List.length_map,
        List.length_range, back, List.getElem?_map, List.getElem?_range (by omega)]
      simp

/-- A counter is read as its decimal text. -/
theorem readU64Decimal_wordBytes {data : List UInt8} {pos n : Nat} {le : Bool} (positive : 0 < pos) (small : n < 2 ^ 64)
    (found : bytes data pos 8 = (wordBytes le 8 n).map UInt8.toNat) : readU64Decimal data pos le = some (toString n) := by
  -- After all but `k` rounds the chunks are those of the number without its last `k` bytes.
  have rounds : ∀ k ≤ 8, (List.range' (9 - k) k).foldlM (fun chunks i => do
      let idx := if le then pos + 8 - i else pos + i - 1
      let byte ← (bytes data idx 1).head?
      pure (addByte chunks byte)) (chunksOf (n / 256 ^ k)) = some (chunksOf n) := by
    intro k bound
    induction k with
    | zero => simp
    | succ k ih =>
        have start : 9 - (k + 1) = 8 - k := by omega
        have next : 8 - k + 1 = 9 - k := by omega
        have power : 8 - (8 - k) = k := by omega
        have digit : n / 256 ^ (k + 1) * 256 + n / 256 ^ k % 256 = n / 256 ^ k := by
          rw [Nat.pow_succ, ← Nat.div_div_eq_div_mul]
          exact Nat.div_add_mod' _ 256
        have byte := round_byte positive found (show 1 ≤ 8 - k by omega) (Nat.sub_le 8 k)
        rw [power] at byte
        rw [start, List.range'_succ, next, List.foldlM_cons]
        simp only [byte, Option.bind_eq_bind, Option.bind_some, Option.pure_def]
        rw [addByte_chunksOf _ (Nat.mod_lt _ (by decide)), digit]
        exact ih (by omega)
  have all := rounds 8 le_rfl
  rw [Nat.div_eq_of_lt (by simpa using small)] at all
  have loop : ([1, 2, 3, 4, 5, 6, 7, 8] : List Nat) = List.range' (9 - 8) 8 := rfl
  have start : [0] = chunksOf 0 := rfl
  rw [readU64Decimal, loop, start, all]
  exact congrArg some (chunksText_chunksOf n)

/-! ## The parts of a record -/

theorem length_wordBytes (le : Bool) (width n : Nat) : (wordBytes le width n).length = width := by
  cases le with
  | true => simp [wordBytes]
  | false => simp [wordBytes]

theorem Address.length_bytes (address : Address) (filler : Filler) : (address.bytes filler).length = 16 := by
  cases address with
  | v4 a b c d => simp [Address.bytes]
  | v6 a b c d e f g h => simp [Address.bytes, length_wordBytes]

/-- The lengths of the parts. -/
def partLengths : List Nat := [2, 2, 2, 2, 4, 16, 6, 1, 1, 2, 8, 8, 8, 8, 4, 4, 4, 4, 16]

theorem map_length_parts (values : Values) (le : Bool) (filler : Filler) :
    (values.parts le filler).map List.length = partLengths := by
  simp [Values.parts, length_wordBytes, Address.length_bytes, MacAddress.bytes, partLengths]

theorem length_encode (values : Values) (le : Bool) (filler : Filler) : (values.encode le filler).length = eventSize := by
  rw [Values.encode, List.length_flatten, map_length_parts]
  rfl

/-- Part `i` is found behind the parts before it. -/
theorem bytes_encode {values : Values} {le : Bool} {filler : Filler} {i pos count : Nat} {part : List UInt8}
    (here : (values.parts le filler)[i]? = some part) (position : (partLengths.take i).sum + 1 = pos)
    (length : part.length = count) : bytes (values.encode le filler) pos count = part.map UInt8.toNat := by
  have found := take_drop_flatten here
  rw [map_length_parts, length] at found
  rw [bytes, ← position, Nat.add_sub_cancel, Values.encode, found]

theorem formatIpv4_spec {data : List UInt8} {pos : Nat} {a b c d : UInt8}
    (found : bytes data pos 4 = [a.toNat, b.toNat, c.toNat, d.toNat]) : formatIpv4 data pos = some (Address.v4 a b c d).text := by
  rw [formatIpv4, found]
  rfl

/-- Pairs of bytes in network order are the groups of an address. -/
theorem formatIpv6_spec {data : List UInt8} {pos : Nat} {a b c d e f g h : UInt16} (positive : 0 < pos)
    (found : bytes data pos 16 = ([a, b, c, d, e, f, g, h].flatMap fun group => wordBytes false 2 group.toNat).map UInt8.toNat) :
    formatIpv6 data pos = some (Address.v6 a b c d e f g h).text := by
  have pair : ∀ (i : Nat) (group : UInt16), [a, b, c, d, e, f, g, h][i]? = some group →
      bytes data (pos + i * 2) 2 = [group.toNat / 256, group.toNat % 256] := by
    intro i group here
    have inside : i < 8 := (List.getElem?_eq_some_iff.mp here).1
    have part := take_drop_flatMap (fun group : UInt16 => length_wordBytes false 2 group.toNat) here
    have small := group.toNat_lt
    rw [bytes_inner 16 _ positive (by omega), found, ← List.map_drop, ← List.map_take, part]
    simp [wordBytes, List.range, List.range.loop]
    omega
  have whole : ∀ group : UInt16, group.toNat / 256 * 256 + group.toNat % 256 = group.toNat := fun group =>
    Nat.div_add_mod' _ 256
  have groups : (List.range 8).mapM (fun i =>
      match bytes data (pos + i * 2) 2 with
      | [hi, lo] => some (hexText (hi * 256 + lo))
      | _ => none) = some ([a, b, c, d, e, f, g, h].map fun group => hexText group.toNat) := by
    have indices : List.range 8 = [0, 1, 2, 3, 4, 5, 6, 7] := rfl
    simp only [indices, List.mapM_cons, List.mapM_nil, pair 0 a rfl, pair 1 b rfl, pair 2 c rfl, pair 3 d rfl,
      pair 4 e rfl, pair 5 f rfl, pair 6 g rfl, pair 7 h rfl, whole]
    rfl
  rw [formatIpv6, groups]
  rfl

theorem formatAddress_spec {data : List UInt8} {address : Address} {filler : Filler}
    (found : bytes data 13 16 = (address.bytes filler).map UInt8.toNat) :
    formatAddress data (some address.afNumber) = .ok (some address.text) := by
  unfold formatAddress
  cases address with
  | v4 a b c d =>
      have start : bytes data 13 4 = ((bytes data 13 16).drop 0).take 4 := bytes_inner 16 0 (by decide) (by decide)
      rw [found] at start
      rw [Address.afNumber, if_pos rfl, formatIpv4_spec start]
  | v6 a b c d e f g h =>
      rw [Address.afNumber, if_neg (by decide), if_pos rfl, formatIpv6_spec (by decide) found]

theorem Address.afNumber_lt (address : Address) : address.afNumber < 2 ^ 16 := by
  cases address with
  | v4 a b c d => exact (by decide : afInet < 2 ^ 16)
  | v6 a b c d e f g h => exact (by decide : afInet6 < 2 ^ 16)

theorem formatMac_spec {data : List UInt8} {pos : Nat} {mac : MacAddress}
    (found : bytes data pos 6 = mac.bytes.map UInt8.toNat) : formatMac data pos = some mac.text := by
  rw [formatMac, found]
  rfl

theorem ifname_spec (values : Values) (filler : Filler) :
    ((values.ifname ++ 0 :: filler.name.toList).take 16).takeWhile (· != 0) = values.ifname := by
  have plain : ∀ byte ∈ values.ifname, (byte != 0) = true := fun byte inside => bne_iff_ne.mpr (values.ifnamePlain byte inside)
  have stops : ((0 :: filler.name.toList).take (16 - values.ifname.length)).takeWhile (· != 0) = [] := by
    cases 16 - values.ifname.length with
    | zero => rfl
    | succ room => simp
  rw [List.take_append, List.take_of_length_le values.ifnameFits, List.takeWhile_append_of_pos plain, stops, List.append_nil]

section Fields

variable {values : Values} {le : Bool} {filler : Filler} {i pos n : Nat}

theorem readU16_encode (here : (values.parts le filler)[i]? = some (wordBytes le 2 n))
    (position : (partLengths.take i).sum + 1 = pos) (small : n < 2 ^ 16) :
    readU16 (values.encode le filler) pos le = some n :=
  readU16_wordBytes small (bytes_encode here position (length_wordBytes le 2 n))

theorem readU32_encode (here : (values.parts le filler)[i]? = some (wordBytes le 4 n))
    (position : (partLengths.take i).sum + 1 = pos) (small : n < 2 ^ 32) :
    readU32 (values.encode le filler) pos le = some n :=
  readU32_wordBytes small (bytes_encode here position (length_wordBytes le 4 n))

theorem readU64Decimal_encode (here : (values.parts le filler)[i]? = some (wordBytes le 8 n))
    (position : (partLengths.take i).sum + 1 = pos) (small : n < 2 ^ 64) :
    readU64Decimal (values.encode le filler) pos le = some (toString n) :=
  readU64Decimal_wordBytes (by omega) small (bytes_encode here position (length_wordBytes le 8 n))

end Fields

theorem parseFields_encode (values : Values) (le : Bool) (filler : Filler) :
    parseFields (values.encode le filler) le = .ok values.event := by
  let data := values.encode le filler
  have version : readU16 data 1 le = some eventVersion := readU16_encode (i := 0) rfl rfl (by decide)
  have headerLen : readU16 data 3 le = some eventSize := readU16_encode (i := 1) rfl rfl (by decide)
  have recordLen : readU16 data 5 le = some eventSize := readU16_encode (i := 2) rfl rfl (by decide)
  have idleTime : readU32 data 9 le = some values.idleTime.toNat := readU32_encode (i := 4) rfl rfl values.idleTime.toNat_lt
  have family : readU16 data 7 le = some values.address.afNumber := readU16_encode (i := 3) rfl rfl values.address.afNumber_lt
  have address : bytes data 13 16 = (values.address.bytes filler).map UInt8.toNat :=
    bytes_encode (i := 5) rfl rfl (values.address.length_bytes filler)
  have macaddr : formatMac data 29 = some values.mac.text := formatMac_spec (bytes_encode (i := 6) rfl rfl rfl)
  have authType : bytes data 35 1 = [values.authType.toNat] := bytes_encode (i := 7) rfl rfl rfl
  have authStatus : bytes data 36 1 = [values.authStatus.toNat] := bytes_encode (i := 8) rfl rfl rfl
  have authRuleId : readU16 data 37 le = some values.authRuleId.toNat := readU16_encode (i := 9) rfl rfl values.authRuleId.toNat_lt
  have rxPackets : readU64Decimal data 39 le = some (toString values.rxPackets.toNat) :=
    readU64Decimal_encode (i := 10) rfl rfl values.rxPackets.toNat_lt
  have rxBytes : readU64Decimal data 47 le = some (toString values.rxBytes.toNat) :=
    readU64Decimal_encode (i := 11) rfl rfl values.rxBytes.toNat_lt
  have txPackets : readU64Decimal data 55 le = some (toString values.txPackets.toNat) :=
    readU64Decimal_encode (i := 12) rfl rfl values.txPackets.toNat_lt
  have txBytes : readU64Decimal data 63 le = some (toString values.txBytes.toNat) :=
    readU64Decimal_encode (i := 13) rfl rfl values.txBytes.toNat_lt
  have rxSpeedPackets : readU32 data 71 le = some values.rxSpeedPackets.toNat :=
    readU32_encode (i := 14) rfl rfl values.rxSpeedPackets.toNat_lt
  have rxSpeedBytes : readU32 data 75 le = some values.rxSpeedBytes.toNat :=
    readU32_encode (i := 15) rfl rfl values.rxSpeedBytes.toNat_lt
  have txSpeedPackets : readU32 data 79 le = some values.txSpeedPackets.toNat :=
    readU32_encode (i := 16) rfl rfl values.txSpeedPackets.toNat_lt
  have txSpeedBytes : readU32 data 83 le = some values.txSpeedBytes.toNat :=
    readU32_encode (i := 17) rfl rfl values.txSpeedBytes.toNat_lt
  have ifname : ((data.drop 86).take 16).takeWhile (· != 0) = values.ifname := by
    have part := take_drop_flatten (show (values.parts le filler)[18]? = _ from rfl)
    rw [map_length_parts] at part
    have length : ((values.ifname ++ 0 :: filler.name.toList).take 16).length = 16 := by simp
    rw [length] at part
    exact (congrArg _ part).trans (ifname_spec values filler)
  have ipaddr := formatAddress_spec address
  have event : eventFamily values.address.text (some values.address.afNumber) = values.address.family := by
    cases values.address with
    | v4 => rfl
    | v6 => rfl
  change parseFields data le = _
  have accepted : ¬(some eventVersion ≠ some eventVersion ∨ some eventSize ≠ some eventSize ∨ some eventSize ≠ some eventSize) := by
    simp
  simp only [parseFields, version, headerLen, recordLen, family, ipaddr, macaddr, accepted, if_false]
  simp only [bind, Except.bind, event, idleTime, authType, authStatus, authRuleId, rxPackets, rxBytes, txPackets, txBytes,
    rxSpeedPackets, rxSpeedBytes, txSpeedPackets, txSpeedBytes, ifname]
  rfl

theorem parseBinary_encode (values : Values) (le : Bool) (filler : Filler) :
    parseBinary (values.encode le filler) = .ok values.event := by
  have version : bytes (values.encode le filler) 1 2 = (wordBytes le 2 eventVersion).map UInt8.toNat :=
    bytes_encode (i := 0) rfl rfl (length_wordBytes _ _ _)
  rw [parseBinary, if_neg (not_not_intro (length_encode values le filler)), version]
  cases le with
  | true =>
      rw [if_pos (by decide)]
      exact parseFields_encode values true filler
  | false =>
      rw [if_neg (by decide), if_pos (by decide)]
      exact parseFields_encode values false filler

/-! ## Events tell the values apart -/

theorem hexText_injective : Function.Injective hexText := by
  intro first second same
  have digits : Nat.toDigits 16 first = Nat.toDigits 16 second := by simpa [hexText] using congrArg String.toList same
  exact toDigits_injective (by decide) le_rfl digits

theorem toString_injective : Function.Injective (toString : Nat → String) := by
  intro first second same
  have digits : Nat.toDigits 10 first = Nat.toDigits 10 second := by
    have lists := congrArg String.toList same
    rwa [Nat.toString_eq_ofList_toDigits, Nat.toString_eq_ofList_toDigits, String.toList_ofList, String.toList_ofList] at lists
  exact toDigits_injective (by decide) (by decide) digits

/-- Texts without the separator are found again in the joined text. -/
theorem intercalate_injective {separator : String} {char : Char} (single : separator.toList = [char]) {first second : List String}
    (plain : ∀ item ∈ first, item.toList ≠ [] ∧ char ∉ item.toList)
    (plain' : ∀ item ∈ second, item.toList ≠ [] ∧ char ∉ item.toList)
    (same : separator.intercalate first = separator.intercalate second) : first = second := by
  have words : ∀ items : List String, (∀ item ∈ items, item.toList ≠ [] ∧ char ∉ item.toList) →
      (Text.words (· != char) (separator.intercalate items).toList).map String.ofList = items := by
    intro items apart
    refine Text.words_joined single (by simp) fun item member => ⟨(apart item member).1, fun other inside => ?_⟩
    rw [bne_iff_ne]
    rintro rfl
    exact (apart item member).2 inside
  rw [← words first plain, ← words second plain', same]

theorem not_mem_toDigits {base n : Nat} {char : Char} (large : 1 < base) (known : base ≤ 16)
    (other : ∀ digit : Fin 16, digit.val.digitChar ≠ char) : char ∉ Nat.toDigits base n := by
  intro inside
  obtain ⟨digit, small, rfl⟩ := exists_of_mem_toDigits large inside
  exact other ⟨digit, small.trans_le known⟩ rfl

theorem octets_injective (first second : List UInt8)
    (same : ".".intercalate (first.map fun octet => toString octet.toNat) = ".".intercalate (second.map fun octet => toString octet.toNat)) :
    first = second := by
  have plain : ∀ octets : List UInt8, ∀ item ∈ octets.map fun octet => toString octet.toNat,
      item.toList ≠ [] ∧ '.' ∉ item.toList := by
    intro octets item member
    obtain ⟨octet, _, rfl⟩ := List.mem_map.mp member
    rw [Nat.toString_eq_ofList_toDigits, String.toList_ofList]
    exact ⟨Nat.toDigits_ne_nil, not_mem_toDigits (by decide) (by decide) (by decide)⟩
  have injective : Function.Injective fun octet : UInt8 => toString octet.toNat :=
    fun _ _ equal => UInt8.toNat_inj.mp (toString_injective equal)
  exact List.map_injective_iff.mpr injective (intercalate_injective rfl (plain first) (plain second) same)

theorem groups_injective (first second : List UInt16)
    (same : ":".intercalate (first.map fun group => hexText group.toNat) = ":".intercalate (second.map fun group => hexText group.toNat)) :
    first = second := by
  have plain : ∀ groups : List UInt16, ∀ item ∈ groups.map fun group => hexText group.toNat,
      item.toList ≠ [] ∧ ':' ∉ item.toList := by
    intro groups item member
    obtain ⟨group, _, rfl⟩ := List.mem_map.mp member
    rw [hexText, String.toList_ofList]
    exact ⟨Nat.toDigits_ne_nil, not_mem_toDigits (by decide) le_rfl (by decide)⟩
  have injective : Function.Injective fun group : UInt16 => hexText group.toNat :=
    fun _ _ equal => UInt16.toNat_inj.mp (hexText_injective equal)
  exact List.map_injective_iff.mpr injective (intercalate_injective rfl (plain first) (plain second) same)

/-- Within a family an address is known by its text. -/
theorem Address.text_injective {first second : Address} (family : first.family = second.family)
    (same : first.text = second.text) : first = second := by
  cases first with
  | v4 a b c d =>
      cases second with
      | v4 a' b' c' d' =>
          have octets := octets_injective [a, b, c, d] [a', b', c', d'] same
          simp only [List.cons.injEq, and_true] at octets
          obtain ⟨rfl, rfl, rfl, rfl⟩ := octets
          rfl
      | v6 => cases family
  | v6 a b c d e f g h =>
      cases second with
      | v4 => cases family
      | v6 a' b' c' d' e' f' g' h' =>
          have groups := groups_injective [a, b, c, d, e, f, g, h] [a', b', c', d', e', f', g', h'] same
          simp only [List.cons.injEq, and_true] at groups
          obtain ⟨rfl, rfl, rfl, rfl, rfl, rfl, rfl, rfl⟩ := groups
          rfl

theorem hexByte_toList {byte : Nat} (small : byte < 256) :
    (hexByte byte).toList = [(byte / 16).digitChar.toUpper, (byte % 16).digitChar.toUpper] := by
  have upper : ((Nat.toDigits 16 byte).map Char.toUpper).leftpad 2 '0' = ((Nat.toDigits 16 byte).leftpad 2 '0').map Char.toUpper := by
    have zero : Char.toUpper '0' = '0' := by decide
    simp [List.leftpad, zero]
  have quotient : byte / 16 % 16 = byte / 16 := Nat.mod_eq_of_lt (by omega)
  rw [hexByte, String.toList_ofList, upper, leftpad_toDigits (by decide) 1 (by simpa using small)]
  simp [fixedDigits, quotient]

theorem hexByte_injective : Function.Injective fun byte : UInt8 => hexByte byte.toNat := by
  have digits : ∀ first second : Fin 16, first.val.digitChar.toUpper = second.val.digitChar.toUpper → first = second := by
    decide
  intro first second same
  have below := first.toNat_lt
  have below' := second.toNat_lt
  have lists := congrArg String.toList same
  simp only [hexByte_toList below, hexByte_toList below', List.cons.injEq, and_true] at lists
  have upper := congrArg Fin.val (digits ⟨first.toNat / 16, by omega⟩ ⟨second.toNat / 16, by omega⟩ lists.1)
  have lower := congrArg Fin.val (digits ⟨first.toNat % 16, by omega⟩ ⟨second.toNat % 16, by omega⟩ lists.2)
  simp only at upper lower
  exact UInt8.toNat_inj.mp (by omega)

theorem MacAddress.text_injective : Function.Injective MacAddress.text := by
  have plain : ∀ mac : MacAddress, ∀ item ∈ mac.bytes.map fun byte => hexByte byte.toNat,
      item.toList ≠ [] ∧ ':' ∉ item.toList := by
    have other : ∀ digit : Fin 16, digit.val.digitChar.toUpper ≠ ':' := by decide
    intro mac item member
    obtain ⟨byte, _, rfl⟩ := List.mem_map.mp member
    have small := byte.toNat_lt
    rw [hexByte_toList small]
    refine ⟨List.cons_ne_nil _ _, ?_⟩
    rw [List.mem_cons, List.mem_singleton, not_or]
    exact ⟨(other ⟨byte.toNat / 16, by omega⟩).symm, (other ⟨byte.toNat % 16, by omega⟩).symm⟩
  intro first second same
  have parts := List.map_injective_iff.mpr hexByte_injective (intercalate_injective rfl (plain first) (plain second) same)
  simp only [MacAddress.bytes, List.cons.injEq, and_true] at parts
  obtain ⟨a, b, c, d, e, f⟩ := parts
  cases first
  cases second
  simp_all

theorem event_injective : Function.Injective Values.event := by
  intro first second same
  simp only [Values.event, Event.mk.injEq, UInt8.toNat_inj, UInt16.toNat_inj, UInt32.toNat_inj] at same
  obtain ⟨-, family, ipaddr, macaddr, idleTime, authType, authStatus, authRuleId, rxPackets, rxBytes, txPackets, txBytes,
    rxSpeedPackets, rxSpeedBytes, txSpeedPackets, txSpeedBytes, ifname⟩ := same
  have address := Address.text_injective family ipaddr
  have mac := MacAddress.text_injective macaddr
  have counter : ∀ {one other : UInt64}, toString one.toNat = toString other.toNat → one = other :=
    fun text => UInt64.toNat_inj.mp (toString_injective text)
  have rx := And.intro (counter rxPackets) (counter rxBytes)
  have tx := And.intro (counter txPackets) (counter txBytes)
  cases first
  cases second
  rw [Values.mk.injEq]
  exact ⟨address, mac, idleTime, authType, authStatus, authRuleId, rx.1, rx.2, tx.1, tx.2, rxSpeedPackets, rxSpeedBytes,
    txSpeedPackets, txSpeedBytes, ifname⟩

/-- Every record of the kernel's layout is read back, in either byte order; other lengths and versions are rejected. -/
theorem parseBinary_inverts :
    (∀ (values : Values) (le : Bool) (filler : Filler), parseBinary (values.encode le filler) = .ok values.event) ∧
      Function.Injective Values.event ∧
      ∀ data : List UInt8, data.length ≠ eventSize ∨
        ¬(bytes data 1 2 = [eventVersion, 0] ∨ bytes data 1 2 = [0, eventVersion]) →
        ∃ error, parseBinary data = .error error := by
  refine ⟨parseBinary_encode, event_injective, fun data differs => ?_⟩
  unfold parseBinary
  split
  next => exact ⟨_, rfl⟩
  next sized =>
      obtain ⟨little, big⟩ := not_or.mp (differs.resolve_left sized)
      rw [if_neg little, if_neg big]
      exact ⟨_, rfl⟩

end UserRecord

end XWrt.Natflow
