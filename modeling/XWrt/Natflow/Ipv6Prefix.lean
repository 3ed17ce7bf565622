import XWrt.Foundation.Numerals
import XWrt.Natflow.SimpleQos

/-!
# Prefixes of IPv6 addresses

`ipv6_prefix_match` compares whole bytes and then the bits that are left of one
more byte. On sixteen bytes this compares the top bits of the two addresses,
read as numbers of 128 bits.
-/

namespace XWrt.Natflow

open Foundation.Numerals

/-- The bytes of an IPv6 address. -/
structure Ipv6Bytes where
  bytes : List Nat
  length : bytes.length = 16
  small : ∀ byte ∈ bytes, byte < 256

/-- The address as a number of 128 bits. -/
def Ipv6Bytes.value (addr : Ipv6Bytes) : Nat := fromHigh 256 addr.bytes

namespace Ipv6Bytes

variable (addr : Ipv6Bytes)

theorem small_take (k : Nat) : ∀ byte ∈ addr.bytes.take k, byte < 256 :=
  fun byte member => addr.small byte (List.mem_of_mem_take member)

/-- The number of the first bytes. -/
theorem value_div_bytes {k : Nat} (fits : k ≤ 16) :
    addr.value / 2 ^ (8 * (16 - k)) = fromHigh 256 (addr.bytes.take k) := by
  rw [Nat.pow_mul, value, fromHigh_div (by decide) addr.small, addr.length, Nat.sub_sub_self fits]

theorem value_lt : addr.value < 2 ^ 128 := by
  have none : addr.value / 2 ^ 128 = 0 := addr.value_div_bytes (Nat.zero_le 16)
  exact (Nat.div_eq_zero_iff_lt (Nat.two_pow_pos 128)).mp none

/-- The number of the first bytes and of the bits in front of the next one. -/
theorem value_div_bits {k r : Nat} (inside : k < addr.bytes.length) (room : r < 8) :
    addr.value / 2 ^ (128 - (8 * k + r)) =
      addr.bytes[k] / 2 ^ (8 - r) + 2 ^ r * fromHigh 256 (addr.bytes.take k) := by
  have fits : k < 16 := addr.length ▸ inside
  have split : 128 - (8 * k + r) = 8 * (16 - (k + 1)) + (8 - r) := by omega
  have power : 256 = 2 ^ (8 - r) * 2 ^ r := by
    rw [← Nat.pow_add, Nat.sub_add_cancel room.le]
  rw [split, Nat.pow_add, ← Nat.div_div_eq_div_mul, addr.value_div_bytes fits, List.take_succ_eq_append_getElem inside,
    fromHigh_concat]
  conv_lhs => rw [power, Nat.mul_assoc]
  rw [Nat.add_mul_div_left _ _ (Nat.two_pow_pos _), ← power]

theorem bits_lt {k r : Nat} (inside : k < addr.bytes.length) (room : r < 8) : addr.bytes[k] / 2 ^ (8 - r) < 2 ^ r := by
  apply Nat.div_lt_of_lt_mul
  rw [← Nat.pow_add, Nat.sub_add_cancel room.le]
  exact addr.small _ (List.getElem_mem inside)

end Ipv6Bytes

/-- The loop compares the first bytes. -/
theorem all_bytes_iff (k : Nat) (first second : List Nat) :
    (List.range k).all (fun i => first[i]? == second[i]?) = true ↔ first.take k = second.take k := by
  rw [List.all_eq_true]
  constructor
  · intro all
    apply List.ext_getElem?
    intro i
    rw [List.getElem?_take, List.getElem?_take]
    split
    next early => exact beq_iff_eq.mp (all i (List.mem_range.mpr early))
    next => rfl
  · intro same i early
    have here := congrArg (fun bytes : List Nat => bytes[i]?) same
    simp only [List.getElem?_take, if_pos (List.mem_range.mp early)] at here
    exact beq_iff_eq.mpr here

/-- A carry-free sum determines its two parts. -/
theorem add_mul_inj {low other factor high above : Nat} (small : low < factor) (smallOther : other < factor) :
    low + factor * high = other + factor * above ↔ high = above ∧ low = other := by
  constructor
  · intro same
    have quotient := congrArg (· / factor) same
    have remainder := congrArg (· % factor) same
    simp only [Nat.add_mul_div_left _ _ (Nat.zero_lt_of_lt small), Nat.div_eq_of_lt small, Nat.div_eq_of_lt smallOther,
      Nat.zero_add] at quotient
    simp only [Nat.add_mul_mod_self_left, Nat.mod_eq_of_lt small, Nat.mod_eq_of_lt smallOther] at remainder
    exact ⟨quotient, remainder⟩
  · rintro ⟨rfl, rfl⟩
    rfl

theorem ipv6PrefixMatch_iff (addr net : Ipv6Bytes) {prefixLength : Nat} (bound : prefixLength ≤ 128) :
    ipv6PrefixMatch addr.bytes ⟨net.bytes, prefixLength⟩ = true ↔
      addr.value / 2 ^ (128 - prefixLength) = net.value / 2 ^ (128 - prefixLength) := by
  obtain ⟨k, r, room, rfl⟩ : ∃ k r, r < 8 ∧ prefixLength = 8 * k + r :=
    ⟨prefixLength / 8, prefixLength % 8, Nat.mod_lt _ (by decide), (Nat.div_add_mod _ _).symm⟩
  have whole : (8 * k + r) / 8 = k := by omega
  have left : (8 * k + r) % 8 = r := by omega
  have front : fromHigh 256 (addr.bytes.take k) = fromHigh 256 (net.bytes.take k) ↔
      addr.bytes.take k = net.bytes.take k := by
    apply fromHigh_inj (by decide) _ (addr.small_take k) (net.small_take k)
    rw [List.length_take, List.length_take, addr.length, net.length]
  simp only [ipv6PrefixMatch, whole, left, Bool.and_eq_true, all_bytes_iff, Bool.or_eq_true, beq_iff_eq]
  rcases Nat.eq_zero_or_pos r with rfl | some
  · have fits : k ≤ 16 := by omega
    have bits : 128 - (8 * k + 0) = 8 * (16 - k) := by omega
    rw [bits, addr.value_div_bytes fits, net.value_div_bytes fits, front]
    simp
  · have fits : k < 16 := by omega
    have insideAddr : k < addr.bytes.length := addr.length ▸ fits
    have insideNet : k < net.bytes.length := net.length ▸ fits
    rw [addr.value_div_bits insideAddr room, net.value_div_bits insideNet room,
      add_mul_inj (addr.bits_lt insideAddr room) (net.bits_lt insideNet room), front,
      List.getElem?_eq_getElem insideAddr, List.getElem?_eq_getElem insideNet]
    simp [some.ne']

/-! ## Parsed addresses -/

/-- The groups that `parse_ipv6_bytes` collects. -/
def ipv6Groups (text : List Char) : Option (List Nat) :=
  match splitDouble text with
  | some (left, right) =>
      if (splitDouble right).isSome || left.getLast? == some ':' || right.head? == some ':' then none
      else (ipv6Part left).bind fun leftGroups => (ipv6Part right).bind fun rightGroups =>
        let filled := leftGroups.length + rightGroups.length
        if 8 ≤ filled then none else some (leftGroups ++ List.replicate (8 - filled) 0 ++ rightGroups)
  | none => (ipv6Part text).bind fun groups => if groups.length = 8 then some groups else none

/-- The two bytes of every group. -/
def groupBytes (groups : List Nat) : List Nat := groups.flatMap fun group => [group / 256, group % 256]

theorem parseIpv6Bytes_eq (addr : String) : parseIpv6Bytes addr =
    (ipv6Groups addr.toList).bind fun groups =>
      if groups.any fun group => 0xffff < group then none else some (groupBytes groups) := by
  unfold parseIpv6Bytes ipv6Groups
  cases splitDouble addr.toList with
  | none =>
      cases ipv6Part addr.toList with
      | none => rfl
      | some groups =>
          dsimp only [Option.bind_some]
          by_cases length : groups.length = 8
          · simp [length, groupBytes]
          · simp [length]
  | some sides =>
      obtain ⟨left, right⟩ := sides
      dsimp only
      split
      · rfl
      · cases ipv6Part left with
        | none => rfl
        | some leftGroups =>
            cases ipv6Part right with
            | none => rfl
            | some rightGroups =>
                dsimp only [Option.bind_some]
                by_cases filled : 8 ≤ leftGroups.length + rightGroups.length
                · simp [filled]
                · simp [filled, groupBytes]

theorem ipv6Groups_length {text : List Char} {groups : List Nat} (found : ipv6Groups text = some groups) :
    groups.length = 8 := by
  unfold ipv6Groups at found
  split at found
  · split at found
    · cases found
    · obtain ⟨leftGroups, -, found⟩ := Option.bind_eq_some_iff.mp found
      obtain ⟨rightGroups, -, found⟩ := Option.bind_eq_some_iff.mp found
      dsimp only at found
      split at found
      · cases found
      · cases found
        simp only [List.length_append, List.length_replicate]
        omega
  · obtain ⟨all, -, found⟩ := Option.bind_eq_some_iff.mp found
    split at found
    next length =>
        cases found
        exact length
    · cases found

/-- The bytes of eight groups of 16 bits. -/
theorem groupBytes_spec {groups : List Nat} (length : groups.length = 8) (small : ∀ group ∈ groups, group ≤ 0xffff) :
    (groupBytes groups).length = 16 ∧ ∀ byte ∈ groupBytes groups, byte < 256 := by
  constructor
  · simp [groupBytes, length]
  · intro byte member
    obtain ⟨group, inside, here⟩ := List.mem_flatMap.mp member
    have bound := small group inside
    simp only [List.mem_cons, List.not_mem_nil, or_false] at here
    omega

/-- What the parser returns are the bytes of an address. -/
theorem parseIpv6Bytes_bytes {text : String} {bytes : List Nat} (parsed : parseIpv6Bytes text = some bytes) :
    ∃ addr : Ipv6Bytes, addr.bytes = bytes := by
  rw [parseIpv6Bytes_eq] at parsed
  obtain ⟨groups, found, read⟩ := Option.bind_eq_some_iff.mp parsed
  split at read
  · cases read
  next small =>
      cases read
      have bounds : ∀ group ∈ groups, group ≤ 0xffff := by simpa using small
      obtain ⟨length, bytes⟩ := groupBytes_spec (ipv6Groups_length found) bounds
      exact ⟨⟨_, length, bytes⟩, rfl⟩

theorem parseIpv6Cidr_net {text : String} {net : Ipv6Net} (parsed : parseIpv6Cidr text = some net) :
    net.prefixLength ≤ 128 ∧ ∃ addr : Ipv6Bytes, addr.bytes = net.bytes := by
  unfold parseIpv6Cidr at parsed
  split at parsed
  next addr prefixLength _ =>
      split at parsed
      · cases parsed
      next short =>
          obtain ⟨bytes, read, found⟩ := Option.bind_eq_some_iff.mp parsed
          cases found
          exact ⟨not_lt.mp short, parseIpv6Bytes_bytes read⟩

/-- The match is agreement in the top bits, for all addresses and prefix lengths; what the two
parsers return are such addresses and lengths. -/
theorem ipv6PrefixMatch_exact :
    (∀ (addr net : Ipv6Bytes) (prefixLength : Nat), prefixLength ≤ 128 →
      (ipv6PrefixMatch addr.bytes ⟨net.bytes, prefixLength⟩ = true ↔
        addr.value / 2 ^ (128 - prefixLength) = net.value / 2 ^ (128 - prefixLength))) ∧
    (∀ text bytes, parseIpv6Bytes text = some bytes → ∃ addr : Ipv6Bytes, addr.bytes = bytes) ∧
    ∀ text net, parseIpv6Cidr text = some net → net.prefixLength ≤ 128 ∧ ∃ addr : Ipv6Bytes, addr.bytes = net.bytes :=
  ⟨fun addr net _ bound => ipv6PrefixMatch_iff addr net bound, fun _ _ => parseIpv6Bytes_bytes,
    fun _ _ => parseIpv6Cidr_net⟩

theorem ipv6PrefixMatch_exact_link_local :
    (∃ addr : Ipv6Bytes, addr.bytes = [0xfe, 0x80, 0, 0, 0, 0, 0, 0, 0, 0, 0, 0, 0, 0, 0, 1]) ∧
    (∃ addr : Ipv6Bytes, addr.bytes = 0xfe :: 0xbf :: List.replicate 14 0) ∧
    Ipv6Bytes.value ⟨[0xfe, 0x80, 0, 0, 0, 0, 0, 0, 0, 0, 0, 0, 0, 0, 0, 1], rfl, by decide⟩ / 2 ^ (128 - 10) =
      Ipv6Bytes.value ⟨0xfe :: 0xbf :: List.replicate 14 0, rfl, by decide⟩ / 2 ^ (128 - 10) :=
  ⟨ipv6PrefixMatch_exact.2.1 "fe80::1" _ (by decide +kernel), (ipv6PrefixMatch_exact.2.2 "febf::/10" ⟨_, 10⟩ (by decide +kernel)).2,
    (ipv6PrefixMatch_exact.1 _ _ 10 (by decide)).mp (by decide)⟩

end XWrt.Natflow
