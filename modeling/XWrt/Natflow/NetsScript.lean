import XWrt.Natflow.NetsWorker

/-!
# Network lists in the QoS init script

The selector that `natflow-qos.init` builds from a list of the web form. A
single word is written as it is. Of several words every network goes into a set,
which takes no prefix length of zero; the script puts halves for `0.0.0.0/0` and
`::/0` only, and other spellings of the latter are lost. The limit of the sets
is left aside here.
-/

namespace XWrt.Natflow

open Foundation
open Foundation.Text
open Foundation.Numerals
open Ipops

/-- A network with a prefix length of zero. -/
def zeroLength (net : List Char) : Bool :=
  match cidrParts net with
  | some (_, digits) => tonumber digits == 0
  | none => false

/-- What the rule selects by these words: one word selects its network, and of several words `ipset add` takes every
network but those with a prefix length of zero. Without a word the rule is for every address. -/
def SelectorMatches (ipList : List String) (address : Address) : Prop :=
  match ipList with
  | [] => True
  | [net] => InNet net.toList address
  | nets => ∃ net ∈ nets.flatMap halves, zeroLength net.toList = false ∧ InNet net.toList address

/-! ## Words with and without a colon -/

theorem not_inNet_ipv4 {text : List Char} (colon : ':' ∈ text) (quad : Quad) : ¬InNet text (.ipv4 quad) := by
  rintro ⟨form, written, -⟩
  exact (documented_chars written _ colon).2 rfl

theorem not_inNet_ipv6 {text : List Char} (plain : ':' ∉ text) (addr : Ipv6Bytes) : ¬InNet text (.ipv6 addr) := by
  rintro ⟨groups, length, network, -⟩
  exact plain network.chars.1

section Blocks

variable {block : CidrBlock} (nonneg : 0 ≤ block.base) (below : block.last < 2 ^ 32)
include nonneg

theorem colon_ipcidr : ':' ∉ block.ipcidr.toList := by
  rw [← isIpv6_eq_true, isIpv6_ipcidr nonneg]
  exact Bool.false_ne_true

theorem zeroLength_ipcidr : zeroLength block.ipcidr.toList = (block.cidr == 0) := by
  obtain ⟨x, starts⟩ := Int.eq_ofNat_of_zero_le nonneg
  have plain : ∀ char ∈ (int2ipstr x).toList, char ≠ '/' := by
    intro char member
    rw [int2ipstr_toList] at member
    rcases mem_printedParts member with digit | separator
    · rintro rfl
      exact absurd digit (by decide)
    · rintro rfl
      exact absurd separator (by decide)
  have some : (int2ipstr x).toList ≠ [] := by
    rw [int2ipstr_toList]
    simp [octets, printedParts]
  have written : block.ipcidr.toList = (int2ipstr x).toList ++ '/' :: Nat.toDigits 10 block.cidr := by
    have cidr : (toString block.cidr).toList = Nat.toDigits 10 block.cidr := toList_toString_natCast block.cidr
    rw [CidrBlock.ipcidr, starts, String.toList_append, String.toList_append, cidr, List.append_assoc]
    rfl
  rw [zeroLength, written, cidrParts_append (fun slash => plain _ slash rfl) some (toDigits_isDigit _) Nat.toDigits_ne_nil]
  dsimp only
  rw [tonumber_toDigits]

include below

theorem inNet_ipcidr (quad : Quad) :
    InNet block.ipcidr.toList (.ipv4 quad) ↔ block.base ≤ quad.value ∧ (quad.value : ℤ) ≤ block.last := by
  have read := netString2range_ipcidr nonneg below
  have text : String.ofList block.ipcidr.toList = block.ipcidr := String.ofList_toList
  constructor
  · rintro ⟨form, written, inside⟩
    rw [text] at written
    obtain ⟨range, read', first, last, rfl, least, greatest⟩ := netString2range_of_reads written.reads ⟨_, inside⟩
    obtain ⟨base, top⟩ := ClosedInterval.mk.inj (Option.some.inj (read.symm.trans read'))
    rw [base, top]
    exact ⟨Int.ofNat_le.mpr (least.2 inside), Int.ofNat_le.mpr (greatest.2 inside)⟩
  · rintro bounds
    obtain ⟨x, starts⟩ := Int.eq_ofNat_of_zero_le nonneg
    have order := block.base_le_last
    have octet : ∀ n : ℕ, n % 256 < 256 := fun n => Nat.mod_lt n (by decide)
    have narrow : block.cidr < 33 := Nat.lt_succ_of_le (Nat.sub_le _ _)
    let form : NetForm := .cidr ⟨⟨_, octet (x / 2 ^ 24)⟩, ⟨_, octet (x / 2 ^ 16)⟩, ⟨_, octet (x / 2 ^ 8)⟩, ⟨_, octet x⟩⟩ ⟨block.cidr, narrow⟩
    have written : Documented block.ipcidr form := documented_of_printed (ipcidr_toList starts)
    obtain ⟨n, inside, same⟩ := (written.denotes trivial _).mp ⟨_, read, bounds⟩
    exact ⟨form, text.symm ▸ written, Int.ofNat_inj.mp same ▸ inside⟩

end Blocks

/-! ## The selector -/

theorem cidr_ne_zero {block half : CidrBlock} (member : half ∈ halveBlock block) : half.cidr ≠ 0 := by
  unfold halveBlock at member
  split at member
  next =>
    rcases List.mem_pair.mp member with rfl | rfl
    · decide
    · decide
  next small =>
    rw [List.mem_singleton.mp member]
    have := block.exp_le
    unfold CidrBlock.cidr
    omega

theorem literal_zero : Ipv6Literal [':', ':'] (List.replicate 8 0) := .compressed .nil .nil (by decide)

theorem literal_top : Ipv6Literal ['8', '0', '0', '0', ':', ':'] (0x8000 :: List.replicate 7 0) := by
  have group : IsGroup ['8', '0', '0', '0'] 0x8000 := ⟨by decide, by decide, List.all_eq_true.mp rfl, rfl⟩
  exact .compressed (.cons group .nil) .nil (by decide)

/-- Every address is in one of the halves of `::/0`, and in `::/0`. -/
theorem inNet_zero (addr : Ipv6Bytes) : InNet "::/0".toList (.ipv6 addr) ∧
    ∃ net ∈ ["::/1", "8000::/1"], InNet net.toList (.ipv6 addr) := by
  have all := addr.value_lt
  have none : ∀ char ∈ ['0'], char.isDigit = true := List.all_eq_true.mp rfl
  have one : ∀ char ∈ ['1'], char.isDigit = true := List.all_eq_true.mp rfl
  constructor
  · exact ⟨_, _, .cidr literal_zero none (by decide) (by decide), Nat.div_eq_of_lt all⟩
  · rcases Nat.lt_or_ge addr.value (2 ^ 127) with low | high
    · exact ⟨"::/1", .head _, _, _, .cidr literal_zero one (by decide) (by decide), Nat.div_eq_of_lt low⟩
    · exact ⟨"8000::/1", .tail _ (.head _), _, _, .cidr literal_top one (by decide) (by decide),
        Nat.div_eq_of_lt_le high all⟩

theorem halves_ipv6 {ip : String} (colon : isIpv6 ip = true) (addr : Ipv6Bytes) :
    (∃ net ∈ halves ip, zeroLength net.toList = false ∧ InNet net.toList (.ipv6 addr)) ↔
      (ip = "::/0" ∨ zeroLength ip.toList = false) ∧ InNet ip.toList (.ipv6 addr) := by
  have v4 : ip ≠ "0.0.0.0/0" := by
    rintro rfl
    exact absurd colon (by decide)
  by_cases zero : ip = "::/0"
  · obtain ⟨whole, net, half, inside⟩ := inNet_zero addr
    rw [zero]
    refine iff_of_true ⟨net, half, ?_, inside⟩ ⟨.inl rfl, whole⟩
    rcases List.mem_pair.mp half with rfl | rfl
    · decide
    · decide
  · rw [halves, if_neg v4, if_neg zero, or_iff_right zero]
    simp only [List.mem_singleton, exists_eq_left]

section Selector

variable {blocks : List CidrBlock} (within : Within blocks) {v6 : List String} (colons : ∀ ip ∈ v6, isIpv6 ip = true)
include within colons

omit colons in
/-- What the words of both families select. -/
theorem several_iff (address : Address) :
    (∃ net ∈ (blocks.map CidrBlock.ipcidr ++ v6).flatMap halves, zeroLength net.toList = false ∧ InNet net.toList address) ↔
      (∃ half ∈ elements blocks, InNet half.ipcidr.toList address) ∨
        ∃ ip ∈ v6, ∃ net ∈ halves ip, zeroLength net.toList = false ∧ InNet net.toList address := by
  have nonzero : ∀ half ∈ elements blocks, zeroLength half.ipcidr.toList = false := by
    intro half member
    obtain ⟨block, inside, piece⟩ := List.mem_flatMap.mp member
    rw [zeroLength_ipcidr (within_elements within half member).1, beq_eq_false_iff_ne]
    exact cidr_ne_zero piece
  rw [List.flatMap_append, flatMap_halves within]
  simp only [List.mem_append, or_and_right, exists_or, List.mem_map, List.mem_flatMap]
  refine or_congr ?_ ?_
  · constructor
    · rintro ⟨net, ⟨half, member, rfl⟩, -, inside⟩
      exact ⟨half, member, inside⟩
    · rintro ⟨half, member, inside⟩
      exact ⟨_, ⟨half, member, rfl⟩, nonzero half member, inside⟩
  · constructor
    · rintro ⟨net, ⟨ip, member, half⟩, both⟩
      exact ⟨ip, member, net, half, both⟩
    · rintro ⟨ip, member, net, half, both⟩
      exact ⟨net, ⟨ip, member, half⟩, both⟩

omit within colons in
theorem selectorMatches_several {ipList : List String} (several : 2 ≤ ipList.length) (address : Address) :
    SelectorMatches ipList address ↔
      ∃ net ∈ ipList.flatMap halves, zeroLength net.toList = false ∧ InNet net.toList address := by
  match ipList, several with
  | _ :: _ :: _, _ => exact Iff.rfl

theorem selectorMatches_ipv4 (some : blocks ≠ [] ∨ v6 ≠ []) (quad : Quad) :
    SelectorMatches (blocks.map CidrBlock.ipcidr ++ v6) (.ipv4 quad) ↔ (quad.value : ℤ) ∈ AlignedBlock.cover blocks := by
  have notV6 : ∀ net, isIpv6 net = true → ¬InNet net.toList (.ipv4 quad) := fun net colon =>
    not_inNet_ipv4 (isIpv6_eq_true.mp colon) quad
  rcases words : blocks.map CidrBlock.ipcidr ++ v6 with _ | ⟨net, _ | ⟨second, rest⟩⟩
  · obtain ⟨none, rfl⟩ := List.append_eq_nil_iff.mp words
    exact absurd some (by simp [List.map_eq_nil_iff.mp none])
  · rcases blocks with _ | ⟨block, others⟩
    · obtain rfl : v6 = [net] := words
      exact iff_of_false (notV6 net (colons net (.head _))) (by simp)
    · obtain ⟨rfl, none⟩ := List.cons.inj words
      obtain rfl := List.map_eq_nil_iff.mp (List.append_eq_nil_iff.mp none).1
      have bounds := within block (.head _)
      simpa [SelectorMatches] using inNet_ipcidr bounds.1 bounds.2 quad
  · have several : 2 ≤ (net :: second :: rest).length := Nat.le_add_left 2 rest.length
    rw [selectorMatches_several several, ← words, several_iff within, ← mem_cover_elements within, AlignedBlock.mem_cover]
    have none : ¬∃ ip ∈ v6, ∃ net ∈ halves ip, zeroLength net.toList = false ∧ InNet net.toList (.ipv4 quad) := by
      rintro ⟨ip, member, net, half, -, inside⟩
      exact notV6 net (isIpv6_halves (colons ip member) half) inside
    rw [or_iff_left none]
    refine exists_congr fun half => and_congr_right fun member => ?_
    have bounds := within_elements within half member
    exact inNet_ipcidr bounds.1 bounds.2 quad

/-- The words that select IPv6 addresses: a single word, and those of several that get into the set. -/
theorem selectorMatches_ipv6 (some : blocks ≠ [] ∨ v6 ≠ []) (addr : Ipv6Bytes) :
    SelectorMatches (blocks.map CidrBlock.ipcidr ++ v6) (.ipv6 addr) ↔ ∃ ip ∈ v6,
      (blocks.length + v6.length = 1 ∨ ip = "::/0" ∨ zeroLength ip.toList = false) ∧ InNet ip.toList (.ipv6 addr) := by
  have notV4 : ∀ block : CidrBlock, 0 ≤ block.base → ¬InNet block.ipcidr.toList (.ipv6 addr) := fun block nonneg =>
    not_inNet_ipv6 (colon_ipcidr nonneg) addr
  have length : (blocks.map CidrBlock.ipcidr ++ v6).length = blocks.length + v6.length := by
    rw [List.length_append, List.length_map]
  rcases words : blocks.map CidrBlock.ipcidr ++ v6 with _ | ⟨net, _ | ⟨second, rest⟩⟩
  · obtain ⟨none, rfl⟩ := List.append_eq_nil_iff.mp words
    exact absurd some (by simp [List.map_eq_nil_iff.mp none])
  · rcases blocks with _ | ⟨block, others⟩
    · obtain rfl : v6 = [net] := words
      simp [SelectorMatches]
    · obtain ⟨rfl, none⟩ := List.cons.inj words
      obtain ⟨-, rfl⟩ := List.append_eq_nil_iff.mp none
      exact iff_of_false (notV4 block (within block (.head _)).1) (by simp)
  · have several : 2 ≤ (net :: second :: rest).length := Nat.le_add_left 2 rest.length
    have notOne : blocks.length + v6.length ≠ 1 := by
      rw [← length, words]
      exact (Nat.lt_of_succ_le several).ne'
    rw [selectorMatches_several several, ← words, several_iff within]
    have none : ¬∃ half ∈ elements blocks, InNet half.ipcidr.toList (.ipv6 addr) := by
      rintro ⟨half, member, inside⟩
      exact notV4 half (within_elements within half member).1 inside
    rw [or_iff_right none]
    refine exists_congr fun ip => and_congr_right fun member => ?_
    rw [or_iff_right notOne]
    exact halves_ipv6 (colons ip member) addr

end Selector

/-! ## The words of the script -/

theorem shellWords_storedText (nets : List Char) : shellWords (storedText nets) = storedItems isIfs nets := by
  rw [shellWords_eq, storedText, String.toList_ofList]
  rfl

/-- The shell leaves a word alone that is no pattern. -/
def KeepsPlain (glob : String → List String) : Prop :=
  ∀ word : String, (∀ char ∈ word.toList, char ∉ globChars) → glob word = [word]

/-- The IPv6 words. -/
def v6Words (nets : List Char) : List String :=
  ((nets.splitOn ',').filter fun token => ':' ∈ jsTrim token).map fun token => String.ofList (encode (worn isIfs token))

section Words

variable {nets : List Char} (items : ∀ token ∈ nets.splitOn ',', Item (jsTrim token))
include items

theorem storedItems_free {item : String} (member : item ∈ storedItems isIfs nets) : ∀ char ∈ item.toList, char ∉ globChars := by
  obtain ⟨token, listed, rfl | blank⟩ := mem_storedItems cuts_isIfs items member
  · obtain ⟨before, after, written, front, back⟩ := encode_worn (items token listed) isIfs
    intro byte inside
    rw [String.toList_ofList, written, List.append_assoc] at inside
    rcases List.mem_append.mp inside with early | inside
    · exact (front byte early).2
    · rcases List.mem_append.mp inside with core | late
      · exact (itemChar_plain ((items token listed).chars.2 byte core)).2.2.1
      · exact (back byte late).2
  · exact fun byte inside => (blank byte inside).2

variable {glob : String → List String} (plain : KeepsPlain glob)
include plain

theorem listed_storedText : listed glob (storedText nets) = storedItems isIfs nets := by
  have same : ∀ word ∈ storedItems isIfs nets, glob word = [word] := fun word member => plain word (storedItems_free items member)
  rw [listed, shellWords_storedText, List.flatMap_congr same]
  simp

theorem v6List_storedText : v6List glob (storedText nets) = v6Words nets := by
  rw [v6List, listed_storedText items plain, filter_storedItems cuts_isIfs items, v6Words]

theorem scriptItems_storedText :
    scriptItems glob (storedText nets) = (storedItems isIfs nets).filter fun item => !isIpv6 item := by
  have shape : ∀ item ∈ (storedItems isIfs nets).filter fun item => !isIpv6 item,
      item.toList ≠ [] ∧ ∀ char ∈ item.toList, (char != ',') = true := by
    intro item member
    obtain ⟨piece, inside, rfl⟩ := List.mem_map.mp (List.mem_of_mem_filter member)
    rw [String.toList_ofList]
    refine ⟨ne_nil_of_mem_words inside, fun char here => ?_⟩
    exact (Bool.and_eq_true _ _ |>.mp (inWord_of_mem_words inside here)).2
  have nonempty : ∀ item ∈ (storedItems isIfs nets).filter fun item => !isIpv6 item, item ≠ "" := by
    intro item member empty
    exact (shape item member).1 (by rw [empty]; rfl)
  rw [scriptItems, v4List, listed_storedText items plain, foldl_appendV4 nonempty, splitNetStrings_intercalate shape]

end Words

section Blocks

variable {nets : List Char} (items : ∀ token ∈ nets.splitOn ',', Item (jsTrim token))
include items

section Cuts

variable {separates : Char → Bool} (cuts : Cuts separates)
include cuts

/-- The networks of the form end at 255.255.255.255. -/
theorem storedItems_narrow :
    Narrow (netStringSet2rangeSet ((storedItems separates nets).filter fun item => !isIpv6 item)) := by
  refine (narrow_iff _).mpr fun netString member beyond => ?_
  obtain ⟨range, read, high⟩ := beyond.parsed
  obtain ⟨token, listed, plain, read⟩ := (exists_v4_iff cuts items).mp ⟨netString, member, read⟩
  obtain ⟨form, written, -, some⟩ := (items token listed).ipv4_of plain
  obtain ⟨range', read', first, last, rfl, -, greatest⟩ := netString2range_of_reads written.reads some
  rw [read'] at read
  obtain rfl := Option.some.inj read
  have beyond : 2 ^ 32 ≤ last := Int.ofNat_le.mp high
  exact absurd (form.network_lt last greatest.1) (not_lt.mpr beyond)

/-- Without IPv4 items, and only then, there is no address. -/
theorem denote_eq_empty_iff : denoteStrings ((storedItems separates nets).filter fun item => !isIpv6 item) = ∅ ↔
    ∀ token ∈ nets.splitOn ',', ':' ∈ jsTrim token := by
  constructor
  · intro empty token listed
    by_contra plain
    obtain ⟨form, written, -, some⟩ := (items token listed).ipv4_of plain
    obtain ⟨range, read, first, last, rfl, least, greatest⟩ := netString2range_of_reads written.reads some
    obtain ⟨text, member, read⟩ := (exists_v4_iff cuts items).mpr ⟨token, listed, plain, read⟩
    have there : (first : ℤ) ∈ denoteStrings ((storedItems separates nets).filter fun item => !isIpv6 item) :=
      mem_denoteStrings_of_parsed member read le_rfl (Int.ofNat_le.mpr (least.2 greatest.1))
    rw [empty] at there
    exact there
  · intro colons
    refine denoteStrings_eq_empty fun text member => Option.eq_none_iff_forall_not_mem.mpr fun range read => ?_
    obtain ⟨token, listed, plain, -⟩ := (exists_v4_iff cuts items).mp ⟨text, member, read⟩
    exact plain (colons token listed)

end Cuts

variable {glob : String → List String} (plain : KeepsPlain glob)
include plain

/-- The script ends with the blocks of the IPv4 addresses of the list, and the IPv6 words. -/
theorem formatIpStrings_storedText : ∃ blocks : List CidrBlock, Within blocks ∧
    (∀ quad : Quad, (quad.value : ℤ) ∈ AlignedBlock.cover blocks ↔ InNets nets (.ipv4 quad)) ∧
      (blocks = [] ↔ ∀ token ∈ nets.splitOn ',', ':' ∈ jsTrim token) ∧
        (∃ fuel, formatIpStrings glob fuel (storedText nets) = some (blocks.map CidrBlock.ipcidr ++ v6Words nets)) ∧
          ∀ fuel ipList, formatIpStrings glob fuel (storedText nets) = some ipList →
            ipList = blocks.map CidrBlock.ipcidr ++ v6Words nets := by
  have narrow : Narrow (netStringSet2rangeSet (scriptItems glob (storedText nets))) := by
    rw [scriptItems_storedText items plain]
    exact storedItems_narrow items cuts_isIfs
  obtain ⟨blocks, within, -, tiles, ⟨fuel, run⟩, only⟩ := v4List_narrow narrow
  have cover := tiles.cover_eq
  rw [scriptItems_storedText items plain, (netStringSet2rangeSet_spec _).2] at cover
  refine ⟨blocks, within, fun quad => ?_, ?_, ⟨fuel, ?_⟩, fun fuel ipList printed => ?_⟩
  · rw [cover, denote_storedItems cuts_isIfs items]
  · rw [← denote_eq_empty_iff items cuts_isIfs, ← cover, AlignedBlock.eq_nil_iff_cover]
  · rw [formatIpStrings_eq, run, v6List_storedText items plain]
    rfl
  · rw [formatIpStrings_eq, v6List_storedText items plain] at printed
    obtain ⟨line, given, rfl⟩ := Option.map_eq_some_iff.mp printed
    rw [only fuel line given]

end Blocks

/-! ## What the script selects -/

/-- The item gets into the selector: no white space of the form is left on it, and it is a single one, is written `::/0`,
or has a prefix length other than zero. -/
def keptByScript (nets token : List Char) : Bool :=
  clean isIfs token &&
    ((nets.splitOn ',').length == 1 || jsTrim token == "::/0".toList || !zeroLength (jsTrim token))

section Selected

variable {nets : List Char} (items : ∀ token ∈ nets.splitOn ',', Item (jsTrim token)) {blocks : List CidrBlock}
  (none : blocks = [] ↔ ∀ token ∈ nets.splitOn ',', ':' ∈ jsTrim token)
include none

/-- One word comes of one item. -/
theorem one_word_iff {token : List Char} (listed : token ∈ nets.splitOn ',') (colon : ':' ∈ jsTrim token) :
    blocks.length + (v6Words nets).length = 1 ↔ (nets.splitOn ',').length = 1 := by
  have positive : 0 < (v6Words nets).length :=
    List.length_pos_of_mem (List.mem_map_of_mem (List.mem_filter.mpr ⟨listed, decide_eq_true colon⟩))
  have whole : (∀ token ∈ nets.splitOn ',', ':' ∈ jsTrim token) → (v6Words nets).length = (nets.splitOn ',').length := by
    intro all
    rw [v6Words, List.length_map, List.filter_eq_self.mpr fun token member => decide_eq_true (all token member)]
  constructor
  · intro one
    have empty : blocks = [] := List.length_eq_zero_iff.mp (by omega)
    rw [← whole (none.mp empty), ← one, empty, List.length_nil, Nat.zero_add]
  · intro one
    obtain ⟨only, single⟩ := List.length_eq_one_iff.mp one
    have all : ∀ token ∈ nets.splitOn ',', ':' ∈ jsTrim token := by
      intro other member
      rw [single, List.mem_singleton] at listed member
      rwa [member, ← listed]
    rw [none.mpr all, whole all, one, List.length_nil]

theorem some_word : blocks ≠ [] ∨ v6Words nets ≠ [] := by
  by_contra neither
  simp only [not_or, not_not] at neither
  obtain ⟨token, listed⟩ := List.exists_mem_of_ne_nil _ (List.splitOn_ne_nil ',' nets)
  have colon := none.mp neither.1 token listed
  have word : String.ofList (encode (worn isIfs token)) ∈ v6Words nets :=
    List.mem_map_of_mem (List.mem_filter.mpr ⟨listed, decide_eq_true colon⟩)
  rw [neither.2] at word
  exact absurd word List.not_mem_nil

include items

omit none in
theorem v6Words_colons : ∀ ip ∈ v6Words nets, isIpv6 ip = true := by
  rw [v6Words, ← filter_storedItems cuts_isIfs items]
  exact fun _ member => List.of_mem_filter member

variable (within : Within blocks)
include within

theorem script_ipv6 (addr : Ipv6Bytes) : SelectorMatches (blocks.map CidrBlock.ipcidr ++ v6Words nets) (.ipv6 addr) ↔
    ∃ token ∈ nets.splitOn ',', keptByScript nets token = true ∧ InNet (jsTrim token) (.ipv6 addr) := by
  rw [selectorMatches_ipv6 within (v6Words_colons items) (some_word none)]
  have each : ∀ token ∈ nets.splitOn ',', ':' ∈ jsTrim token →
      ((blocks.length + (v6Words nets).length = 1 ∨ String.ofList (encode (worn isIfs token)) = "::/0" ∨
          zeroLength (String.ofList (encode (worn isIfs token))).toList = false) ∧
        InNet (String.ofList (encode (worn isIfs token))).toList (.ipv6 addr) ↔
          keptByScript nets token = true ∧ InNet (jsTrim token) (.ipv6 addr)) := by
    intro token listed colon
    rw [String.toList_ofList, inNet_worn (items token listed), one_word_iff none listed colon, keptByScript]
    cases spotless : clean isIfs token with
    | false => simp
    | true =>
        rw [encode_worn_of_clean (items token listed) spotless, ← String.toList_inj, String.toList_ofList]
        simp [or_assoc]
  constructor
  · rintro ⟨ip, member, chosen⟩
    obtain ⟨token, inside, rfl⟩ := List.mem_map.mp member
    obtain ⟨listed, colon⟩ := List.mem_filter.mp inside
    exact ⟨token, listed, (each token listed (of_decide_eq_true colon)).mp chosen⟩
  · rintro ⟨token, listed, chosen⟩
    have colon : ':' ∈ jsTrim token := by
      obtain ⟨groups, length, network, -⟩ := chosen.2
      exact network.chars.1
    exact ⟨_, List.mem_map_of_mem (List.mem_filter.mpr ⟨listed, decide_eq_true colon⟩),
      (each token listed colon).mpr chosen⟩

end Selected

end XWrt.Natflow
