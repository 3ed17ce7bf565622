import XWrt.Foundation.BoundedSet
import XWrt.Natflow.HostaclScript

/-!
# The lists of a host access rule

What the script makes of the lists that the form lets through. IPv4 addresses
are exact. IPv6 networks are lost by white space that the shell does not know and
by spellings of `::/0`, and MAC addresses by wildcards and other spellings than
six bytes of two digits with colons.
-/

namespace XWrt.Natflow.Hostacl

open Foundation
open Foundation.Text
open Foundation.Shell
open Foundation.BoundedSet
open Ipops
open UserRecord (MacAddress)

/-! ## Sets -/

theorem toFinset_ipsetAdd {set : List String} (distinct : set.Nodup) (net : String) :
    (ipsetAdd set net).Nodup ∧ (ipsetAdd set net).toFinset = add maxelem set.toFinset net := by
  have card : set.toFinset.card = set.length := List.toFinset_card_of_nodup distinct
  rw [ipsetAdd, add, card]
  by_cases there : net ∈ set
  · have same : insert net set.toFinset = set.toFinset := Finset.insert_eq_of_mem (List.mem_toFinset.mpr there)
    rw [if_pos (.inl there), same, ite_self]
    exact ⟨distinct, rfl⟩
  · by_cases full : maxelem ≤ set.length
    · rw [if_pos (.inr full), if_neg (Nat.not_lt.mpr full)]
      exact ⟨distinct, rfl⟩
    · rw [if_neg (not_or.mpr ⟨there, full⟩), if_pos (Nat.lt_of_not_le full)]
      have fresh := (List.nodup_concat set net).mpr ⟨there, distinct⟩
      rw [List.concat_eq_append] at fresh
      refine ⟨fresh, ?_⟩
      ext item
      simp

/-- The set after some networks, without their order. -/
theorem toFinset_foldl_setAdd (takes : String → Bool) (nets : List String) {set : List String} (distinct : set.Nodup) :
    (nets.foldl (setAdd takes) set).toFinset = addAll maxelem set.toFinset (nets.filter takes) := by
  induction nets generalizing set with
  | nil => rfl
  | cons net nets ih =>
      rw [List.foldl_cons, setAdd]
      cases taken : takes net with
      | true =>
          obtain ⟨still, added⟩ := toFinset_ipsetAdd distinct net
          rw [if_pos rfl, ih still, added, List.filter_cons_of_pos taken, addAll_cons]
      | false => rw [if_neg Bool.false_ne_true, ih distinct, List.filter_cons_of_neg (by simp [taken])]

/-- Where everything fits, the set holds what was taken. -/
theorem mem_foldl_setAdd {takes : String → Bool} {nets : List String} (fits : (nets.filter takes).toFinset.card ≤ maxelem) (net : String) :
    net ∈ nets.foldl (setAdd takes) [] ↔ net ∈ nets ∧ takes net = true := by
  have whole := toFinset_foldl_setAdd takes nets List.nodup_nil
  rw [List.toFinset_nil, addAll_of_fits (by rwa [Finset.empty_union]), Finset.empty_union] at whole
  rw [← List.mem_toFinset, whole, List.mem_toFinset, List.mem_filter]

/-- What is documented of `ipset add`: it takes networks, but none with a prefix length of zero, and a MAC address only as
six bytes of two digits with colons between them. -/
structure Ipset.Documented (ipset : Ipset) : Prop where
  ipv4 : ∀ block : CidrBlock, 0 ≤ block.base → block.last < 2 ^ 32 → block.cidr ≠ 0 → ipset .ipv4 block.ipcidr = true
  halves : ∀ net ∈ ["::/1", "8000::/1"], ipset .ipv6 net = true
  ipv6 : ∀ text : List Char, zeroLength text = true → ipset .ipv6 (String.ofList text) = false
  mac : ∀ text, ipset .mac text = true →
    (text.toList.splitOn ':').length = 6 ∧ ∀ part ∈ text.toList.splitOn ':', part.length = 2 ∧ ∀ char ∈ part, isHexDigit char = true

/-! ## Texts in the script -/

theorem echo_eq_self {text : Text} (first : text.head? ≠ some '-') : echo text = text := by
  unfold echo
  split
  next => exact absurd rfl first
  next => rfl

theorem echo_of_mem {text : Text} {char : Char} (member : char ∈ text) (other : char ∉ ['-', 'n', 'e', 'E']) : echo text = text := by
  unfold echo
  split
  next flag flags =>
    refine if_neg fun all => ?_
    rcases List.mem_cons.mp member with rfl | later
    · exact other List.mem_cons_self
    · exact other (List.mem_cons_of_mem _ (of_decide_eq_true (List.all_eq_true.mp all char later)))
  next => rfl

/-- The words of a loop, where the text is no option and no word is a pattern. -/
theorem listWords_eq {glob : String → List String} {cut : List Char} {text : Text} (whole : echo text = text)
    (literal : ∀ word ∈ words (fun char => !isIfs char && !decide (char ∈ cut)) text, glob (String.ofList word) = [String.ofList word]) :
    listWords glob cut text = (words (fun char => !isIfs char && !decide (char ∈ cut)) text).map String.ofList := by
  have split : words (fun char => !isIfs char) (blanks cut text) = words (fun char => !isIfs char && !decide (char ∈ cut)) text := by
    have replaced := @words_replace_if _ (fun char => !isIfs char) ' ' rfl (fun char => decide (char ∈ cut)) text
    simpa only [blanks, decide_eq_true_eq] using replaced
  rw [listWords, whole, split, List.flatMap_map, List.flatMap_congr literal, List.map_eq_flatMap]

theorem head?_substitution {char : Char} (other : char ≠ '\n') (rest : Text) : (substitution (char :: rest)).head? = some char := by
  obtain ⟨n, whole⟩ := exists_substitution_append (char :: rest)
  cases kept : substitution (char :: rest) with
  | nil =>
      rw [kept, List.nil_append] at whole
      have newline : char ∈ List.replicate n '\n' := whole ▸ List.mem_cons_self
      exact absurd (List.eq_of_mem_replicate newline) other
  | cons first others =>
      rw [kept, List.cons_append, List.cons.injEq] at whole
      rw [List.head?_cons, whole.1]

theorem mem_substitution {text : Text} {char : Char} (other : char ≠ '\n') (member : char ∈ text) : char ∈ substitution text := by
  obtain ⟨n, whole⟩ := exists_substitution_append text
  rw [whole] at member
  exact (List.mem_append.mp member).resolve_right fun newline => other (List.eq_of_mem_replicate newline)

/-! ## IPv4 networks -/

theorem netStringSet2rangeSet_concat (netStrings : List String) (netString : String) :
    netStringSet2rangeSet (netStrings ++ [netString]) = rangeSetAddRange (netStringSet2rangeSet netStrings) (netString2range netString) := by
  rw [netStringSet2rangeSet, List.foldl_append]
  rfl

/-- A newline at the end is nothing to `ipops.lua`. -/
theorem netStringSet2rangeSet_newline (text : List Char) : netStringSet2rangeSet (splitNetStrings (String.ofList (text ++ ['\n']))) =
    netStringSet2rangeSet (splitNetStrings (String.ofList text)) := by
  have newline : ∀ char ∈ ['\n'], isItemChar char = false := by decide
  have comma : ∀ char ∈ ['\n'], (char != ',') = true := by decide
  obtain ⟨last, word⟩ : ∃ last, last = text.rtakeWhile (· != ',') := ⟨_, rfl⟩
  have whole : text.rdropWhile (· != ',') ++ last = text := by rw [word, List.rdropWhile_append_rtakeWhile]
  have longer : words (· != ',') (text ++ ['\n']) = words (· != ',') (text.rdropWhile (· != ',')) ++ [last ++ ['\n']] := by
    have padded := words_padded comma (List.cons_ne_nil _ _) text []
    rwa [List.append_nil, around, ← word, List.takeWhile_nil, List.append_nil, List.dropWhile_nil, words_nil] at padded
  rw [splitNetStrings, String.toList_ofList, longer, List.map_append, List.map_singleton, netStringSet2rangeSet_concat,
    splitNetStrings, String.toList_ofList]
  by_cases none : last = []
  · rw [none, List.append_nil] at whole
    rw [none, List.nil_append, netString2range_blank (by rwa [String.toList_ofList]), rangeSetAddRange, whole]
  · have inside : ∀ char ∈ last, (char != ',') = true := by
      intro char member
      rw [word] at member
      exact @List.mem_rtakeWhile_imp _ (· != ',') text char member
    have shorter : words (· != ',') text = words (· != ',') (text.rdropWhile (· != ',')) ++ [last] := by
      have padded := words_padded inside none (text.rdropWhile (· != ',')) []
      have stops : (text.rdropWhile (· != ',')).rtakeWhile (· != ',') = [] :=
        List.rtakeWhile_eq_nil_iff.mpr (List.rdropWhile_last_not _ _)
      rwa [List.append_nil, whole, around, stops, List.takeWhile_nil, List.append_nil, List.nil_append, List.dropWhile_nil, words_nil,
        List.rdropWhile_idempotent] at padded
    have padded := @netString2range_padded [] last ['\n'] (List.forall_mem_nil _) newline
    rw [List.nil_append] at padded
    rw [shorter, List.map_append, List.map_singleton, netStringSet2rangeSet_concat, padded]

theorem netStrings2ipcidrStrings_substitution (fuel : ℕ) (text : List Char) :
    netStrings2ipcidrStrings fuel (String.ofList (substitution text)) = netStrings2ipcidrStrings fuel (String.ofList text) := by
  obtain ⟨n, whole⟩ := exists_substitution_append text
  have newlines (n : ℕ) : netStringSet2rangeSet (splitNetStrings (String.ofList (substitution text ++ List.replicate n '\n'))) =
      netStringSet2rangeSet (splitNetStrings (String.ofList (substitution text))) := by
    induction n with
    | zero => rw [List.replicate_zero, List.append_nil]
    | succ n ih => rw [List.replicate_succ', ← List.append_assoc, netStringSet2rangeSet_newline, ih]
  rw [netStrings2ipcidrStrings, netStrings2ipcidrStrings, ← newlines n, ← whole]

theorem cuts_never : Cuts fun _ => false := ⟨fun _ _ _ _ => rfl, fun _ _ => rfl⟩

theorem splitNetStrings_storedText (nets : List Char) : splitNetStrings (storedText nets) = storedItems (fun _ => false) nets := by
  rw [splitNetStrings, storedText, String.toList_ofList]
  rfl

/-- Without a colon in the list there is none in its items. -/
theorem filter_storedItems_self {separates : Char → Bool} (cuts : Cuts separates) {nets : List Char}
    (items : ∀ token ∈ nets.splitOn ',', Item (jsTrim token) ∧ ':' ∉ jsTrim token) :
    ((storedItems separates nets).filter fun item => !isIpv6 item) = storedItems separates nets := by
  refine List.filter_eq_self.mpr fun text member => ?_
  rw [Bool.not_eq_true', ← Bool.not_eq_true]
  obtain ⟨token, listed, rfl | blank⟩ := mem_storedItems cuts (fun token listed => (items token listed).1) member
  · rw [isIpv6_worn (items token listed).1]
    exact (items token listed).2
  · rw [isIpv6_eq_true]
    exact fun colon => absurd (blank ':' colon).1 (by decide)

/-- What `ipops.lua` prints for an IPv4 list of the form. -/
theorem ipv4_line {v : Validation} {nets : List Char} (accepted : netsValidate (ipv4TokenValidate v) nets = true) :
    ∃ blocks : List CidrBlock, Within blocks ∧ blocks ≠ [] ∧
      (∀ quad : Quad, (quad.value : ℤ) ∈ AlignedBlock.cover blocks ↔ InNets nets (.ipv4 quad)) ∧
        netStrings2ipcidrStrings (2 ^ 32 + 1) (String.ofList (substitution (encode nets))) = some (blocks.map CidrBlock.ipcidr) ∧
          ∀ fuel line, netStrings2ipcidrStrings fuel (String.ofList (substitution (encode nets))) = some line →
            line = blocks.map CidrBlock.ipcidr := by
  have items := ipv4_items accepted
  have known := fun token listed => (items token listed).1
  have same := filter_storedItems_self cuts_never items
  have narrow : Narrow (netStringSet2rangeSet (splitNetStrings (storedText nets))) := by
    rw [splitNetStrings_storedText, ← same]
    exact storedItems_narrow known cuts_never
  obtain ⟨blocks, -, tiles, run, only⟩ := netStrings2ipcidrStrings_narrow narrow
  have cover := tiles.cover_eq
  have within := within_of_cover (fun range => parsed_lo_nonneg) narrow cover
  rw [(netStringSet2rangeSet_spec _).2, splitNetStrings_storedText, ← same] at cover
  refine ⟨blocks, within, fun none => ?_, fun quad => ?_, ?_, fun fuel line printed => ?_⟩
  · obtain ⟨token, listed⟩ := List.exists_mem_of_ne_nil _ (List.splitOn_ne_nil ',' nets)
    rw [AlignedBlock.eq_nil_iff_cover, cover, denote_eq_empty_iff known cuts_never] at none
    exact (items token listed).2 (none token listed)
  · rw [cover, denote_storedItems cuts_never known]
  · rw [netStrings2ipcidrStrings_substitution]
    exact run
  · rw [netStrings2ipcidrStrings_substitution] at printed
    exact only fuel line printed

section Blocks

variable {blocks : List CidrBlock} (within : Within blocks)
include within

theorem ipcidr_chars {block : CidrBlock} (member : block ∈ blocks) : block.ipcidr.toList ≠ [] ∧
    ∀ char ∈ block.ipcidr.toList, isItemChar char = true ∧ char ≠ '-' := by
  obtain ⟨x, starts⟩ := Int.eq_ofNat_of_zero_le (within block member).1
  rw [ipcidr_toList starts]
  refine ⟨?_, fun char inside => ?_⟩
  · simp [octets, printedParts]
  · rcases mem_printedParts inside with digit | separator
    · refine ⟨isItemChar_of_isDigit digit, ?_⟩
      rintro rfl
      exact absurd digit (by decide)
    · have table : ∀ char ∈ ['.', '.', '.', '/'], isItemChar char = true ∧ char ≠ '-' := by decide
      exact table char separator

/-- The words of the line, for `wc` and for the loop. -/
theorem words_printed {separates : Char → Bool} (cuts : Cuts separates) (space : separates ' ' = true) :
    words (fun char => !separates char) (blanks [','] (echo (printed (blocks.map CidrBlock.ipcidr)))) =
      blocks.map fun block => block.ipcidr.toList := by
  have pieces : ∀ piece ∈ (blocks.map CidrBlock.ipcidr).map String.toList, piece ≠ [] ∧ ∀ char ∈ piece, isItemChar char = true ∧ char ≠ '-' := by
    intro piece member
    obtain ⟨text, inside, rfl⟩ := List.mem_map.mp member
    obtain ⟨block, here, rfl⟩ := List.mem_map.mp inside
    exact ipcidr_chars within here
  have first : (printed (blocks.map CidrBlock.ipcidr)).head? ≠ some '-' := by
    intro option
    rcases mem_intercalate (List.mem_of_head? option) with comma | ⟨piece, member, inside⟩
    · exact absurd comma (by decide)
    · exact ((pieces piece member).2 '-' inside).2 rfl
  have replaced := @words_replace_if _ (fun char => !separates char) ' ' (by rw [space]; rfl) (fun char => decide (char ∈ [','])) 
    (printed (blocks.map CidrBlock.ipcidr))
  simp only [decide_eq_true_eq] at replaced
  rw [echo_eq_self first, blanks, replaced, printed, words_intercalate (by simp) _ fun piece member => (pieces piece member).1,
    List.map_map]
  · rfl
  · intro piece member char inside
    have plain := ((pieces piece member).2 char inside).1
    simp [cuts.item char plain, (itemChar_plain plain).2.1]

variable {glob : String → List String} (plain : KeepsPlain glob) {ipset : Ipset} (documented : ipset.Documented)

include plain in
theorem ruleNets_ipv4 (rule : UciRule) :
    ruleNets glob (blocks.map CidrBlock.ipcidr) rule .ipv4 = (elements blocks).map CidrBlock.ipcidr := by
  have literal : ∀ block ∈ blocks, glob block.ipcidr = [block.ipcidr] := fun block member =>
    plain _ fun char inside => (itemChar_plain ((ipcidr_chars within member).2 char inside).1).2.2.1
  have halved : ∀ block ∈ blocks, ipv4setAdd block.ipcidr = halves block.ipcidr := by
    intro block member
    have other : block.ipcidr ≠ "::/0" := by
      intro same
      have colon := isIpv6_ipcidr (within block member).1
      rw [same] at colon
      exact absurd colon (by decide)
    rw [ipv4setAdd, halves, if_neg other]
  have looped : listWords glob [','] (printed (blocks.map CidrBlock.ipcidr)) = blocks.map CidrBlock.ipcidr := by
    rw [listWords, words_printed within cuts_isIfs rfl, List.map_map, List.flatMap_map, List.map_eq_flatMap]
    refine List.flatMap_congr fun block member => ?_
    rw [Function.comp_apply, String.ofList_toList, literal block member]
  rw [ruleNets, looped, ← flatMap_halves within, List.flatMap_map, List.flatMap_map]
  exact List.flatMap_congr halved

theorem hasNets_ipv4 (rule : UciRule) : hasNets (blocks.map CidrBlock.ipcidr) rule .ipv4 = true ↔ blocks ≠ [] := by
  rw [hasNets, words_printed within cuts_isSpace rfl, decide_eq_true_eq, List.length_map, Nat.one_le_iff_ne_zero, ne_eq,
    List.length_eq_zero_iff]

include documented in
/-- The set has the addresses of the blocks. -/
theorem holds_blocks (fits : ((elements blocks).map CidrBlock.ipcidr |>.filter (ipset .ipv4)).toFinset.card ≤ maxelem) (quad : Quad) :
    (∃ net ∈ ((elements blocks).map CidrBlock.ipcidr).foldl (setAdd (ipset .ipv4)) [], InNet net.toList (.ipv4 quad)) ↔
      (quad.value : ℤ) ∈ AlignedBlock.cover blocks := by
  have taken : ∀ half ∈ elements blocks, ipset .ipv4 half.ipcidr = true := by
    intro half member
    obtain ⟨block, inside, piece⟩ := List.mem_flatMap.mp member
    have bounds := within_elements within half member
    exact documented.ipv4 half bounds.1 bounds.2 (cidr_ne_zero piece)
  simp only [mem_foldl_setAdd fits]
  rw [← mem_cover_elements within, AlignedBlock.mem_cover]
  constructor
  · rintro ⟨net, ⟨member, -⟩, inside⟩
    obtain ⟨half, here, rfl⟩ := List.mem_map.mp member
    have bounds := within_elements within half here
    exact ⟨half, here, (inNet_ipcidr bounds.1 bounds.2 quad).mp inside⟩
  · rintro ⟨half, here, inside⟩
    have bounds := within_elements within half here
    have member : CidrBlock.ipcidr half ∈ (elements blocks).map CidrBlock.ipcidr := List.mem_map_of_mem here
    exact ⟨_, ⟨member, taken half here⟩, (inNet_ipcidr bounds.1 bounds.2 quad).mpr inside⟩

end Blocks

/-! ## IPv6 networks -/

/-- White space of the form is stored as bytes that `sed` and a substitution leave alone, newlines apart. -/
theorem jsSpaces_stored : ∀ char ∈ jsSpaces, ∀ byte ∈ utf8 char, byte ≠ '\'' ∧ byte ≠ '-' ∧ (byte = '\n' → char = '\n') := by
  have table : (jsSpaces.all fun char => (utf8 char).all fun byte => decide (byte ≠ '\'' ∧ byte ≠ '-' ∧ (byte = '\n' → char = '\n'))) = true := by
    decide +kernel
  simpa only [List.all_eq_true, decide_eq_true_eq] using table

/-- The item gets into the set: no white space that the shell does not know is next to it, and it is written `::/0` or
is taken as it is. -/
def keptNet (ipset : Ipset) (token : List Char) : Bool :=
  clean isIfs token && (jsTrim token == "::/0".toList || ipset .ipv6 (String.ofList (jsTrim token)))

section Nets6

variable {nets : List Char} (items : ∀ token ∈ nets.splitOn ',', Item (jsTrim token) ∧ ':' ∈ jsTrim token)
include items

theorem stored_ipv6 : ∀ byte ∈ encode nets, byte ≠ '\'' := by
  intro byte member
  obtain ⟨char, inside, here⟩ := List.mem_flatMap.mp member
  rcases nets_known (fun token listed => (items token listed).1) char inside with space | item | rfl
  · exact (jsSpaces_stored char space byte here).1
  · rw [(itemChar_plain item).1, List.mem_singleton] at here
    rintro rfl
    exact absurd (here ▸ item) (by decide)
  · exact (show ∀ byte ∈ utf8 ',', byte ≠ '\'' by decide) byte here

theorem colon_encode : ':' ∈ encode nets := by
  obtain ⟨token, listed⟩ := List.exists_mem_of_ne_nil _ (List.splitOn_ne_nil ',' nets)
  have whole : [','].intercalate (nets.splitOn ',') = nets := List.intercalate_splitOn ','
  have colon : ':' ∈ nets := by
    rw [← whole]
    refine mem_intercalate_of_mem listed ?_
    rw [← lead_trail token]
    exact List.mem_append_left _ (List.mem_append_right _ (items token listed).2)
  exact List.mem_flatMap.mpr ⟨':', colon, by decide⟩

variable {glob : String → List String} (plain : KeepsPlain glob) {rule : UciRule} (given : rule.ipv6 = some (encode nets))
include plain given

theorem ruleNets_ipv6 (line : List String) : ruleNets glob line rule .ipv6 = (storedItems isIfs nets).flatMap ipv6setAdd := by
  have text : got rule.ipv6 = substitution (encode nets) := by
    rw [given]
    rfl
  have cut : words (fun char => !isIfs char && !decide (char ∈ [',', '\''])) (substitution (encode nets)) =
      words (inItem isIfs) (encode nets) := by
    rw [words_substitution (by decide)]
    refine words_congr fun byte member => ?_
    simp [inItem, stored_ipv6 items byte member, bne, beq_eq_decide]
  have echoed : echo (substitution (encode nets)) = substitution (encode nets) :=
    echo_of_mem (mem_substitution (by decide) (colon_encode items)) (by decide)
  have known := fun token listed => (items token listed).1
  have literal : ∀ word ∈ words (inItem isIfs) (encode nets), glob (String.ofList word) = [String.ofList word] := fun word member =>
    plain _ (storedItems_free known (List.mem_map_of_mem member))
  rw [ruleNets, text, listWords_eq echoed (by rwa [cut]), cut]
  rfl

omit plain in
theorem hasNets_ipv6 (line : List String) : hasNets line rule .ipv6 = true := by
  have text : got rule.ipv6 = substitution (encode nets) := by
    rw [given]
    rfl
  rw [hasNets, text, decide_eq_true_eq]
  exact List.ne_nil_of_mem (mem_substitution (by decide) (colon_encode items))

end Nets6

section Set6

variable {ipset : Ipset} (documented : ipset.Documented)
include documented

/-- What gets into the set of a stored item. -/
theorem exists_taken_worn {token : List Char} (item : Item (jsTrim token)) (addr : Ipv6Bytes) :
    (∃ net ∈ ipv6setAdd (String.ofList (encode (worn isIfs token))), ipset .ipv6 net = true ∧ InNet net.toList (.ipv6 addr)) ↔
      keptNet ipset token = true ∧ InNet (jsTrim token) (.ipv6 addr) := by
  cases spotless : clean isIfs token with
  | true =>
      rw [encode_worn_of_clean item spotless, keptNet, spotless, Bool.true_and, Bool.or_eq_true, beq_iff_eq]
      by_cases zero : jsTrim token = "::/0".toList
      · obtain ⟨whole, net, half, inside⟩ := inNet_zero addr
        rw [zero]
        exact iff_of_true ⟨net, half, documented.halves net half, inside⟩ ⟨.inl rfl, whole⟩
      · have other : String.ofList (jsTrim token) ≠ "::/0" := fun same => zero (by rw [← same, String.toList_ofList])
        rw [ipv6setAdd, if_neg other, or_iff_right zero]
        simp only [List.mem_singleton, exists_eq_left, String.toList_ofList]
  | false =>
      refine iff_of_false ?_ fun both => ?_
      · obtain ⟨byte, inside, odd⟩ := exists_byte spotless
        have other : String.ofList (encode (worn isIfs token)) ≠ "::/0" := by
          intro same
          have table : ∀ char ∈ "::/0".toList, isItemChar char = true := by decide
          have plain := table byte (by rwa [← same, String.toList_ofList])
          exact absurd (plain.symm.trans odd) (by decide)
        rw [ipv6setAdd, if_neg other]
        rintro ⟨net, member, -, inNet⟩
        rw [List.mem_singleton.mp member, String.toList_ofList, inNet_worn item, spotless] at inNet
        exact absurd inNet.1 (by decide)
      · have kept := both.1
        rw [keptNet, spotless] at kept
        cases kept

theorem holds_storedItems {nets : List Char} (items : ∀ token ∈ nets.splitOn ',', Item (jsTrim token) ∧ ':' ∈ jsTrim token)
    (fits : (((storedItems isIfs nets).flatMap ipv6setAdd).filter (ipset .ipv6)).toFinset.card ≤ maxelem) (addr : Ipv6Bytes) :
    (∃ net ∈ ((storedItems isIfs nets).flatMap ipv6setAdd).foldl (setAdd (ipset .ipv6)) [], InNet net.toList (.ipv6 addr)) ↔
      ∃ token ∈ nets.splitOn ',', keptNet ipset token = true ∧ InNet (jsTrim token) (.ipv6 addr) := by
  have known := fun token listed => (items token listed).1
  simp only [mem_foldl_setAdd fits]
  constructor
  · rintro ⟨net, ⟨member, taken⟩, inside⟩
    obtain ⟨text, stored, half⟩ := List.mem_flatMap.mp member
    obtain ⟨token, listed, rfl | blank⟩ := mem_storedItems cuts_isIfs known stored
    · exact ⟨token, listed, (exists_taken_worn documented (known token listed) addr).mp ⟨net, half, taken, inside⟩⟩
    · -- A word of nothing but white space is no network.
      have other : text ≠ "::/0" := by
        rintro rfl
        exact absurd (blank ':' (by decide)).1 (by decide)
      rw [ipv6setAdd, if_neg other, List.mem_singleton] at half
      obtain ⟨groups, length, network, -⟩ := inside
      exact absurd (blank ':' (half ▸ network.chars.1)).1 (by decide)
  · rintro ⟨token, listed, both⟩
    obtain ⟨net, half, taken, inside⟩ := (exists_taken_worn documented (known token listed) addr).mpr both
    exact ⟨net, ⟨List.mem_flatMap.mpr ⟨_, worn_mem cuts_isIfs known listed, half⟩, taken⟩, inside⟩

end Set6

/-! ## MAC addresses -/

section Mac

variable {token item : List Char}

theorem macRe_chars (matched : macRe token = true) : ∀ char ∈ token, isItemChar char = true ∨ char = '*' := by
  intro char member
  rw [macRe, Bool.and_eq_true, List.all_eq_true] at matched
  cases separator : isMacSeparator char with
  | true =>
      rw [isMacSeparator, Bool.or_eq_true, beq_iff_eq, beq_iff_eq] at separator
      rcases separator with rfl | rfl
      · exact .inl (by decide)
      · exact .inl (by decide)
  | false =>
      obtain ⟨part, inside, here⟩ := @mem_words _ (fun char => !isMacSeparator char) _ _ member (by rw [separator]; rfl)
      have piece := List.mem_of_mem_filter inside
      simp only [Bool.not_not] at piece
      have shape := matched.2 part piece
      rw [macPartRe, Bool.or_eq_true, beq_iff_eq, Bool.and_eq_true, List.all_eq_true] at shape
      rcases shape with rfl | ⟨-, digits⟩
      · exact .inr (List.mem_singleton.mp here)
      · exact .inl (by rw [isItemChar, digits char here, Bool.true_or])

theorem macRe_head (matched : macRe token = true) : token.head? ≠ some '-' := by
  intro first
  obtain ⟨rest, rfl⟩ := List.head?_eq_some_iff.mp first
  rw [macRe, Bool.and_eq_true, splitOnP_cons_pos rfl, List.all_cons, Bool.and_eq_true] at matched
  exact absurd matched.2.1 (by decide)

theorem isValidMAC_chars (valid : isValidMAC item = true) : ∀ char ∈ item, char ∈ jsSpaces ∨ isItemChar char = true ∨ char = '*' := by
  intro char member
  cases space : isJsSpace char with
  | true => exact .inl (of_decide_eq_true space)
  | false =>
      obtain ⟨token, listed, here⟩ := @mem_words _ (fun char => !isJsSpace char) _ _ member (by rw [space]; rfl)
      exact .inr (macRe_chars (List.all_eq_true.mp valid token listed) char here)

/-- No separator of the loop -/
def inLoop (char : Char) : Bool := !isIfs char && !decide (char ∈ [',', '\''])

theorem inLoop_bytes {char : Char} (known : char ∈ jsSpaces ∨ isItemChar char = true ∨ char = '*') :
    inLoop char = !isIfs char ∧ utf8 char ≠ [] ∧ ∀ byte ∈ utf8 char, inLoop byte = inLoop char := by
  rcases known with space | item | rfl
  · obtain ⟨some, comma, -, bytes⟩ := jsSpaces_bytes char space
    have quote : char ≠ '\'' := by
      rintro rfl
      exact absurd space (by decide)
    refine ⟨by simp [inLoop, comma, quote], some, fun byte member => ?_⟩
    obtain ⟨-, comma', -, -, same⟩ := bytes byte member
    simp [inLoop, comma, quote, comma', (jsSpaces_stored char space byte member).1, same]
  · have quote : char ≠ '\'' := by
      rintro rfl
      exact absurd item (by decide)
    obtain ⟨single, comma, -⟩ := itemChar_plain item
    rw [single]
    exact ⟨by simp [inLoop, comma, quote], List.cons_ne_nil _ _, fun byte member => by rw [List.mem_singleton.mp member]⟩
  · exact ⟨by decide, by decide, by decide⟩

/-- A word that is stored as characters of items is one. -/
theorem plain_of_encode {text : List Char} (plain : ∀ byte ∈ encode text, isItemChar byte = true)
    (known : ∀ char ∈ text, char ∈ jsSpaces ∨ isItemChar char = true ∨ char = '*') : ∀ char ∈ text, isItemChar char = true := by
  intro char member
  rcases known char member with space | item | rfl
  · obtain ⟨some, -, -, bytes⟩ := jsSpaces_bytes char space
    obtain ⟨byte, rest, code⟩ := List.exists_cons_of_ne_nil some
    have inside : byte ∈ utf8 char := code ▸ .head _
    have item := plain byte (List.mem_flatMap.mpr ⟨char, member, inside⟩)
    exact absurd (item.symm.trans (bytes byte inside).1) (by decide)
  · exact item
  · exact plain '*' (List.mem_flatMap.mpr ⟨'*', member, by decide⟩)

end Mac

section Macs

variable {items : List (List Char)} (valid : ∀ item ∈ items, item ≠ [] ∧ '\n' ∉ item ∧ isValidMAC item = true)
include valid

theorem known_macs : ∀ char ∈ [' '].intercalate items, char ∈ jsSpaces ∨ isItemChar char = true ∨ char = '*' := by
  intro char member
  rcases mem_intercalate member with rfl | ⟨item, listed, inside⟩
  · exact .inl (by decide)
  · exact isValidMAC_chars (valid item listed).2.2 char inside

/-- The words that the shell cuts the items into. -/
theorem words_macs : words inLoop (substitution (encode ([' '].intercalate items))) = items.flatMap fun item => (fields item).map encode := by
  have bytes := fun char member => inLoop_bytes (known_macs valid char member)
  have encoded : words inLoop (encode ([' '].intercalate items)) = (words inLoop ([' '].intercalate items)).map encode :=
    words_flatMap (fun char member => (bytes char member).2.1) fun char member => (bytes char member).2.2
  have each : ∀ item ∈ items, words inLoop item = fields item := fun item listed =>
    words_congr fun char member => (inLoop_bytes (isValidMAC_chars (valid item listed).2.2 char member)).1
  rw [words_substitution (by decide), encoded, words_join (by decide), List.flatMap_congr each, List.map_flatMap]

/-- The list starts with no `-`, and not with a newline. -/
theorem head_macs (some : items ≠ []) : ∃ byte, byte ≠ '-' ∧ (substitution (encode ([' '].intercalate items))).head? = .some byte := by
  obtain ⟨item, others, rfl⟩ := List.exists_cons_of_ne_nil some
  obtain ⟨nonempty, single, matched⟩ := valid item (.head _)
  obtain ⟨char, rest, rfl⟩ := List.exists_cons_of_ne_nil nonempty
  have first : ∃ tail, [' '].intercalate ((char :: rest) :: others) = char :: tail := by
    cases others with
    | nil => exact ⟨rest, List.intercalate_singleton⟩
    | cons second others => exact ⟨_, by rw [List.intercalate_cons_cons, List.append_assoc, List.cons_append]⟩
  have stored : ∃ byte bytes, utf8 char = byte :: bytes ∧ byte ≠ '-' ∧ byte ≠ '\n' := by
    cases space : isJsSpace char with
    | true =>
        have space : char ∈ jsSpaces := of_decide_eq_true space
        obtain ⟨byte, bytes, code⟩ := List.exists_cons_of_ne_nil (jsSpaces_bytes char space).1
        obtain ⟨-, dash, newline⟩ := jsSpaces_stored char space byte (code ▸ .head _)
        exact ⟨byte, bytes, code, dash, fun same => single (newline same ▸ .head _)⟩
    | false =>
        -- The character starts the first token.
        obtain ⟨pieces, cut⟩ := splitOnP_first isJsSpace (char :: rest)
        rw [List.takeWhile_cons_of_pos (by rw [space]; rfl)] at cut
        have token : char :: rest.takeWhile (fun item => !isJsSpace item) ∈ toArray (char :: rest) := by
          refine List.mem_filter.mpr ⟨?_, rfl⟩
          simp only [Bool.not_not]
          exact cut ▸ List.mem_cons_self
        have mac := List.all_eq_true.mp matched _ token
        have dash : char ≠ '-' := fun same => macRe_head mac (same ▸ rfl)
        have newline : char ≠ '\n' := fun same => single (same ▸ .head _)
        rcases macRe_chars mac char (.head _) with item | rfl
        · exact ⟨char, [], (itemChar_plain item).1, dash, newline⟩
        · exact ⟨'*', [], by decide, dash, newline⟩
  obtain ⟨tail, whole⟩ := first
  obtain ⟨byte, bytes, code, dash, newline⟩ := stored
  refine ⟨byte, dash, ?_⟩
  rw [whole, encode, List.flatMap_cons, code]
  exact head?_substitution newline _

variable {glob : String → List String} (unmatched : ∀ item ∈ items, ∀ word ∈ fields item, glob (String.ofList (encode word)) = [String.ofList (encode word)])
  {rule : UciRule} (some : items ≠ []) (given : rule.mac = .some (encode ([' '].intercalate items)))
include some given

theorem hasNets_mac (line : List String) : hasNets line rule .mac = true := by
  have text : got rule.mac = substitution (encode ([' '].intercalate items)) := by
    rw [given]
    rfl
  obtain ⟨byte, -, first⟩ := head_macs valid some
  rw [hasNets, text, decide_eq_true_eq]
  intro none
  rw [none] at first
  cases first

include unmatched

theorem ruleNets_mac (line : List String) :
    ruleNets glob line rule .mac = items.flatMap fun item => (fields item).map fun word => String.ofList (encode word) := by
  have text : got rule.mac = substitution (encode ([' '].intercalate items)) := by
    rw [given]
    rfl
  obtain ⟨byte, dash, first⟩ := head_macs valid some
  have echoed : echo (substitution (encode ([' '].intercalate items))) = substitution (encode ([' '].intercalate items)) :=
    echo_eq_self (by rw [first]; simpa using dash)
  have cut := words_macs valid
  have literal : ∀ word ∈ words inLoop (substitution (encode ([' '].intercalate items))), glob (String.ofList word) = [String.ofList word] := by
    intro word member
    rw [cut] at member
    obtain ⟨item, listed, inside⟩ := List.mem_flatMap.mp member
    obtain ⟨field, here, rfl⟩ := List.mem_map.mp inside
    exact unmatched item listed field here
  have looped : listWords glob [',', '\''] (substitution (encode ([' '].intercalate items))) =
      (words inLoop (substitution (encode ([' '].intercalate items)))).map String.ofList := listWords_eq echoed literal
  rw [ruleNets, text, looped, cut, List.map_flatMap]
  refine List.flatMap_congr fun item _ => ?_
  rw [List.map_map]
  rfl

omit unmatched some given

variable {ipset : Ipset} (documented : ipset.Documented)
include documented

omit valid in
theorem plain_of_taken {text : List Char} (taken : ipset .mac (String.ofList text) = true) : ∀ char ∈ text, isItemChar char = true := by
  intro char member
  have whole : [':'].intercalate (text.splitOn ':') = text := List.intercalate_splitOn ':'
  have parts := (documented.mac _ taken).2
  rw [String.toList_ofList] at parts
  rw [← whole] at member
  rcases mem_intercalate member with rfl | ⟨part, inside, here⟩
  · decide
  · rw [isItemChar, (parts part inside).2 char here, Bool.true_or]

/-- The words that `ipset add` takes are tokens of the form, in the characters of items. -/
theorem taken_field {item word : List Char} (listed : item ∈ items) (field : word ∈ fields item)
    (taken : ipset .mac (String.ofList (encode word)) = true) : encode word = word ∧ word ∈ toArray item := by
  have known : ∀ char ∈ word, char ∈ jsSpaces ∨ isItemChar char = true ∨ char = '*' := fun char member =>
    isValidMAC_chars (valid item listed).2.2 char (mem_of_mem_words field member)
  have plain := plain_of_encode (plain_of_taken documented taken) known
  refine ⟨encode_plain plain, ?_⟩
  have finer : ∀ char, isBlank char = true → isJsSpace char = true := by
    intro char blank
    rw [isBlank, Bool.or_eq_true, Bool.or_eq_true, beq_iff_eq, beq_iff_eq, beq_iff_eq] at blank
    rcases blank with (rfl | rfl) | rfl
    · decide
    · decide
    · decide
  refine mem_words_of_free finer field fun char member => ?_
  by_contra space
  have space : char ∈ jsSpaces := of_decide_eq_true (Bool.not_eq_false _ |>.mp space)
  exact absurd ((jsSpaces_bytes char space).2.2.1.symm.trans (plain char member)) (by decide)

theorem holds_fields (fits : ((items.flatMap fun item => (fields item).map fun word => String.ofList (encode word)).filter (ipset .mac)).toFinset.card ≤ maxelem)
    (mac : MacAddress) :
    (∃ text ∈ (items.flatMap fun item => (fields item).map fun word => String.ofList (encode word)).foldl (setAdd (ipset .mac)) [],
        InMac text.toList mac) ↔
      ∃ item ∈ items, ∃ word ∈ fields item, ipset .mac (String.ofList word) = true ∧ InMac word mac := by
  simp only [mem_foldl_setAdd fits]
  constructor
  · rintro ⟨text, ⟨member, taken⟩, inside⟩
    obtain ⟨item, listed, here⟩ := List.mem_flatMap.mp member
    obtain ⟨word, field, rfl⟩ := List.mem_map.mp here
    have same := (taken_field valid documented listed field taken).1
    rw [same] at taken inside
    exact ⟨item, listed, word, field, taken, by rwa [String.toList_ofList] at inside⟩
  · rintro ⟨item, listed, word, field, taken, inside⟩
    have same : encode word = word := encode_plain (plain_of_taken documented taken)
    refine ⟨String.ofList (encode word), ⟨List.mem_flatMap.mpr ⟨item, listed, List.mem_map_of_mem field⟩, ?_⟩, ?_⟩
    · rwa [same]
    · rwa [same, String.toList_ofList]

end Macs

end XWrt.Natflow.Hostacl
