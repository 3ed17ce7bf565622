import XWrt.Natflow.NetsForm

/-!
# The items of a network list

The worker and the script cut a stored list at commas and at the white space
that each of them knows. White space that the form trims and a reader does not
know stays on the item. The numbers of an IPv4 item are read through it; an IPv6
item with it is none.
-/

namespace XWrt.Natflow

open Foundation.Text
open Foundation.Numerals
open Ipops

/-! ## Bytes -/

def globChars : List Char := ['*', '?', '[', '\\']

/-- What a reader sees of the white space: no byte of it belongs to an item, and the bytes separate as it does. -/
theorem jsSpaces_bytes : ∀ char ∈ jsSpaces, utf8 char ≠ [] ∧ char ≠ ',' ∧ isItemChar char = false ∧
    ∀ byte ∈ utf8 char, isItemChar byte = false ∧ byte ≠ ',' ∧ byte ∉ globChars ∧
      isSpace byte = isSpace char ∧ isIfs byte = isIfs char := by
  have table : (jsSpaces.all fun char => decide (utf8 char ≠ [] ∧ char ≠ ',' ∧ isItemChar char = false) &&
      (utf8 char).all fun byte => decide (isItemChar byte = false ∧ byte ≠ ',' ∧ byte ∉ globChars ∧
        isSpace byte = isSpace char ∧ isIfs byte = isIfs char)) = true := by decide +kernel
  simpa only [List.all_eq_true, Bool.and_eq_true, decide_eq_true_eq, and_assoc] using table

/-- The characters of the items are plain. -/
theorem itemChar_plain {char : Char} (inside : isItemChar char = true) : utf8 char = [char] ∧ char ≠ ',' ∧
    char ∉ globChars ∧ isSpace char = false ∧ isIfs char = false := by
  have table : ∀ n < 128, isItemChar (Char.ofNat n) = true → utf8 (Char.ofNat n) = [Char.ofNat n] ∧ Char.ofNat n ≠ ',' ∧
      Char.ofNat n ∉ globChars ∧ isSpace (Char.ofNat n) = false ∧ isIfs (Char.ofNat n) = false := by decide +kernel
  have plain := table char.toNat (isItemChar_lt inside)
  rw [Char.ofNat_toNat] at plain
  exact plain inside

/-- White space of a reader: its bytes separate as the character does, and nothing in an item separates. -/
structure Cuts (separates : Char → Bool) : Prop where
  space : ∀ char ∈ jsSpaces, ∀ byte ∈ utf8 char, separates byte = separates char
  item : ∀ char, isItemChar char = true → separates char = false

theorem cuts_isSpace : Cuts isSpace :=
  ⟨fun char member byte inside => ((jsSpaces_bytes char member).2.2.2 byte inside).2.2.2.1, fun _ inside => (itemChar_plain inside).2.2.2.1⟩

theorem cuts_isIfs : Cuts isIfs :=
  ⟨fun char member byte inside => ((jsSpaces_bytes char member).2.2.2 byte inside).2.2.2.2, fun _ inside => (itemChar_plain inside).2.2.2.2⟩

def encode (text : List Char) : List Char := text.flatMap utf8

theorem encode_plain {text : List Char} (plain : ∀ char ∈ text, isItemChar char = true) : encode text = text := by
  induction text with
  | nil => rfl
  | cons first rest ih =>
      rw [List.forall_mem_cons] at plain
      have here : encode (first :: rest) = utf8 first ++ encode rest := List.flatMap_cons
      rw [here, (itemChar_plain plain.1).1, ih plain.2]
      rfl

/-! ## An item of the list -/

/-- The white space before and after an item. -/
def lead (token : List Char) : List Char := token.takeWhile isJsSpace
def trail (token : List Char) : List Char := (token.dropWhile isJsSpace).rtakeWhile isJsSpace

theorem lead_trail (token : List Char) : lead token ++ jsTrim token ++ trail token = token := by
  rw [lead, jsTrim, trail, List.append_assoc, List.rdropWhile_append_rtakeWhile, List.takeWhile_append_dropWhile]

theorem mem_lead {token : List Char} {char : Char} (member : char ∈ lead token) : char ∈ jsSpaces := by
  have space : isJsSpace char = true := List.mem_takeWhile_imp member
  exact of_decide_eq_true space

theorem mem_trail {token : List Char} {char : Char} (member : char ∈ trail token) : char ∈ jsSpaces := by
  have space : isJsSpace char = true := List.mem_rtakeWhile_imp member
  exact of_decide_eq_true space

def inItem (separates : Char → Bool) (char : Char) : Bool := !separates char && char != ','

/-- The item with the white space that stays on it. -/
def worn (separates : Char → Bool) (token : List Char) : List Char :=
  around (inItem separates) (lead token) (jsTrim token) (trail token)

/-- The white space next to the item separates. -/
def clean (separates : Char → Bool) (token : List Char) : Bool :=
  (lead token).getLast?.all separates && (trail token).head?.all separates

theorem Item.chars {core : List Char} (item : Item core) : core ≠ [] ∧ ∀ char ∈ core, isItemChar char = true := by
  cases item with
  | @ipv4 form written =>
      refine ⟨?_, fun char member => (documented_chars written char member).1⟩
      rintro rfl
      have numbers : form.numbers = [] := written.reads.1.symm
      cases form <;> cases numbers
  | ipv6 network =>
      obtain ⟨colon, plain⟩ := network.chars
      exact ⟨List.ne_nil_of_mem colon, plain⟩

theorem inItem_of_space {separates : Char → Bool} {char : Char} (space : char ∈ jsSpaces) :
    inItem separates char = !separates char := by
  rw [inItem, bne_iff_ne.mpr (jsSpaces_bytes char space).2.1, Bool.and_true]

/-- White space before an item ends with a separator, or some of it stays. -/
theorem stays_before (separates : Char → Bool) {spaces : List Char} (known : ∀ char ∈ spaces, char ∈ jsSpaces) :
    spaces.getLast?.all separates = true ∧ spaces.rtakeWhile (inItem separates) = [] ∨
      spaces.getLast?.all separates = false ∧ ∃ char ∈ spaces.rtakeWhile (inItem separates), char ∈ jsSpaces := by
  rcases List.eq_nil_or_concat spaces with rfl | ⟨front, last, rfl⟩
  · exact .inl ⟨rfl, rfl⟩
  · rw [List.concat_eq_append] at known ⊢
    have space := known last (List.mem_append_right _ (.head _))
    rw [List.getLast?_concat, Option.all_some, List.rtakeWhile_concat, inItem_of_space space]
    cases separates last with
    | true => exact .inl ⟨rfl, rfl⟩
    | false => exact .inr ⟨rfl, last, List.mem_append_right _ (.head _), space⟩

theorem stays_after (separates : Char → Bool) {spaces : List Char} (known : ∀ char ∈ spaces, char ∈ jsSpaces) :
    spaces.head?.all separates = true ∧ spaces.takeWhile (inItem separates) = [] ∨
      spaces.head?.all separates = false ∧ ∃ char ∈ spaces.takeWhile (inItem separates), char ∈ jsSpaces := by
  cases spaces with
  | nil => exact .inl ⟨rfl, rfl⟩
  | cons first rest =>
      have space := known first (.head _)
      rw [List.head?_cons, Option.all_some, List.takeWhile_cons, inItem_of_space space]
      cases separates first with
      | true => exact .inl ⟨rfl, rfl⟩
      | false => exact .inr ⟨rfl, first, .head _, space⟩

/-- Nothing stays on a clean item, and white space on another one. -/
theorem worn_cases (separates : Char → Bool) (token : List Char) :
    clean separates token = true ∧ worn separates token = jsTrim token ∨
      clean separates token = false ∧ ∃ char ∈ worn separates token, char ∈ jsSpaces := by
  rw [clean, worn, around]
  rcases stays_before separates (fun char => @mem_lead token char) with ⟨front, none⟩ | ⟨front, char, stays, space⟩
  · rcases stays_after separates (fun char => @mem_trail token char) with ⟨back, none'⟩ | ⟨back, char, stays, space⟩
    · rw [front, back, none, none', List.nil_append, List.append_nil]
      exact .inl ⟨rfl, rfl⟩
    · rw [front, back]
      exact .inr ⟨rfl, char, List.mem_append_right _ stays, space⟩
  · rw [front]
    exact .inr ⟨rfl, char, List.mem_append_left _ (List.mem_append_left _ stays), space⟩

section Token

variable {separates : Char → Bool} (cuts : Cuts separates) {token : List Char}
include cuts

theorem inItem_of_item {char : Char} (inside : isItemChar char = true) : inItem separates char = true := by
  rw [inItem, cuts.item char inside, Bool.not_false, Bool.true_and, bne_iff_ne]
  exact (itemChar_plain inside).2.1

/-- Every character of a token in the stored text is cut as it is in the form. -/
theorem inItem_bytes {char : Char} (known : char ∈ jsSpaces ∨ isItemChar char = true ∨ char = ',') :
    utf8 char ≠ [] ∧ ∀ byte ∈ utf8 char, inItem separates byte = inItem separates char := by
  rcases known with space | item | rfl
  · refine ⟨(jsSpaces_bytes char space).1, fun byte member => ?_⟩
    rw [inItem_of_space space, inItem, cuts.space char space byte member,
      bne_iff_ne.mpr ((jsSpaces_bytes char space).2.2.2 byte member).2.1, Bool.and_true]
  · rw [(itemChar_plain item).1]
    exact ⟨List.cons_ne_nil _ _, fun byte member => by rw [List.mem_singleton.mp member]⟩
  · exact ⟨by decide, fun byte member => by rw [show byte = ',' from List.mem_singleton.mp member]⟩

omit cuts in
theorem encode_spaces {text : List Char} (spaces : ∀ char ∈ text, char ∈ jsSpaces) :
    ∀ byte ∈ encode text, isItemChar byte = false ∧ byte ∉ globChars := by
  intro byte member
  obtain ⟨char, inside, here⟩ := List.mem_flatMap.mp member
  have bytes := (jsSpaces_bytes char (spaces char inside)).2.2.2 byte here
  exact ⟨bytes.1, bytes.2.2.1⟩

variable (item : Item (jsTrim token))
include item

omit cuts in
/-- The stored item, and the bytes that stay on it. -/
theorem encode_worn (separates : Char → Bool) : ∃ before after, encode (worn separates token) = before ++ jsTrim token ++ after ∧
    (∀ byte ∈ before, isItemChar byte = false ∧ byte ∉ globChars) ∧ ∀ byte ∈ after, isItemChar byte = false ∧ byte ∉ globChars := by
  refine ⟨encode ((lead token).rtakeWhile (inItem separates)), encode ((trail token).takeWhile (inItem separates)), ?_, ?_, ?_⟩
  · have core : encode (jsTrim token) = jsTrim token := encode_plain item.chars.2
    rw [worn, around, encode, List.flatMap_append, List.flatMap_append]
    exact congrArg (fun core => encode _ ++ core ++ encode _) core
  · exact encode_spaces fun char member => mem_lead ((List.rtakeWhile_suffix _ _).subset member)
  · exact encode_spaces fun char member => mem_trail ((List.takeWhile_prefix _).subset member)

/-- The words of an item of the list: the item with what stays on it, and white space. -/
theorem words_token : ∃ before after, words (inItem separates) token = before ++ worn separates token :: after ∧
    (∀ piece ∈ before, ∀ char ∈ piece, char ∈ jsSpaces) ∧ ∀ piece ∈ after, ∀ char ∈ piece, char ∈ jsSpaces := by
  refine ⟨words (inItem separates) ((lead token).rdropWhile (inItem separates)),
    words (inItem separates) ((trail token).dropWhile (inItem separates)), ?_, ?_, ?_⟩
  · conv_lhs => rw [← lead_trail token]
    exact words_padded (fun char member => inItem_of_item cuts (item.chars.2 char member)) item.chars.1 _ _
  · exact fun piece member char inside =>
      mem_lead ((List.rdropWhile_prefix _ _).subset (mem_of_mem_words member inside))
  · exact fun piece member char inside =>
      mem_trail ((List.dropWhile_suffix _).subset (mem_of_mem_words member inside))

omit cuts in
theorem token_known : ∀ char ∈ token, char ∈ jsSpaces ∨ isItemChar char = true := by
  intro char member
  rw [← lead_trail token, List.append_assoc] at member
  rcases List.mem_append.mp member with front | member
  · exact .inl (mem_lead front)
  · rcases List.mem_append.mp member with core | back
    · exact .inr (item.chars.2 char core)
    · exact .inl (mem_trail back)

end Token

/-! ## The stored list -/

/-- The items that a reader cuts the stored list into. -/
def storedItems (separates : Char → Bool) (nets : List Char) : List String :=
  (words (inItem separates) (encode nets)).map String.ofList

section Stored

variable {separates : Char → Bool} (cuts : Cuts separates) {nets : List Char}
  (items : ∀ token ∈ nets.splitOn ',', Item (jsTrim token))
include items

theorem nets_known : ∀ char ∈ nets, char ∈ jsSpaces ∨ isItemChar char = true ∨ char = ',' := by
  intro char member
  have whole : [','].intercalate (nets.splitOn ',') = nets := List.intercalate_splitOn ','
  rw [← whole] at member
  rcases mem_intercalate member with comma | ⟨token, listed, inside⟩
  · exact .inr (.inr comma)
  · exact (token_known (items token listed) char inside).imp_right .inl

include cuts

theorem storedItems_eq : storedItems separates nets =
    (nets.splitOn ',').flatMap fun token => (words (inItem separates) token).map fun word => String.ofList (encode word) := by
  have whole : [','].intercalate (nets.splitOn ',') = nets := List.intercalate_splitOn ','
  have comma : inItem separates ',' = false := by simp [inItem]
  have cut : words (inItem separates) nets = (nets.splitOn ',').flatMap (words (inItem separates)) := by
    rw [← words_join comma, whole]
  have bytes := fun char member => inItem_bytes cuts (nets_known items char member)
  have encoded : words (inItem separates) (encode nets) = (words (inItem separates) nets).map encode :=
    words_flatMap (fun char member => (bytes char member).1) fun char member => (bytes char member).2
  rw [storedItems, encoded, cut, List.map_map, List.map_flatMap]
  rfl

theorem mem_storedItems {text : String} (member : text ∈ storedItems separates nets) : ∃ token ∈ nets.splitOn ',',
    text = String.ofList (encode (worn separates token)) ∨
      ∀ byte ∈ text.toList, isItemChar byte = false ∧ byte ∉ globChars := by
  rw [storedItems_eq cuts items] at member
  obtain ⟨token, listed, inside⟩ := List.mem_flatMap.mp member
  obtain ⟨word, here, rfl⟩ := List.mem_map.mp inside
  obtain ⟨before, after, cut, front, back⟩ := words_token cuts (items token listed)
  have blank : (∀ char ∈ word, char ∈ jsSpaces) → ∀ byte ∈ (String.ofList (encode word)).toList, isItemChar byte = false ∧ byte ∉ globChars :=
    fun spaces => by
      rw [String.toList_ofList]
      exact encode_spaces spaces
  rw [cut] at here
  rcases List.mem_append.mp here with early | here
  · exact ⟨token, listed, .inr (blank (front word early))⟩
  · rcases List.mem_cons.mp here with rfl | late
    · exact ⟨token, listed, .inl rfl⟩
    · exact ⟨token, listed, .inr (blank (back word late))⟩

theorem worn_mem {token : List Char} (listed : token ∈ nets.splitOn ',') :
    String.ofList (encode (worn separates token)) ∈ storedItems separates nets := by
  obtain ⟨before, after, cut, -, -⟩ := words_token cuts (items token listed)
  rw [storedItems_eq cuts items]
  refine List.mem_flatMap.mpr ⟨token, listed, List.mem_map.mpr ⟨worn separates token, ?_, rfl⟩⟩
  rw [cut]
  exact List.mem_append_right _ (.head _)

end Stored

/-! ## IPv4 items -/

/-- Characters around the numbers of a text do not matter, as long as there is no digit or slash among them. -/
theorem netString2range_padded {before core after : List Char} (front : ∀ char ∈ before, isItemChar char = false)
    (back : ∀ char ∈ after, isItemChar char = false) :
    netString2range (String.ofList (before ++ core ++ after)) = netString2range (String.ofList core) := by
  have digit : ∀ {char : Char}, isItemChar char = false → char.isDigit = false := fun other => by
    by_contra digit
    rw [isItemChar_of_isDigit (Bool.not_eq_false _ |>.mp digit)] at other
    cases other
  have numbers : getPartsAsNumber (String.ofList (before ++ core ++ after)) = getPartsAsNumber (String.ofList core) := by
    rw [getPartsAsNumber_eq, getPartsAsNumber_eq, String.toList_ofList, String.toList_ofList,
      words_between (fun char member => digit (front char member)) fun char member => digit (back char member)]
  have slash : '/' ∈ (String.ofList (before ++ core ++ after)).toList ↔ '/' ∈ (String.ofList core).toList := by
    have outside : ∀ {text : List Char}, (∀ char ∈ text, isItemChar char = false) → '/' ∉ text :=
      fun other member => absurd (other _ member) (by decide)
    rw [String.toList_ofList, String.toList_ofList, List.mem_append, List.mem_append, or_iff_left (outside back),
      or_iff_right (outside front)]
  unfold netString2range
  rw [numbers]
  simp only [slash]

theorem netString2range_blank {text : String} (blank : ∀ char ∈ text.toList, isItemChar char = false) :
    netString2range text = none := by
  have padded := @netString2range_padded text.toList [] [] blank (List.forall_mem_nil _)
  rw [List.append_nil, List.append_nil, String.ofList_toList] at padded
  rw [padded]
  rfl

/-- What is around an item does not matter to `ipops.lua`. -/
theorem netString2range_worn {token : List Char} (item : Item (jsTrim token)) (separates : Char → Bool) :
    netString2range (String.ofList (encode (worn separates token))) = netString2range (String.ofList (jsTrim token)) := by
  obtain ⟨before, after, written, front, back⟩ := encode_worn item separates
  rw [written]
  exact netString2range_padded (fun byte member => (front byte member).1) fun byte member => (back byte member).1

/-- An item has a colon where its stored form has one. -/
theorem isIpv6_worn {token : List Char} (item : Item (jsTrim token)) (separates : Char → Bool) :
    isIpv6 (String.ofList (encode (worn separates token))) = true ↔ ':' ∈ jsTrim token := by
  obtain ⟨before, after, written, front, back⟩ := encode_worn item separates
  have outside : ∀ {text : List Char}, (∀ byte ∈ text, isItemChar byte = false ∧ byte ∉ globChars) → ':' ∉ text :=
    fun other member => absurd (other _ member).1 (by decide)
  rw [isIpv6_eq_true, String.toList_ofList, written, List.mem_append, List.mem_append, or_iff_left (outside back),
    or_iff_right (outside front)]

/-- An item with a colon is an IPv6 network, and one without it is written in one of the forms of `ipops.lua`. -/
theorem Item.ipv4_of {core : List Char} (item : Item core) (plain : ':' ∉ core) :
    ∃ form, Documented (String.ofList core) form ∧ form.Contiguous ∧ form.network.Nonempty := by
  cases item with
  | ipv4 written contiguous some => exact ⟨_, written, contiguous, some⟩
  | ipv6 network => exact absurd network.chars.1 plain

theorem Item.ipv6_of {core : List Char} (item : Item core) (colon : ':' ∈ core) : ∃ groups length, Ipv6Network core groups length := by
  cases item with
  | ipv4 written => exact absurd rfl (documented_chars written ':' colon).2
  | ipv6 network => exact ⟨_, _, network⟩

section Stored

variable {separates : Char → Bool} (cuts : Cuts separates) {nets : List Char}
  (items : ∀ token ∈ nets.splitOn ',', Item (jsTrim token))
include cuts items

/-- The items without a colon that a reader gets a range from are the IPv4 items of the list. -/
theorem exists_v4_iff {range : Range} :
    (∃ text ∈ (storedItems separates nets).filter fun item => !isIpv6 item, netString2range text = some range) ↔
      ∃ token ∈ nets.splitOn ',', ':' ∉ jsTrim token ∧ netString2range (String.ofList (jsTrim token)) = some range := by
  constructor
  · rintro ⟨text, member, read⟩
    obtain ⟨inside, plain⟩ := List.mem_filter.mp member
    obtain ⟨token, listed, rfl | blank⟩ := mem_storedItems cuts items inside
    · rw [netString2range_worn (items token listed)] at read
      refine ⟨token, listed, ?_, read⟩
      rw [← isIpv6_worn (items token listed) separates]
      simpa using plain
    · rw [netString2range_blank fun char here => (blank char here).1] at read
      cases read
  · rintro ⟨token, listed, plain, read⟩
    refine ⟨_, List.mem_filter.mpr ⟨worn_mem cuts items listed, ?_⟩, (netString2range_worn (items token listed) separates).trans read⟩
    rw [Bool.not_eq_true', ← Bool.not_eq_true, isIpv6_worn (items token listed)]
    exact plain

/-- The IPv4 items denote the addresses of the list, for every reader. -/
theorem denote_storedItems (quad : Quad) :
    (quad.value : ℤ) ∈ denoteStrings ((storedItems separates nets).filter fun item => !isIpv6 item) ↔
      InNets nets (.ipv4 quad) := by
  have below := quad.value_lt
  rw [mem_denoteStrings_small (by omega) (by omega)]
  constructor
  · rintro ⟨text, member, range, read, bounds⟩
    obtain ⟨token, listed, plain, read⟩ := (exists_v4_iff cuts items).mp ⟨text, member, read⟩
    obtain ⟨form, written, contiguous, -⟩ := (items token listed).ipv4_of plain
    obtain ⟨n, inNet, same⟩ := (written.denotes contiguous _).mp ⟨range, read, bounds⟩
    exact ⟨token, listed, form, written, Int.ofNat_inj.mp same ▸ inNet⟩
  · rintro ⟨token, listed, form, written, inNet⟩
    have plain : ':' ∉ jsTrim token := fun colon => (documented_chars written _ colon).2 rfl
    obtain ⟨range, read, first, last, rfl, least, greatest⟩ := netString2range_of_reads written.reads ⟨_, inNet⟩
    obtain ⟨text, member, read⟩ := (exists_v4_iff cuts items).mpr ⟨token, listed, plain, read⟩
    exact ⟨text, member, _, read, Int.ofNat_le.mpr (least.2 inNet), Int.ofNat_le.mpr (greatest.2 inNet)⟩

/-- The IPv6 items, in order. -/
theorem filter_storedItems : (storedItems separates nets).filter isIpv6 =
    ((nets.splitOn ',').filter fun token => ':' ∈ jsTrim token).map fun token => String.ofList (encode (worn separates token)) := by
  have each : ∀ token ∈ nets.splitOn ',',
      ((words (inItem separates) token).map fun word => String.ofList (encode word)).filter isIpv6 =
        if ':' ∈ jsTrim token then [String.ofList (encode (worn separates token))] else [] := by
    intro token listed
    obtain ⟨before, after, cut, front, back⟩ := words_token cuts (items token listed)
    have none : ∀ pieces : List (List Char), (∀ piece ∈ pieces, ∀ char ∈ piece, char ∈ jsSpaces) →
        (pieces.map fun word => String.ofList (encode word)).filter isIpv6 = [] := by
      intro pieces spaces
      refine List.filter_eq_nil_iff.mpr fun text member colon => ?_
      obtain ⟨piece, inside, rfl⟩ := List.mem_map.mp member
      rw [isIpv6_eq_true, String.toList_ofList] at colon
      exact absurd (encode_spaces (spaces piece inside) _ colon).1 (by decide)
    have here := isIpv6_worn (items token listed) separates
    rw [cut, List.map_append, List.map_cons, List.filter_append, none before front, List.nil_append]
    split
    next colon => rw [List.filter_cons_of_pos (here.mpr colon), none after back]
    next plain => rw [List.filter_cons_of_neg (mt here.mp plain), none after back]
  rw [storedItems_eq cuts items, List.filter_flatMap]
  generalize nets.splitOn ',' = tokens at each
  induction tokens with
  | nil => rfl
  | cons token rest ih =>
      rw [List.forall_mem_cons] at each
      rw [List.flatMap_cons, each.1, ih each.2]
      by_cases colon : ':' ∈ jsTrim token
      · simp only [List.filter_cons, colon, decide_true, if_true, List.map_cons, List.singleton_append]
      · simp only [List.filter_cons, colon, decide_false, Bool.false_eq_true, if_false, List.nil_append]

end Stored

end XWrt.Natflow
