import Mathlib.Data.List.Chain
import XWrt.Fakemesh.AcConfig

/-!
# The digest of the wireless settings

`wireless_config_md5` takes the lines of the dump that belong to sections of the
type `wifim`, and when the digest is as before the interfaces are not generated
again. The filter goes by lines that look like the header of a section, also
inside a value. Where no line of a value switches it or reads like the next entry,
the lines say what the sections are, and so what is generated.
-/

namespace XWrt.Fakemesh

open XWrt.Foundation
open Text Shell

/-! ## The filter -/

/-- `/^fakemeshac\.[^.]+=/` -/
def isHeaderLine (line : List Char) : Bool :=
  package <+: line && '=' ∈ ((line.drop package.length).takeWhile (· != '.')).tail

/-- The variable `wireless` after a line. -/
def wirelessAfter (wireless : Bool) (line : List Char) : Bool :=
  if isHeaderLine line then line = line.takeWhile (· != '=') ++ "=wifim".toList else wireless

/-- The lines that awk prints. -/
def wirelessLines : Bool → List (List Char) → List (List Char)
  | _, [] => []
  | wireless, line :: rest =>
      if wirelessAfter wireless line then line :: wirelessLines true rest else wirelessLines false rest

/-- The records of awk: the lines, without an empty one at the end. -/
def records (text : List Char) : List (List Char) :=
  let pieces := lines text
  if pieces.getLast? = some [] then pieces.dropLast else pieces

/-- `wireless_config_md5`; `md5` is what `md5sum` prints of a text. -/
def wirelessConfigMd5 (md5 : List Char → List Char) (role : List Char) (config : AcConfig) : List Char :=
  md5 ("version=2\nrole=".toList ++ role ++ '\n' :: (wirelessLines false (records config.uciShow)).flatMap fun line => line ++ ['\n'])

/-! ## The generator -/

/-- What the script finds of the radios and the packages. -/
structure Radios where
  radios2g : List (List Char)
  radios5g : List (List Char)
  radios6g : List (List Char)
  legacy : List (List Char)
  basicWpad : Bool

/-- `$radios` for a band. -/
def Radios.ofBand (radios : Radios) (band : List Char) : List (List Char) :=
  if band = "2g".toList then radios.radios2g
  else if band = "5g".toList then radios.radios5g
  else if band = "6g".toList then radios.radios6g
  else []

/-- `$bands` with its parts apart. -/
def splitBands (bands : List Char) : List Char :=
  if bands = "2g5g".toList then "2g 5g".toList
  else if bands = "2g5g6g".toList then "2g 5g 6g".toList
  else if bands = "5g6g".toList then "5g 6g".toList
  else if bands = "2g6g".toList then "2g 6g".toList
  else bands

/-- The `uci set` of encryption, key and management frame protection. -/
def securityOptions (band encryption key : List Char) : List (String × List Char) :=
  if encryption ≠ "none".toList then
    (if band = "6g".toList then
      [("encryption", if encryption ∈ ["sae".toList, "sae-mixed".toList, "owe".toList] then encryption else "sae".toList),
        ("ieee80211w", "2".toList)]
    else
      ("encryption", encryption) ::
        if encryption = "sae".toList then [("ieee80211w", "2".toList)]
        else if encryption = "sae-mixed".toList then [("ieee80211w", "1".toList)]
        else []) ++ [("key", key)]
  else if band = "6g".toList then [("encryption", "owe".toList), ("ieee80211w", "2".toList)]
  else [("encryption", "none".toList)]

/-- The options of one section `wifinet$K`, in the order of the `uci set`. -/
def wifiIface (role : List Char) (radios : Radios) (ssid encryption key band radio : List Char) : List (String × List Char) :=
  [("device", radio), ("network", if role = "controller".toList then "lan".toList else "meshx0".toList), ("mode", "ap".toList), ("ssid", ssid),
    ("wpa_group_rekey", "601".toList), ("max_inactivity", "301".toList)] ++ securityOptions band encryption key ++
    (if radio ∈ radios.legacy then [("ifname", "wlan".toList ++ radio.drop 5)]
      else [("ieee80211r", "1".toList), ("ft_over_ds", "1".toList), ("ft_psk_generate_local", "1".toList)]) ++
    if radios.basicWpad then []
    else [("bss_transition", "1".toList), ("wnm_sleep_mode", "1".toList), ("time_advertisement", "2".toList), ("time_zone", "GMT0".toList),
      ("ieee80211k", "1".toList), ("rrm_neighbor_report", "1".toList), ("rrm_beacon_report", "1".toList)]

/-- The sections for one entry. -/
def entryIfaces (role : List Char) (radios : Radios) (options : List (List Char × List Char)) : List (List (String × List Char)) :=
  let get (option : String) : Option (List Char) := (options.lookup option.toList).map substitution
  let bands := (get "band").getD "2g5g".toList
  if (get "enabled").getD "1".toList = "1".toList then
    (fields (splitBands bands)).flatMap fun band => (radios.ofBand band).map fun radio =>
      wifiIface role radios ((get "ssid").getD []) ((get "encryption").getD []) ((get "key").getD []) band radio
  else []

/-- The loop of `agent_sync_config`: the sections `wifinet0`, `wifinet1`, … -/
def wifiIfaces (role : List Char) (radios : Radios) (config : AcConfig) : List (List (String × List Char)) :=
  (config.sections.filter AcSection.isWifim).flatMap fun s => entryIfaces role radios s.options

/-! ## Values that the filter passes over -/

/-- The characters of the names of sections of the type `wifim`. -/
def isShownChar (char : Char) : Bool := isNameChar char || "@[]".toList.contains char

/-- The first line of an entry, and what is left of it. -/
inductive EntryStart where
  | header (name : List Char)
  | option (name option rest : List Char)

/-- The entry that begins with a line. -/
def entryStart? (line : List Char) : Option EntryStart :=
  if package <+: line then
    let text := line.drop package.length
    let name := text.takeWhile isShownChar
    match text.dropWhile isShownChar with
    | '.' :: text =>
        let option := text.takeWhile isNameChar
        match text.dropWhile isNameChar with
        | '=' :: '\'' :: rest => some (.option name option rest)
        | _ => none
    | rest => if rest = "=wifim".toList then some (.header name) else none
  else none

/-- The entry may stand behind an option of the section. -/
def EntryStart.mayFollow (name : List Char) : EntryStart → Bool
  | .header _ => true
  | .option other _ _ => other = name

/-- What follows a line in a value of the section: it does not switch the filter, and does not read like the section's next
entry, or another header, after a quote. -/
def Quiet (name : List Char) (wifim : Bool) (line next : List Char) : Prop :=
  wirelessAfter wifim next = wifim ∧ ¬(wifim ∧ line.getLast? = some '\'' ∧ (entryStart? next).any (·.mayFollow name))

instance (name : List Char) (wifim : Bool) (line next : List Char) : Decidable (Quiet name wifim line next) :=
  inferInstanceAs (Decidable (_ ∧ _))

/-- The lines of a value as they are printed, without what is before the value. -/
def printedLines (value : List Char) : List (List Char) := lines (value ++ ['\''])

/-- No line of a value is taken for another line of the dump. -/
structure AcSection.IsQuiet (s : AcSection) : Prop where
  name : '.' ∉ s.name
  values : ∀ option ∈ s.options, (printedLines option.2).IsChain (Quiet s.name s.isWifim)

namespace AcConfig

/-- The file is quiet when its sections are. -/
def IsQuiet (config : AcConfig) : Prop := ∀ s ∈ config.sections, s.IsQuiet

end AcConfig

/-! ## What the filter prints -/

theorem records_uciShow (config : AcConfig) : records config.uciShow = config.entries.flatMap lines := by
  rw [records, lines_uciShow]
  simp

theorem wirelessLines_append (wireless : Bool) (first second : List (List Char)) :
    wirelessLines wireless (first ++ second) = wirelessLines wireless first ++ wirelessLines (first.foldl wirelessAfter wireless) second := by
  induction first generalizing wireless with
  | nil => rfl
  | cons line rest ih =>
      rw [List.cons_append, wirelessLines, wirelessLines, List.foldl_cons]
      cases wirelessAfter wireless line with
      | true => rw [if_pos rfl, if_pos rfl, ih, List.cons_append]
      | false => rw [if_neg Bool.false_ne_true, if_neg Bool.false_ne_true, ih]

/-- Lines that do not switch the filter. -/
theorem wirelessLines_kept {wireless : Bool} {text : List (List Char)} (kept : ∀ line ∈ text, wirelessAfter wireless line = wireless) :
    wirelessLines wireless text = (if wireless then text else []) ∧ text.foldl wirelessAfter wireless = wireless := by
  induction text with
  | nil => exact ⟨(ite_self _).symm, rfl⟩
  | cons line rest ih =>
      rw [List.forall_mem_cons] at kept
      obtain ⟨printed, after⟩ := ih kept.2
      rw [wirelessLines, List.foldl_cons, kept.1]
      refine ⟨?_, after⟩
      cases wireless with
      | true => rw [if_pos rfl, printed, if_pos rfl, if_pos rfl]
      | false => exact printed

section Lines

variable {s : AcSection}

theorem drop_path (s : AcSection) (rest : List Char) : (s.path ++ rest).drop package.length = s.name ++ rest := by
  rw [AcSection.path, List.append_assoc, List.drop_left]

theorem prefix_path (s : AcSection) (rest : List Char) : package <+: s.path ++ rest := by
  rw [AcSection.path, List.append_assoc]
  exact List.prefix_append _ _

/-- What awk takes for a header, when the text after the package is known. -/
theorem isHeaderLine_path (s : AcSection) (rest : List Char) :
    isHeaderLine (s.path ++ rest) = decide ('=' ∈ ((s.name ++ rest).takeWhile (· != '.')).tail) := by
  rw [isHeaderLine, decide_eq_true (prefix_path s rest), Bool.true_and, drop_path]

/-- What stands after the first `=`, if it is `wifim`. -/
theorem eq_wifim {line front rest : List Char} (split : line = line.takeWhile (· != '=') ++ "=wifim".toList) (whole : line = front ++ '=' :: rest) :
    rest = "wifim".toList := by
  have free : '=' ∉ line.takeWhile (· != '=') := by
    intro member
    have other : ('=' != '=') = true := List.mem_takeWhile_imp (p := (· != '=')) member
    exact absurd other (by decide)
  have ending : "=wifim".toList = '=' :: "wifim".toList := by decide
  rw [ending, whole] at split
  rw [whole] at free
  exact ((List.append_cons_inj_of_notMem free (by decide)).mp split.symm).2.2.symm

theorem name_ne_nil (s : AcSection) : s.name ≠ [] := by
  rcases s.named with ⟨some, -⟩ | ⟨digits, -, shown⟩
  · exact some
  · rw [shown]
    exact List.cons_ne_nil _ _

theorem equals_notMem_name (wifim : s.isWifim = true) : '=' ∉ s.name := by
  intro member
  rcases s.mem_name_of_wifim wifim member with word | mark
  · exact absurd word (by decide)
  · exact absurd mark (by decide)

/-- The header of a section sets the filter to whether its type is `wifim`. -/
theorem wirelessAfter_header (plain : '.' ∉ s.name) (wireless : Bool) : wirelessAfter wireless s.headerEntry = s.isWifim := by
  have inside : ∀ char ∈ s.name, (char != '.') = true := fun char member => bne_iff_ne.mpr fun same => plain (same ▸ member)
  have header : isHeaderLine s.headerEntry = true := by
    obtain ⟨first, name, split⟩ := List.exists_cons_of_ne_nil (name_ne_nil s)
    rw [AcSection.headerEntry, isHeaderLine_path, List.takeWhile_append_of_pos inside, List.takeWhile_cons_of_pos (by decide), split]
    exact decide_eq_true (List.mem_append_right _ List.mem_cons_self)
  rw [wirelessAfter, if_pos header, AcSection.isWifim, Bool.eq_iff_iff, decide_eq_true_eq, beq_iff_eq, AcSection.headerEntry]
  constructor
  · exact fun split => eq_wifim split rfl
  · intro type
    have own : ∀ char ∈ s.path, (char != '=') = true := by
      intro char member
      rcases List.mem_append.mp member with front | name
      · have all : ∀ char ∈ package, (char != '=') = true := by decide
        exact all char front
      · exact bne_iff_ne.mpr fun same => equals_notMem_name (beq_iff_eq.mpr type) (same ▸ name)
    rw [type, List.takeWhile_append_of_pos own, List.takeWhile_cons_of_neg (by decide), List.append_nil]
    rfl

/-- The first line of an option leaves it. -/
theorem wirelessAfter_option (plain : '.' ∉ s.name) (option first : List Char) :
    wirelessAfter s.isWifim (s.optionFront option ++ first) = s.isWifim := by
  have inside : ∀ char ∈ s.name, (char != '.') = true := fun char member => bne_iff_ne.mpr fun same => plain (same ▸ member)
  have whole : s.optionFront option ++ first = s.path ++ '.' :: (option ++ "='".toList ++ first) := by
    simp [AcSection.optionFront]
  rw [whole, wirelessAfter, isHeaderLine_path, List.takeWhile_append_of_pos inside, List.takeWhile_cons_of_neg (by decide), List.append_nil]
  split
  next header =>
    have equals : '=' ∈ s.name := List.mem_of_mem_tail (of_decide_eq_true header)
    have other : s.isWifim = false := Bool.eq_false_iff.mpr fun wifim => equals_notMem_name wifim equals
    rw [other, decide_eq_false_iff_not]
    intro split
    obtain ⟨front, back, name⟩ := List.append_of_mem equals
    have rest : back ++ '.' :: (option ++ "='".toList ++ first) = "wifim".toList :=
      eq_wifim split (show _ = (package ++ front) ++ '=' :: (back ++ '.' :: (option ++ "='".toList ++ first)) by simp [AcSection.path, name])
    have dot : '.' ∈ back ++ '.' :: (option ++ "='".toList ++ first) := List.mem_append_right back List.mem_cons_self
    rw [rest] at dot
    exact absurd dot (by decide)
  next => rfl

/-- What holds between neighbours holds of every element but the first and the one before it. -/
theorem exists_before {α : Type*} {R : α → α → Prop} {first : α} {rest : List α} (chain : (first :: rest).IsChain R) :
    ∀ item ∈ rest, ∃ before, R before item := by
  induction rest generalizing first with
  | nil => exact fun item member => absurd member List.not_mem_nil
  | cons second rest ih =>
      rw [List.isChain_cons_cons] at chain
      rw [List.forall_mem_cons]
      exact ⟨⟨first, chain.1⟩, ih chain.2⟩

/-- The lines of an option. -/
theorem exists_lines_option {option : List Char × List Char} (member : option ∈ s.options) :
    ∃ first others, printedLines option.2 = first :: others ∧ lines (s.optionEntry option) = (s.optionFront option.1 ++ first) :: others := by
  obtain ⟨first, others, split⟩ := List.exists_cons_of_ne_nil (List.splitOnP_ne_nil (· == '\n') (option.2 ++ ['\'']))
  exact ⟨first, others, split, lines_append_front (AcSection.newline_notMem_optionFront member) split⟩

/-- The lines of a quiet section are printed if its type is `wifim`. -/
theorem wirelessLines_section (quiet : s.IsQuiet) (wireless : Bool) :
    wirelessLines wireless (s.entries.flatMap lines) = (if s.isWifim then s.entries.flatMap lines else []) ∧
      (s.entries.flatMap lines).foldl wirelessAfter wireless = s.isWifim := by
  have kept : ∀ line ∈ (s.options.map s.optionEntry).flatMap lines, wirelessAfter s.isWifim line = s.isWifim := by
    intro line member
    obtain ⟨entry, inside, here⟩ := List.mem_flatMap.mp member
    obtain ⟨option, listed, rfl⟩ := List.mem_map.mp inside
    obtain ⟨first, others, printed, split⟩ := exists_lines_option listed
    rw [split, List.mem_cons] at here
    rcases here with rfl | later
    · exact wirelessAfter_option quiet.name option.1 first
    · have chain := quiet.values option listed
      rw [printed] at chain
      obtain ⟨before, silent⟩ := exists_before chain line later
      exact silent.1
  obtain ⟨options, after⟩ := wirelessLines_kept kept
  rw [AcSection.entries, List.flatMap_cons, lines_of_free s.newline_notMem_header, List.singleton_append, wirelessLines, List.foldl_cons,
    wirelessAfter_header quiet.name]
  refine ⟨?_, after⟩
  cases wifim : s.isWifim with
  | true => rw [if_pos rfl, if_pos rfl, ← wifim, options, wifim, if_pos rfl]
  | false =>
      rw [wifim] at options
      exact options

end Lines

/-- The filter prints the sections of the type `wifim` of a quiet file. -/
theorem wirelessLines_uciShow {config : AcConfig} (quiet : config.IsQuiet) :
    wirelessLines false (records config.uciShow) = (config.sections.filter AcSection.isWifim).flatMap fun s => s.entries.flatMap lines := by
  have all : ∀ (sections : List AcSection) (wireless : Bool), (∀ s ∈ sections, s.IsQuiet) →
      wirelessLines wireless ((sections.flatMap AcSection.entries).flatMap lines) =
        (sections.filter AcSection.isWifim).flatMap fun s => s.entries.flatMap lines := by
    intro sections
    induction sections with
    | nil => exact fun _ _ => rfl
    | cons s rest ih =>
        intro wireless quiet
        rw [List.forall_mem_cons] at quiet
        obtain ⟨printed, after⟩ := wirelessLines_section quiet.1 wireless
        rw [List.flatMap_cons, List.flatMap_append, wirelessLines_append, printed, after, ih _ quiet.2]
        cases wifim : s.isWifim with
        | true => rw [if_pos rfl, List.filter_cons_of_pos wifim, List.flatMap_cons]
        | false => rw [if_neg Bool.false_ne_true, List.filter_cons_of_neg (by simp [wifim]), List.nil_append]
  rw [records_uciShow]
  exact all config.sections false quiet

/-! ## What the printed lines say -/

/-- An entry of a section of the type `wifim`. -/
inductive WifimEntry where
  | header (name : List Char)
  | option (name option value : List Char)

namespace WifimEntry

/-- What stands before the value. -/
def front (name key : List Char) : List Char := package ++ name ++ '.' :: key ++ "='".toList

def text : WifimEntry → List Char
  | .header name => package ++ name ++ '=' :: "wifim".toList
  | .option name key value => front name key ++ (value ++ ['\''])

/-- The names are names, and the value is quiet. -/
def Fine : WifimEntry → Prop
  | .header name => ∀ char ∈ name, isShownChar char = true
  | .option name key value => (∀ char ∈ name, isShownChar char = true) ∧ (∀ char ∈ key, isNameChar char = true) ∧
      (printedLines value).IsChain (Quiet name true)

/-- What stands behind an option is a header, or an option of the same section. -/
def Follows : WifimEntry → WifimEntry → Prop
  | .option name _ _, .option other _ _ => other = name
  | _, _ => True

end WifimEntry

section Decode

theorem entryStart?_header {name : List Char} (shown : ∀ char ∈ name, isShownChar char = true) :
    entryStart? (package ++ name ++ '=' :: "wifim".toList) = some (.header name) := by
  rw [entryStart?, List.append_assoc, if_pos (List.prefix_append package _), List.drop_left]
  simp only [takeWhile_stop shown (show isShownChar '=' = false by decide), dropWhile_stop shown (show isShownChar '=' = false by decide)]
  rfl

theorem entryStart?_option {name key : List Char} (shown : ∀ char ∈ name, isShownChar char = true)
    (word : ∀ char ∈ key, isNameChar char = true) (rest : List Char) :
    entryStart? (WifimEntry.front name key ++ rest) = some (.option name key rest) := by
  have whole : WifimEntry.front name key ++ rest = package ++ (name ++ '.' :: (key ++ '=' :: '\'' :: rest)) := by
    have quote : "='".toList = ['=', '\''] := by decide
    simp [WifimEntry.front, quote]
  rw [whole, entryStart?, if_pos (List.prefix_append package _), List.drop_left]
  simp only [takeWhile_stop shown (show isShownChar '.' = false by decide), dropWhile_stop shown (show isShownChar '.' = false by decide),
    takeWhile_stop word (show isNameChar '=' = false by decide), dropWhile_stop word (show isNameChar '=' = false by decide)]

/-- The last line of a value ends with the quote. -/
theorem getLast?_printedLines (value : List Char) : ∃ front last, printedLines value = front ++ [last] ∧ last.getLast? = some '\'' := by
  induction value with
  | nil => exact ⟨[], ['\''], rfl, rfl⟩
  | cons char value ih =>
      obtain ⟨front, last, split, quote⟩ := ih
      rw [printedLines] at split
      rw [printedLines, List.cons_append]
      by_cases newline : char = '\n'
      · rw [newline, lines_cons_newline, split]
        exact ⟨[] :: front, last, rfl, quote⟩
      · have free : '\n' ∉ [char] := List.not_mem_cons_of_ne_of_not_mem (Ne.symm newline) List.not_mem_nil
        cases front with
        | nil =>
            refine ⟨[], char :: last, lines_append_front free split, ?_⟩
            obtain ⟨second, rest, filled⟩ := List.exists_cons_of_ne_nil (List.ne_nil_of_mem (List.mem_of_getLast? quote))
            rw [filled] at quote ⊢
            rw [List.getLast?_cons_cons]
            exact quote
        | cons first front => exact ⟨(char :: first) :: front, last, lines_append_front free split, quote⟩

/-- Two quiet values that begin in the same place end in the same place. -/
theorem printedLines_unique {name value other : List Char} (quiet : (printedLines value).IsChain (Quiet name true))
    (quiet' : (printedLines other).IsChain (Quiet name true)) {rest rest' : List (List Char)}
    (starts : ∀ line ∈ rest.head?, (entryStart? line).any (·.mayFollow name))
    (starts' : ∀ line ∈ rest'.head?, (entryStart? line).any (·.mayFollow name))
    (same : printedLines value ++ rest = printedLines other ++ rest') : value = other ∧ rest = rest' := by
  have ends : ∀ {value other : List Char} {line : List Char} {more : List (List Char)}, (printedLines other).IsChain (Quiet name true) →
      printedLines other = printedLines value ++ line :: more → ¬(entryStart? line).any (·.mayFollow name) := by
    intro value other line more quiet split begins
    obtain ⟨front, last, lines, quote⟩ := getLast?_printedLines value
    rw [split, lines, List.append_assoc, List.singleton_append, List.isChain_append_cons_cons] at quiet
    exact quiet.2.1.2 ⟨rfl, quote, begins⟩
  have lines : printedLines value = printedLines other := by
    rcases List.append_eq_append_iff.mp same with ⟨more, longer, split⟩ | ⟨more, longer, split⟩
    · cases more with
      | nil => rw [longer, List.append_nil]
      | cons line more =>
          rw [split] at starts
          exact absurd (starts line rfl) (ends quiet' longer)
    · cases more with
      | nil => rw [longer, List.append_nil]
      | cons line more =>
          rw [split] at starts'
          exact absurd (starts' line rfl) (ends quiet longer)
  rw [lines] at same
  exact ⟨List.append_cancel_right (lines_injective lines), List.append_cancel_left same⟩

theorem newline_notMem_front {name key : List Char} (shown : ∀ char ∈ name, isShownChar char = true)
    (word : ∀ char ∈ key, isNameChar char = true) : '\n' ∉ WifimEntry.front name key := by
  have names : '\n' ∉ name := fun newline => absurd (shown _ newline) (by decide)
  have keys : '\n' ∉ key := fun newline => absurd (word _ newline) (by decide)
  exact List.not_mem_append (List.not_mem_append (List.not_mem_append (by decide) names) (List.not_mem_cons_of_ne_of_not_mem (by decide) keys))
    (by decide)

theorem lines_header {name : List Char} (shown : ∀ char ∈ name, isShownChar char = true) :
    lines (WifimEntry.header name).text = [(WifimEntry.header name).text] := by
  refine lines_of_free (List.not_mem_append (List.not_mem_append (by decide) fun newline => ?_) (by decide))
  exact absurd (shown _ newline) (by decide)

theorem lines_option {name key : List Char} (value : List Char) (shown : ∀ char ∈ name, isShownChar char = true)
    (word : ∀ char ∈ key, isNameChar char = true) : ∃ first others, printedLines value = first :: others ∧
      lines (WifimEntry.option name key value).text = (WifimEntry.front name key ++ first) :: others := by
  obtain ⟨first, others, split⟩ := List.exists_cons_of_ne_nil (List.splitOnP_ne_nil (· == '\n') (value ++ ['\'']))
  exact ⟨first, others, split, lines_append_front (newline_notMem_front shown word) split⟩

/-- What follows an option begins with an entry that may. -/
theorem starts_of_fine {name key value : List Char} {entries : List WifimEntry} (fine : ∀ entry ∈ entries, entry.Fine)
    (chain : (WifimEntry.option name key value :: entries).IsChain WifimEntry.Follows) :
    ∀ line ∈ (entries.flatMap fun entry => lines entry.text).head?, (entryStart? line).any (·.mayFollow name) := by
  intro line first
  cases entries with
  | nil => cases first
  | cons entry entries =>
      rw [List.flatMap_cons] at first
      have own := fine entry List.mem_cons_self
      cases entry with
      | header other =>
          rw [lines_header own] at first
          cases first
          rw [WifimEntry.text, entryStart?_header own]
          rfl
      | option other key value =>
          obtain ⟨start, others, -, split⟩ := lines_option value own.1 own.2.1
          rw [split] at first
          cases first
          rw [entryStart?_option own.1 own.2.1 start]
          exact decide_eq_true (List.isChain_cons_cons.mp chain).1

/-- The lines of fine entries determine them. -/
theorem entries_unique {entries others : List WifimEntry} (fine : ∀ entry ∈ entries, entry.Fine) (fine' : ∀ entry ∈ others, entry.Fine)
    (chain : entries.IsChain WifimEntry.Follows) (chain' : others.IsChain WifimEntry.Follows)
    (same : (entries.flatMap fun entry => lines entry.text) = others.flatMap fun entry => lines entry.text) : entries = others := by
  have some (entry : WifimEntry) : lines entry.text ≠ [] := List.splitOnP_ne_nil (· == '\n') entry.text
  induction entries generalizing others with
  | nil =>
      cases others with
      | nil => rfl
      | cons other others => exact absurd (List.append_eq_nil_iff.mp same.symm).1 (some other)
  | cons entry entries ih =>
      cases others with
      | nil => exact absurd (List.append_eq_nil_iff.mp same).1 (some entry)
      | cons other others =>
          rw [List.forall_mem_cons] at fine fine'
          rw [List.flatMap_cons, List.flatMap_cons] at same
          cases entry with
          | header name =>
              have start := entryStart?_header fine.1
              rw [lines_header fine.1, List.singleton_append] at same
              cases other with
              | header name' =>
                  rw [lines_header fine'.1, List.singleton_append, List.cons.injEq] at same
                  have start' := entryStart?_header fine'.1
                  have first : package ++ name ++ '=' :: "wifim".toList = package ++ name' ++ '=' :: "wifim".toList := same.1
                  rw [← first, start, Option.some.injEq, EntryStart.header.injEq] at start'
                  rw [start', ih fine.2 fine'.2 chain.tail chain'.tail same.2]
              | option name' key' value' =>
                  obtain ⟨first', others', -, split⟩ := lines_option value' fine'.1.1 fine'.1.2.1
                  rw [split, List.cons_append, List.cons.injEq] at same
                  have start' := entryStart?_option fine'.1.1 fine'.1.2.1 first'
                  have first : package ++ name ++ '=' :: "wifim".toList = WifimEntry.front name' key' ++ first' := same.1
                  rw [← first, start] at start'
                  cases start'
          | option name key value =>
              obtain ⟨first, more, printed, split⟩ := lines_option value fine.1.1 fine.1.2.1
              have start := entryStart?_option fine.1.1 fine.1.2.1 first
              rw [split, List.cons_append] at same
              cases other with
              | header name' =>
                  rw [lines_header fine'.1, List.singleton_append, List.cons.injEq] at same
                  have start' := entryStart?_header fine'.1
                  have first' : WifimEntry.front name key ++ first = package ++ name' ++ '=' :: "wifim".toList := same.1
                  rw [← first', start] at start'
                  cases start'
              | option name' key' value' =>
                  obtain ⟨first', more', printed', split'⟩ := lines_option value' fine'.1.1 fine'.1.2.1
                  rw [split', List.cons_append, List.cons.injEq] at same
                  have start' := entryStart?_option fine'.1.1 fine'.1.2.1 first'
                  rw [← same.1, start, Option.some.injEq, EntryStart.option.injEq] at start'
                  obtain ⟨sameName, sameKey, sameFirst⟩ := start'
                  have quiet := fine'.1.2.2
                  have starts := starts_of_fine fine'.2 chain'
                  rw [← sameName] at quiet starts
                  have values : printedLines value ++ (entries.flatMap fun entry => lines entry.text) =
                      printedLines value' ++ others.flatMap fun entry => lines entry.text := by
                    rw [printed, printed', List.cons_append, List.cons_append, sameFirst, same.2]
                  obtain ⟨sameValue, later⟩ := printedLines_unique fine.1.2.2 quiet (starts_of_fine fine.2 chain) starts values
                  rw [sameName, sameKey, sameValue, ih fine.2 fine'.2 chain.tail chain'.tail later]

/-- The entries of a section. -/
def AcSection.wifimEntries (s : AcSection) : List WifimEntry := .header s.name :: s.options.map fun option => .option s.name option.1 option.2

theorem map_text_wifimEntries {s : AcSection} (wifim : s.isWifim = true) : s.wifimEntries.map WifimEntry.text = s.entries := by
  have header : s.headerEntry = (WifimEntry.header s.name).text := by
    rw [AcSection.headerEntry, eq_of_beq wifim]
    rfl
  rw [AcSection.wifimEntries, List.map_cons, List.map_map, AcSection.entries, header]
  rfl

theorem fine_wifimEntries {s : AcSection} (wifim : s.isWifim = true) (quiet : s.IsQuiet) : ∀ entry ∈ s.wifimEntries, entry.Fine := by
  have shown : ∀ char ∈ s.name, isShownChar char = true := by
    intro char member
    rw [isShownChar, Bool.or_eq_true, List.contains_iff_mem]
    exact s.mem_name_of_wifim wifim member
  rw [AcSection.wifimEntries, List.forall_mem_cons]
  refine ⟨shown, fun entry member => ?_⟩
  obtain ⟨option, listed, rfl⟩ := List.mem_map.mp member
  have chain := quiet.values option listed
  rw [wifim] at chain
  exact ⟨shown, List.all_eq_true.mp (s.optionsNamed option listed).2, chain⟩

/-- Options of one section may follow each other. -/
theorem follows_options (name : List Char) (options : List (List Char × List Char)) :
    (options.map fun option => WifimEntry.option name option.1 option.2).IsChain WifimEntry.Follows := by
  induction options with
  | nil => exact .nil
  | cons option rest ih =>
      rw [List.map_cons, List.isChain_cons]
      refine ⟨fun next first => ?_, ih⟩
      obtain ⟨second, -, rfl⟩ := List.mem_map.mp (List.mem_of_mem_head? first)
      exact rfl

/-- The entries of sections one after the other. -/
theorem follows_wifimEntries (sections : List AcSection) :
    (sections.flatMap AcSection.wifimEntries).IsChain WifimEntry.Follows := by
  induction sections with
  | nil => exact .nil
  | cons s rest ih =>
      rw [List.flatMap_cons, List.isChain_append]
      refine ⟨List.isChain_cons.mpr ⟨fun _ _ => trivial, follows_options s.name s.options⟩, ih, fun entry _ next first => ?_⟩
      -- The next section begins with its header.
      cases rest with
      | nil => exact absurd first (by simp)
      | cons second rest =>
          rw [List.flatMap_cons, AcSection.wifimEntries, List.cons_append, List.head?_cons, Option.mem_some_iff] at first
          rw [← first]
          cases entry <;> trivial

/-- The options of the sections, from their entries: those that no header has claimed yet, and those of each header. -/
def claim (entry : WifimEntry) : List (List Char × List Char) × List (List (List Char × List Char)) →
    List (List Char × List Char) × List (List (List Char × List Char))
  | (waiting, claimed) =>
      match entry with
      | .header _ => ([], waiting :: claimed)
      | .option _ key value => ((key, value) :: waiting, claimed)

theorem foldr_claim (sections : List AcSection) :
    (sections.flatMap AcSection.wifimEntries).foldr claim ([], []) = ([], sections.map AcSection.options) := by
  induction sections with
  | nil => rfl
  | cons s rest ih =>
      have own : ∀ (options : List (List Char × List Char)) (claimed : List (List (List Char × List Char))),
          (options.map fun option => WifimEntry.option s.name option.1 option.2).foldr claim ([], claimed) = (options, claimed) := by
        intro options claimed
        induction options with
        | nil => rfl
        | cons option options ih => rw [List.map_cons, List.foldr_cons, ih, claim]
      rw [List.flatMap_cons, List.foldr_append, ih, AcSection.wifimEntries, List.foldr_cons, own, claim, List.map_cons]

end Decode

theorem flatMap_line_injective {first second : List (List Char)} (free : ∀ line ∈ first, '\n' ∉ line) (free' : ∀ line ∈ second, '\n' ∉ line)
    (same : (first.flatMap fun line => line ++ ['\n']) = second.flatMap fun line => line ++ ['\n']) : first = second := by
  have single : ∀ text : List (List Char), (∀ line ∈ text, '\n' ∉ line) → lines (text.flatMap fun line => line ++ ['\n']) = text ++ [[]] := by
    intro text free
    have whole := lines_flatMap text []
    rw [List.append_nil, List.flatMap_congr fun line member => lines_of_free (free line member), List.flatMap_singleton'] at whole
    exact whole
  have cut := congrArg lines same
  rw [single first free, single second free'] at cut
  exact List.append_cancel_right cut

/-- Two quiet files with one digest make the same interfaces. -/
theorem wifiIfaces_of_digest {md5 : List Char → List Char} (distinct : Function.Injective md5) {first second : AcConfig}
    (quiet : first.IsQuiet) (quiet' : second.IsQuiet) (role : List Char) (radios : Radios)
    (same : wirelessConfigMd5 md5 role first = wirelessConfigMd5 md5 role second) : wifiIfaces role radios first = wifiIfaces role radios second := by
  have texts := distinct same
  rw [List.append_cancel_left_eq, List.cons.injEq] at texts
  have printed {config : AcConfig} (quiet : config.IsQuiet) : wirelessLines false (records config.uciShow) =
      ((config.sections.filter AcSection.isWifim).flatMap AcSection.wifimEntries).flatMap fun entry => lines entry.text := by
    rw [wirelessLines_uciShow quiet, List.flatMap_assoc]
    refine List.flatMap_congr fun s member => ?_
    rw [← map_text_wifimEntries (List.mem_filter.mp member).2, List.flatMap_map]
  have free {entries : List WifimEntry} : ∀ line ∈ entries.flatMap fun entry => lines entry.text, '\n' ∉ line := by
    intro line member
    obtain ⟨entry, -, inside⟩ := List.mem_flatMap.mp member
    exact newline_notMem_lines inside
  have fine {config : AcConfig} (quiet : config.IsQuiet) :
      ∀ entry ∈ (config.sections.filter AcSection.isWifim).flatMap AcSection.wifimEntries, entry.Fine := by
    intro entry member
    obtain ⟨s, listed, inside⟩ := List.mem_flatMap.mp member
    obtain ⟨listed, wifim⟩ := List.mem_filter.mp listed
    exact fine_wifimEntries wifim (quiet s listed) entry inside
  rw [printed quiet, printed quiet'] at texts
  have entries := entries_unique (fine quiet) (fine quiet') (follows_wifimEntries _) (follows_wifimEntries _)
    (flatMap_line_injective free free texts.2)
  have options := congrArg (List.foldr claim ([], [])) entries
  rw [foldr_claim, foldr_claim, Prod.mk.injEq] at options
  calc wifiIfaces role radios first
    _ = ((first.sections.filter AcSection.isWifim).map AcSection.options).flatMap (entryIfaces role radios) := by
      rw [List.flatMap_map, wifiIfaces]
    _ = ((second.sections.filter AcSection.isWifim).map AcSection.options).flatMap (entryIfaces role radios) := by rw [options.2]
    _ = wifiIfaces role radios second := by rw [List.flatMap_map, wifiIfaces]

/-- A section without anything but a name for the mesh. -/
def namedSection (id : List Char) : AcSection where
  name := "default".toList
  type := "fakemesh".toList
  options := [("id".toList, id)]
  named := defaultSection.named
  typed := defaultSection.typed
  optionsNamed option member :=
    have names : ∀ name ∈ ["id".toList], name ≠ [] ∧ name.all isNameChar := by decide
    names option.1 (List.mem_map_of_mem (f := Prod.fst) member)

def renamedFile (id : List Char) : AcConfig where
  sections := [keyedRow "Test WiFi".toList "psk2".toList "test-password".toList, namedSection id]
  distinct := show ["@wifim[0]".toList, "default".toList].Nodup by decide

def oneRadio : Radios := ⟨["radio0".toList], [], [], [], true⟩

theorem wifiIfaces_of_digest_renamed :
    wifiIfaces "agent".toList oneRadio (renamedFile "one".toList) = wifiIfaces "agent".toList oneRadio (renamedFile "two".toList) := by
  have row : (keyedRow "Test WiFi".toList "psk2".toList "test-password".toList).IsQuiet := ⟨by decide, by decide⟩
  have first : (renamedFile "one".toList).IsQuiet := by
    rw [AcConfig.IsQuiet, renamedFile, List.forall_mem_cons, List.forall_mem_singleton]
    exact ⟨row, by decide, by decide⟩
  have second : (renamedFile "two".toList).IsQuiet := by
    rw [AcConfig.IsQuiet, renamedFile, List.forall_mem_cons, List.forall_mem_singleton]
    exact ⟨row, by decide, by decide⟩
  have same : wirelessConfigMd5 id "agent".toList (renamedFile "one".toList) = wirelessConfigMd5 id "agent".toList (renamedFile "two".toList) := by
    decide +kernel
  exact wifiIfaces_of_digest Function.injective_id first second "agent".toList oneRadio same

/-- A network name with a second line that looks like a header. -/
def forgedSsid : List Char := "a\nfakemeshac.x=y".toList

/-- After such a name the key is not in the digest. -/
theorem forgedSsid_hides_key :
    (controllerFile forgedSsid "psk2".toList "test-password".toList).validateAcConfig = true ∧
      (controllerFile forgedSsid "psk2".toList "other-password".toList).validateAcConfig = true ∧
      (∀ md5, wirelessConfigMd5 md5 "agent".toList (controllerFile forgedSsid "psk2".toList "test-password".toList) =
        wirelessConfigMd5 md5 "agent".toList (controllerFile forgedSsid "psk2".toList "other-password".toList)) ∧
      wifiIfaces "agent".toList oneRadio (controllerFile forgedSsid "psk2".toList "test-password".toList) ≠
        wifiIfaces "agent".toList oneRadio (controllerFile forgedSsid "psk2".toList "other-password".toList) := by
  have printed : wirelessLines false (records (controllerFile forgedSsid "psk2".toList "test-password".toList).uciShow) =
      wirelessLines false (records (controllerFile forgedSsid "psk2".toList "other-password".toList).uciShow) := by decide +kernel
  refine ⟨by decide +kernel, by decide +kernel, fun md5 => ?_, by decide +kernel⟩
  rw [wirelessConfigMd5, wirelessConfigMd5, printed]

end XWrt.Fakemesh
