import XWrt.Foundation.Keyed
import XWrt.Fakemesh.ConfigDump
import XWrt.Fakemesh.Nodes

/-!
# Accepting a configuration

Three sets of rules for one file: what the settings form saves, what
`validate_enabled_config` asks for when the controller starts, and what
`validate_ac_config` asks for before an agent takes the file over.
-/

namespace XWrt.Fakemesh

open XWrt.Foundation
open Text Shell

/-! ## The validators -/

/-- `valid_wireless_key` -/
def validWirelessKey (key encryption : List Char) : Bool :=
  if '\n' ∈ key ∨ '\r' ∈ key then false
  else if key.length = 64 then
    encryption ∈ ["psk".toList, "psk2".toList, "psk-mixed".toList] && key.all isHexDigit
  else 8 ≤ key.length && key.length ≤ 63

/-- `0|[1-9]|[1-9][0-9]|[1-9][0-9][0-9]`, at most 255 -/
def validOctet (octet : List Char) : Bool :=
  octet ≠ [] && octet.length ≤ 3 && octet.all Char.isDigit && (octet.head? ≠ some '0' || octet.length = 1) &&
    octet.foldl (fun number char => 10 * number + (char.toNat - 48)) 0 ≤ 255

/-- `valid_ipv4` -/
def validIpv4 (ip : List Char) : Bool :=
  let octets := ip.splitOnP (· == '.')
  octets.length = 4 && octets.all validOctet

namespace AcConfig

variable (config : AcConfig)

def section? (name : List Char) : Option AcSection := config.sections.find? (·.name == name)

def get (name : List Char) (option : String) : Option (List Char) := (config.section? name).bind (·.get option)

/-- `$(uci -q get fakemeshac.<name>.<option>)` -/
def acGet (name : List Char) (option : String) : List Char := ((config.get name option).map substitution).getD []

/-- `$(uci -q get fakemeshac.<name>.<option> || printf <default>)` -/
def acGetOr (name : List Char) (option default : String) : List Char :=
  ((config.get name option).map substitution).getD default.toList

/-- `config_get <variable> default <option> <default>` -/
def configGet (option default : String) : List Char :=
  match config.get "default".toList option with
  | some value => if value = [] then default.toList else value
  | none => default.toList

/-- `validate_enabled_config` -/
def validateEnabledConfig (radioBands : List (List Char)) : Bool :=
  let Xid := config.configGet "id" ""
  let role := config.configGet "role" "agent"
  let band := config.configGet "band" "5g"
  let Xkey := config.configGet "key" ""
  let keyMode := if band = "6g".toList then "sae".toList else "psk2".toList
  Xid ≠ [] && Xid.length ≤ 32 && role ∈ ["controller".toList, "agent".toList, "wap".toList] &&
    band ∈ ["2g".toList, "5g".toList, "6g".toList] && (Xkey = [] || validWirelessKey Xkey keyMode) &&
    config.configGet "sync_ac" "1" ∈ ["0".toList, "1".toList] &&
    config.configGet "fronthaul_disabled" "0" ∈ ["0".toList, "1".toList] &&
    config.configGet "band_steer_helper" "none" ∈ ["none".toList, "usteer".toList, "dawn".toList] &&
    (role ≠ "controller".toList || validIpv4 (config.configGet "access_ip" "10.10.10.1")) && band ∈ radioBands

end AcConfig

/-- `s/^\(fakemeshac\.[^.]*\)=wifim$/\1/p`, without `fakemeshac.` -/
def wifimLine (line : List Char) : Option (List Char) :=
  let ending := "=wifim".toList
  let name := (line.drop package.length).take (line.length - package.length - ending.length)
  if line = package ++ name ++ ending ∧ '.' ∉ name then some name else none

def bandTexts : List (List Char) :=
  ["2g".toList, "5g".toList, "6g".toList, "2g5g".toList, "2g6g".toList, "5g6g".toList, "2g5g6g".toList]

/-- The encryptions with a key. -/
def keyEncryptions : List (List Char) := ["psk".toList, "psk2".toList, "psk-mixed".toList, "sae".toList, "sae-mixed".toList]

/-- `case "$bands" in *6g*)` -/
def hasSixG (bands : List Char) : Bool := "6g".toList <:+: bands

namespace AcConfig

variable (config : AcConfig)

/-- `for section in $sections` -/
def sectionWords : List (List Char) :=
  fields (substitution (((lines (substitution config.uciShow)).filterMap wifimLine).flatMap fun name => name ++ ['\n']))

/-- The loop body of `validate_ac_config`. -/
def validSection (name : List Char) : Bool :=
  let ssid := config.acGet name "ssid"
  let bands := config.acGetOr name "band" "2g5g"
  let encryption := config.acGet name "encryption"
  ssid ≠ [] && ssid.length ≤ 32 && bands ∈ bandTexts && config.acGetOr name "enabled" "1" ∈ ["0".toList, "1".toList] &&
    (encryption ∈ ["none".toList, "owe".toList] ||
      encryption ∈ keyEncryptions && validWirelessKey (config.acGet name "key") (if hasSixG bands then "sae".toList else encryption))

/-- `validate_ac_config` -/
def validateAcConfig : Bool :=
  let default := "default".toList
  (config.section? default).any (·.type == "fakemesh".toList) && config.acGet default "role" = "controller".toList &&
    config.acGet default "enabled" = "1".toList && config.acGet default "id" ≠ [] && (config.acGet default "id").length ≤ 32 &&
    config.acGetOr default "band" "5g" ∈ ["2g".toList, "5g".toList, "6g".toList] && config.sectionWords.all config.validSection

end AcConfig

/-! ## The form -/

/-- The characters of a text, which every byte but a continuation byte begins. -/
def characters (text : List Char) : ℕ := text.countP fun byte => !(128 ≤ byte.toNat && byte.toNat < 192)

/-- `wpakey` -/
def Wpakey (key : List Char) : Prop := key.length = 64 ∧ key.all isHexDigit ∨ 8 ≤ characters key ∧ characters key ≤ 63

/-- An option with listed values, which may be omitted. -/
def Listed (value : Option (List Char)) (texts : List (List Char)) : Prop := ∀ text ∈ value, text ∈ texts

/-- A row of "Wireless Management". -/
structure SavedEntry (s : AcSection) : Prop where
  ssid : ∃ text, s.get "ssid" = some text ∧ text ≠ [] ∧ text.length ≤ 32
  encryption : ∃ text ∈ "none".toList :: keyEncryptions, s.get "encryption" = some text
  key : ∀ text ∈ keyEncryptions, s.get "encryption" = some text → ∃ key, s.get "key" = some key ∧ Wpakey key
  band : Listed (s.get "band") ["2g5g6g".toList, "2g5g".toList, "5g6g".toList, "6g".toList, "5g".toList, "2g".toList]
  enabled : Listed (s.get "enabled") ["0".toList, "1".toList]

/-- What the form saves with the role of a controller, enabled; the fields of a page are single lines. -/
structure SavedForm (config : AcConfig) : Prop where
  default : ∃ s ∈ config.sections, s.name = "default".toList ∧ s.type = "fakemesh".toList
  role : config.get "default".toList "role" = some "controller".toList
  enabled : config.get "default".toList "enabled" = some "1".toList
  id : ∀ text ∈ config.get "default".toList "id", text.length ≤ 32
  key : ∀ text ∈ config.get "default".toList "key", Wpakey text
  band : Listed (config.get "default".toList "band") ["6g".toList, "5g".toList, "2g".toList]
  accessIp : ∀ text ∈ config.get "default".toList "access_ip", validIpv4 text
  syncAc : Listed (config.get "default".toList "sync_ac") ["0".toList, "1".toList]
  helper : Listed (config.get "default".toList "band_steer_helper") ["none".toList, "usteer".toList, "dawn".toList]
  fronthaul : Listed (config.get "default".toList "fronthaul_disabled") ["0".toList, "1".toList]
  types : ∀ s ∈ config.sections, s.type = "fakemesh".toList ∨ s.isWifim
  entries : ∀ s ∈ config.sections, s.isWifim → SavedEntry s
  singleLines : ∀ s ∈ config.sections, ∀ option ∈ s.options, '\n' ∉ option.2 ∧ '\r' ∉ option.2

/-- No raw key where the encryption becomes SAE, and no passphrase of more than 63 bytes. -/
def KeyFits (s : AcSection) : Prop :=
  ∀ encryption ∈ keyEncryptions, s.get "encryption" = some encryption → ∀ key, s.get "key" = some key →
    (characters key = 64 → encryption ∉ ["sae".toList, "sae-mixed".toList] ∧ hasSixG ((s.get "band").getD "2g5g".toList) = false) ∧
      (characters key ≤ 63 → key.length ≤ 63)

/-! ## The sections of the dump -/

section Sections

variable {config : AcConfig} {s : AcSection}

theorem section?_name (member : s ∈ config.sections) : config.section? s.name = some s := by
  have distinct := config.distinct
  rw [AcConfig.section?]
  revert member distinct
  induction config.sections with
  | nil => exact fun member => absurd member List.not_mem_nil
  | cons first rest ih =>
      intro member distinct
      obtain ⟨fresh, distinct⟩ := List.nodup_cons.mp distinct
      rcases List.mem_cons.mp member with rfl | later
      · exact List.find?_cons_of_pos (beq_self_eq_true _)
      · have apart : first.name ≠ s.name := fun same => fresh (same ▸ List.mem_map_of_mem later)
        rw [List.find?_cons_of_neg (by simpa using apart)]
        exact ih later distinct

theorem wifimLine_eq_some {line name : List Char} :
    wifimLine line = some name ↔ line = package ++ name ++ "=wifim".toList ∧ '.' ∉ name := by
  have middle : ∀ name : List Char, (((package ++ name ++ "=wifim".toList).drop package.length).take
      ((package ++ name ++ "=wifim".toList).length - package.length - "=wifim".toList.length)) = name := by
    intro name
    rw [List.append_assoc, List.drop_left, List.length_append, List.length_append, Nat.add_sub_cancel_left, Nat.add_sub_cancel, List.take_left]
  rw [wifimLine]
  constructor
  · intro found
    split at found
    next whole =>
      rw [← Option.some.inj found]
      exact whole
    next => cases found
  · rintro ⟨rfl, free⟩
    rw [middle]
    exact if_pos ⟨rfl, free⟩

theorem getLast?_of_wifimLine {line name : List Char} (found : wifimLine line = some name) : line.getLast? = some 'm' := by
  rw [(wifimLine_eq_some.mp found).1, List.getLast?_append]
  rfl

theorem wifimLine_optionEntry (s : AcSection) (option : List Char × List Char) : wifimLine (s.optionEntry option) = none := by
  cases found : wifimLine (s.optionEntry option) with
  | none => rfl
  | some name =>
      have ends := getLast?_of_wifimLine found
      rw [AcSection.optionEntry, ← List.append_assoc, List.getLast?_append] at ends
      exact absurd ends (by simp)

theorem wifimLine_headerEntry (types : s.type = "fakemesh".toList ∨ s.isWifim) :
    wifimLine s.headerEntry = if s.isWifim then some s.name else none := by
  split
  next wifim =>
    refine wifimLine_eq_some.mpr ⟨?_, fun dot => ?_⟩
    · rw [AcSection.headerEntry, eq_of_beq wifim]
      rfl
    · rcases s.mem_name_of_wifim wifim dot with word | mark
      · exact absurd word (by decide)
      · exact absurd mark (by decide)
  next other =>
    cases found : wifimLine s.headerEntry with
    | none => rfl
    | some name =>
        have ends := getLast?_of_wifimLine found
        rw [AcSection.headerEntry, types.resolve_right other, List.getLast?_append] at ends
        exact absurd ends (show ¬some 'h' = some 'm' by decide)

theorem newline_notMem_entries (saved : SavedForm config) (member : s ∈ config.sections) : ∀ entry ∈ s.entries, '\n' ∉ entry := by
  rw [AcSection.entries, List.forall_mem_cons]
  refine ⟨s.newline_notMem_header, fun entry inside => ?_⟩
  obtain ⟨option, listed, rfl⟩ := List.mem_map.mp inside
  refine List.not_mem_append (AcSection.newline_notMem_optionFront listed) (List.not_mem_append ?_ (by decide))
  exact (saved.singleLines s member option listed).1

/-- What `sed` finds in the dump. -/
theorem filterMap_wifimLine (saved : SavedForm config) :
    (lines (substitution config.uciShow)).filterMap wifimLine = (config.sections.filter AcSection.isWifim).map AcSection.name := by
  have single : config.entries.flatMap lines = config.entries := by
    calc config.entries.flatMap lines
      _ = config.entries.flatMap fun entry => [entry] := by
        refine List.flatMap_congr fun entry member => ?_
        obtain ⟨s, listed, inside⟩ := List.mem_flatMap.mp member
        exact lines_of_free (newline_notMem_entries saved listed entry inside)
      _ = config.entries := List.flatMap_singleton' _
  have names : config.entries.filterMap wifimLine = (config.sections.filter AcSection.isWifim).map AcSection.name := by
    have types := saved.types
    rw [AcConfig.entries]
    revert types
    induction config.sections with
    | nil => exact fun _ => rfl
    | cons s rest ih =>
        intro types
        rw [List.forall_mem_cons] at types
        have options : (s.options.map s.optionEntry).filterMap wifimLine = [] := by
          rw [List.filterMap_eq_nil_iff]
          intro entry inside
          obtain ⟨option, -, rfl⟩ := List.mem_map.mp inside
          exact wifimLine_optionEntry s option
        rw [List.flatMap_cons, List.filterMap_append, ih types.2, AcSection.entries, List.filterMap_cons, wifimLine_headerEntry types.1]
        cases wifim : s.isWifim with
        | true => rw [List.filter_cons_of_pos wifim, if_pos rfl, options, List.map_cons]; rfl
        | false => rw [List.filter_cons_of_neg (by simp [wifim]), if_neg Bool.false_ne_true, options]; rfl
  obtain ⟨n, whole⟩ := exists_substitution_append config.uciShow
  have empties : (List.replicate n ([] : List Char)).filterMap wifimLine = [] := by
    rw [List.filterMap_eq_nil_iff]
    intro line member
    rw [List.eq_of_mem_replicate member]
    decide
  calc (lines (substitution config.uciShow)).filterMap wifimLine
    _ = (lines (substitution config.uciShow) ++ List.replicate n []).filterMap wifimLine := by
      rw [List.filterMap_append, empties, List.append_nil]
    _ = (lines config.uciShow).filterMap wifimLine := by
      rw [← lines_append_replicate, ← whole]
    _ = config.entries.filterMap wifimLine := by
      rw [lines_uciShow, single, List.filterMap_append]
      exact List.append_nil _
    _ = _ := names

/-- `for section in $sections` goes through the sections of the type `wifim`. -/
theorem sectionWords_eq (saved : SavedForm config) : config.sectionWords = (config.sections.filter AcSection.isWifim).map AcSection.name := by
  rw [AcConfig.sectionWords, fields_substitution, filterMap_wifimLine saved]
  refine fields_lines fun word member => ?_
  obtain ⟨s, listed, rfl⟩ := List.mem_map.mp member
  have wifim := (List.mem_filter.mp listed).2
  refine ⟨?_, fun char inside => ?_⟩
  · rcases s.named with ⟨some, -⟩ | ⟨digits, -, shown⟩
    · exact some
    · rw [shown]
      exact List.cons_ne_nil _ _
  · have plain : isBlank char = true → isNameChar char = false ∧ char ∉ "@[]".toList := by
      intro blank
      simp only [isBlank, Bool.or_eq_true, beq_iff_eq] at blank
      rcases blank with (rfl | rfl) | rfl <;> decide
    cases blank : isBlank char with
    | false => rfl
    | true =>
        rcases s.mem_name_of_wifim wifim inside with word | mark
        · exact absurd word (by simp [(plain blank).1])
        · exact absurd mark (plain blank).2

/-! ## One entry -/

/-- A key of the form, with the encryption that the agent checks it for. -/
theorem validWirelessKey_iff {key encryption : List Char} (wpakey : Wpakey key) (line : '\n' ∉ key ∧ '\r' ∉ key) :
    validWirelessKey key encryption = true ↔
      (characters key = 64 → encryption ∈ ["psk".toList, "psk2".toList, "psk-mixed".toList]) ∧ (characters key ≤ 63 → key.length ≤ 63) := by
  have bound : characters key ≤ key.length := List.countP_le_length
  -- Hex digits are no continuation bytes.
  have hex : key.all isHexDigit = true → characters key = key.length := by
    intro digits
    refine List.countP_eq_length.mpr fun char member => ?_
    have digit := List.all_eq_true.mp digits char member
    simp only [isHexDigit, Char.isDigit, Bool.or_eq_true, Bool.and_eq_true, decide_eq_true_eq, ge_iff_le, Char.le_def, UInt32.le_iff_toNat_le] at digit
    have last : '9'.val.toNat = 57 ∧ 'f'.val.toNat = 102 ∧ 'F'.val.toNat = 70 := by decide
    rw [Bool.not_eq_true', Bool.and_eq_false_iff, decide_eq_false_iff_not]
    refine .inl ?_
    change ¬128 ≤ char.val.toNat
    omega
  rw [validWirelessKey, if_neg (not_or.mpr line)]
  rcases wpakey with ⟨raw, digits⟩ | ⟨least, most⟩
  · have many : characters key = 64 := (hex digits).trans raw
    rw [if_pos raw, digits, Bool.and_true, decide_eq_true_eq, many]
    exact ⟨fun psk => ⟨fun _ => psk, fun few => absurd few (by decide)⟩, fun both => both.1 rfl⟩
  · have apart : characters key ≠ 64 := by omega
    split
    next raw =>
      have other : key.all isHexDigit = false := by
        rw [Bool.eq_false_iff]
        exact fun digits => apart ((hex digits).trans raw)
      rw [other, Bool.and_false]
      refine iff_of_false Bool.false_ne_true fun both => ?_
      have short := both.2 most
      omega
    next =>
      rw [Bool.and_eq_true, decide_eq_true_eq, decide_eq_true_eq]
      exact ⟨fun both => ⟨fun same => absurd same apart, fun _ => both.2⟩, fun both => ⟨least.trans bound, both.2 most⟩⟩

theorem acGet_eq (saved : SavedForm config) (member : s ∈ config.sections) (option default : String) :
    config.acGet s.name option = (s.get option).getD [] ∧ config.acGetOr s.name option default = (s.get option).getD default.toList := by
  have value : (config.get s.name option).map substitution = s.get option := by
    rw [AcConfig.get, section?_name member, Option.bind_some]
    cases found : s.get option with
    | none => rfl
    | some text =>
        have line := (saved.singleLines s member (option.toList, text) (Foundation.Keyed.mem_of_lookup found)).1
        rw [Option.map_some, substitution_eq_self fun last => line (List.mem_of_getLast? last)]
  rw [AcConfig.acGet, AcConfig.acGetOr, value]
  exact ⟨rfl, rfl⟩

theorem getD_of_listed {value : Option (List Char)} {texts others : List (List Char)} (listed : Listed value texts) {default : List Char}
    (own : default ∈ others) (inside : ∀ text ∈ texts, text ∈ others) : value.getD default ∈ others := by
  cases value with
  | none => exact own
  | some text => exact inside text (listed text rfl)

/-- A row is taken if and only if its key fits. -/
theorem validSection_iff (saved : SavedForm config) (member : s ∈ config.sections) (wifim : s.isWifim = true) :
    config.validSection s.name = true ↔ KeyFits s := by
  have entry := saved.entries s member wifim
  obtain ⟨ssid, hasSsid, some, short⟩ := entry.ssid
  obtain ⟨encryption, known, hasEncryption⟩ := entry.encryption
  have bands : (s.get "band").getD "2g5g".toList ∈ bandTexts := getD_of_listed entry.band (by decide) (by decide)
  have enabled : (s.get "enabled").getD "1".toList ∈ ["0".toList, "1".toList] := getD_of_listed entry.enabled (by decide) (by decide)
  simp only [AcConfig.validSection, (acGet_eq saved member _ "").1, (acGet_eq saved member _ _).2, hasSsid, hasEncryption, Option.getD_some]
  rw [decide_eq_true some, decide_eq_true short, decide_eq_true bands, decide_eq_true enabled, Bool.true_and, Bool.true_and,
    Bool.true_and, Bool.true_and]
  rcases List.mem_cons.mp known with rfl | keyed
  · refine iff_of_true rfl fun encryption keyed found => ?_
    rw [hasEncryption] at found
    exact absurd (Option.some.inj found ▸ keyed) (by decide)
  · obtain ⟨key, hasKey, wpakey⟩ := entry.key encryption keyed hasEncryption
    have line : '\n' ∉ key ∧ '\r' ∉ key := saved.singleLines s member ("key".toList, key) (Foundation.Keyed.mem_of_lookup hasKey)
    have open_ : encryption ∉ ["none".toList, "owe".toList] := by
      have apart : ∀ text ∈ keyEncryptions, text ∉ ["none".toList, "owe".toList] := by decide
      exact apart encryption keyed
    -- The encryption that is checked is for a raw key if there is no SAE in it.
    have psk : (if hasSixG ((s.get "band").getD "2g5g".toList) then "sae".toList else encryption) ∈
        ["psk".toList, "psk2".toList, "psk-mixed".toList] ↔
          encryption ∉ ["sae".toList, "sae-mixed".toList] ∧ hasSixG ((s.get "band").getD "2g5g".toList) = false := by
      have table : ∀ text ∈ keyEncryptions, text ∈ ["psk".toList, "psk2".toList, "psk-mixed".toList] ↔ text ∉ ["sae".toList, "sae-mixed".toList] := by
        decide
      cases hasSixG ((s.get "band").getD "2g5g".toList) with
      | true =>
          rw [if_pos rfl]
          exact iff_of_false (by decide) fun both => absurd both.2 (by decide)
      | false =>
          rw [if_neg Bool.false_ne_true, table encryption keyed]
          exact ⟨fun apart => ⟨apart, rfl⟩, fun both => both.1⟩
    rw [decide_eq_false open_, decide_eq_true keyed, Bool.false_or, Bool.true_and, hasKey, Option.getD_some,
      validWirelessKey_iff wpakey line, psk, KeyFits]
    constructor
    · intro fits other _ found key' found'
      rw [hasEncryption] at found
      rw [hasKey] at found'
      rw [← Option.some.inj found, ← Option.some.inj found']
      exact fits
    · exact fun fits => fits encryption keyed hasEncryption key hasKey

/-- An agent takes over what a controller with a saved form runs if and only if every key fits. -/
theorem validateAcConfig_iff {radioBands : List (List Char)} (saved : SavedForm config) (runs : config.validateEnabledConfig radioBands = true) :
    config.validateAcConfig = true ↔ ∀ s ∈ config.sections, s.isWifim = true → KeyFits s := by
  obtain ⟨default, member, name, type⟩ := saved.default
  have get (option : String) : config.get "default".toList option = default.get option := by
    rw [AcConfig.get, ← name, section?_name member, Option.bind_some]
  have role := saved.role
  have enabled := saved.enabled
  have band := saved.band
  have id := saved.id
  rw [get] at role enabled band id
  have bands : (default.get "band").getD "5g".toList ∈ ["2g".toList, "5g".toList, "6g".toList] := getD_of_listed band (by decide) (by decide)
  obtain ⟨text, hasId, filled⟩ : ∃ text, default.get "id" = some text ∧ text ≠ [] := by
    rw [AcConfig.validateEnabledConfig] at runs
    simp only [Bool.and_eq_true, decide_eq_true_eq] at runs
    have Xid := runs.1.1.1.1.1.1.1.1.1
    rw [AcConfig.configGet, get] at Xid
    cases found : default.get "id" with
    | none =>
        rw [found] at Xid
        exact absurd rfl Xid
    | some text =>
        rw [found] at Xid
        refine ⟨text, rfl, fun empty => ?_⟩
        subst empty
        exact Xid rfl
  have sections : config.sectionWords.all config.validSection = true ↔ ∀ s ∈ config.sections, s.isWifim = true → KeyFits s := by
    rw [sectionWords_eq saved, List.all_map, List.all_eq_true]
    constructor
    · intro all s listed wifim
      exact (validSection_iff saved listed wifim).mp (all s (List.mem_filter.mpr ⟨listed, wifim⟩))
    · intro fits s listed
      obtain ⟨listed, wifim⟩ := List.mem_filter.mp listed
      exact (validSection_iff saved listed wifim).mpr (fits s listed wifim)
  rw [← sections, AcConfig.validateAcConfig]
  simp only [← name, (acGet_eq saved member _ "").1, (acGet_eq saved member _ _).2, section?_name member, role, enabled, hasId,
    Option.getD_some, Option.any_some, type]
  rw [decide_eq_true filled, decide_eq_true (id text hasId), decide_eq_true bands]
  simp

end Sections

/-! ## A file with one entry -/

/-- The first row of "Wireless Management" with a key. -/
def keyedRow (ssid encryption key : List Char) : AcSection where
  name := "@wifim[0]".toList
  type := "wifim".toList
  options := [("ssid".toList, ssid), ("encryption".toList, encryption), ("key".toList, key)]
  named := .inr ⟨['0'], by decide, by decide⟩
  typed := by decide
  optionsNamed option member :=
    have names : ∀ name ∈ ["ssid".toList, "encryption".toList, "key".toList], name ≠ [] ∧ name.all isNameChar := by decide
    names option.1 (List.mem_map_of_mem (f := Prod.fst) member)

def defaultSection : AcSection where
  name := "default".toList
  type := "fakemesh".toList
  options := [("enabled".toList, "1".toList), ("id".toList, "mesh".toList), ("role".toList, "controller".toList)]
  named := .inl (by decide)
  typed := by decide
  optionsNamed := by decide

def controllerFile (ssid encryption key : List Char) : AcConfig where
  sections := [defaultSection, keyedRow ssid encryption key]
  distinct := show ["default".toList, "@wifim[0]".toList].Nodup by decide

theorem savedForm_controllerFile {encryption key : List Char} (keyed : encryption ∈ keyEncryptions) (wpakey : Wpakey key)
    (line : '\n' ∉ key ∧ '\r' ∉ key) : SavedForm (controllerFile "Test WiFi".toList encryption key) where
  default := ⟨defaultSection, List.mem_cons_self, rfl, rfl⟩
  role := by rfl
  enabled := by rfl
  id := by rintro _ ⟨⟩; decide
  key := nofun
  band := nofun
  accessIp := nofun
  syncAc := nofun
  helper := nofun
  fronthaul := nofun
  types := by
    rw [controllerFile, List.forall_mem_cons, List.forall_mem_singleton]
    exact ⟨.inl rfl, .inr rfl⟩
  entries := by
    rw [controllerFile, List.forall_mem_cons, List.forall_mem_singleton]
    refine ⟨fun wifim => absurd wifim (by decide), fun _ => ?_⟩
    exact ⟨⟨"Test WiFi".toList, rfl, by decide, by decide⟩, ⟨encryption, List.mem_cons_of_mem _ keyed, rfl⟩, fun _ _ _ => ⟨key, rfl, wpakey⟩, nofun, nofun⟩
  singleLines := by
    have texts : ∀ text ∈ "Test WiFi".toList :: keyEncryptions, '\n' ∉ text ∧ '\r' ∉ text := by decide
    have first : ∀ option ∈ defaultSection.options, '\n' ∉ option.2 ∧ '\r' ∉ option.2 := by decide
    have row : ∀ option ∈ (keyedRow "Test WiFi".toList encryption key).options, '\n' ∉ option.2 ∧ '\r' ∉ option.2 := by
      intro option member
      rcases List.mem_cons.mp member with rfl | member
      · exact texts _ List.mem_cons_self
      · rcases List.mem_pair.mp member with rfl | rfl
        · exact texts encryption (List.mem_cons_of_mem _ keyed)
        · exact line
    intro s member
    rcases List.mem_pair.mp member with rfl | rfl
    · exact first
    · exact row

theorem validateAcConfig_passphrase :
    (controllerFile "Test WiFi".toList "psk2".toList "test-password".toList).validateAcConfig = true ↔
      ∀ s ∈ (controllerFile "Test WiFi".toList "psk2".toList "test-password".toList).sections, s.isWifim = true → KeyFits s :=
  have saved : SavedForm (controllerFile "Test WiFi".toList "psk2".toList "test-password".toList) :=
    savedForm_controllerFile (by decide) (.inr (by decide)) (by decide)
  validateAcConfig_iff saved (show AcConfig.validateEnabledConfig _ ["5g".toList] = true by decide +kernel)

/-- A raw key for SAE: the form saves it, the controller runs, and the agents refuse the file. -/
theorem rawKey_refused :
    SavedForm (controllerFile "Test WiFi".toList "sae".toList (List.replicate 64 'a')) ∧
      (controllerFile "Test WiFi".toList "sae".toList (List.replicate 64 'a')).validateEnabledConfig ["5g".toList] = true ∧
      (controllerFile "Test WiFi".toList "sae".toList (List.replicate 64 'a')).validateAcConfig = false :=
  ⟨savedForm_controllerFile (by decide) (.inl (by decide)) (by decide), by decide +kernel, by decide +kernel⟩

end XWrt.Fakemesh
