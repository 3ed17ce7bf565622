import XWrt.Foundation.UciCommands
import XWrt.Fakemesh.WirelessDigest

/-!
# The access points of an accepted configuration

What `agent_sync_config` leaves in the wireless settings: the old access points
go, the links of the mesh stay, and the generated sections follow. What
`validate_ac_config` accepts makes sections that a driver takes: protected
management frames and no WPA2 on 6 GHz, and a key that fits its encryption.
-/

namespace XWrt.Fakemesh

open XWrt.Foundation
open Text Shell Uci

/-! ## Radios -/

/-- A section `wifi-device`, and whether `bcma` is in its path or `iwinfo` finds a Cypress chip. -/
structure WifiDevice where
  name : List Char
  band : List Char
  legacy : Bool
  deriving DecidableEq

/-- The sections `wifi-device` have different names. -/
structure WifiDevices where
  list : List WifiDevice
  distinct : (list.map WifiDevice.name).Nodup

/-- `collect_radios` -/
def collectRadios (radios : Radios) (device : WifiDevice) : Radios :=
  let legacy := radios.legacy ++ if device.legacy then [device.name] else []
  if device.band = "2g".toList then { radios with radios2g := radios.radios2g ++ [device.name], legacy }
  else if device.band = "5g".toList then { radios with radios5g := radios.radios5g ++ [device.name], legacy }
  else if device.band = "6g".toList then { radios with radios6g := radios.radios6g ++ [device.name], legacy }
  else radios

/-- `config_foreach collect_radios wifi-device` -/
def WifiDevices.radios (devices : WifiDevices) (basicWpad : Bool) : Radios :=
  devices.list.foldl collectRadios ⟨[], [], [], [], basicWpad⟩

/-! ## The sections in the settings -/

def wifiIfaceType : SectionType := ⟨"wifi-iface".toList, by decide⟩

/-- A value as `uci show` quotes it. -/
def shownText (text : List Char) : List Char := '\'' :: (text.flatMap fun char => if char = '\'' then "'\\''".toList else [char]) ++ ['\'']

def shownValue : Value → List Char
  | .option text => shownText text
  | .list items => [' '].intercalate (items.map shownText)

/-- `uci show wireless.@wifi-iface[$I]` -/
def shownIface (name : String) (s : Uci.Section) : List Char :=
  "wireless.".toList ++ name.toList ++ '=' :: s.type.text ++ '\n' ::
    s.options.flatMap fun option => "wireless.".toList ++ name.toList ++ '.' :: option.1.toList ++ '=' :: shownValue option.2 ++ ['\n']

/-- What `grep -q wireless.meshx[01]=wifi-iface` looks for in a line. -/
def beginsMesh (text : List Char) : Bool :=
  "wireless".toList <+: text && ("meshx0=wifi-iface".toList <+: text.drop 9 || "meshx1=wifi-iface".toList <+: text.drop 9)

def isMeshIface (name : String) (s : Uci.Section) : Bool := (lines (shownIface name s)).any fun line => line.tails.any beginsMesh

/-- `#delete old wifi config` -/
def deleteOldWifi (wireless : Config) : Config :=
  wireless.filter fun entry => !(entry.2.type == wifiIfaceType) || isMeshIface entry.1 entry.2

/-- `wifinet$K` -/
def wifinet (K : ℕ) : String := "wifinet" ++ toString K

/-- The wireless settings after a change of the configuration. -/
def generate (role : List Char) (radios : Radios) (config : AcConfig) (wireless : Config) : Config :=
  (wifiIfaces role radios config).zipIdx.foldl
    (fun wireless iface => wireless.create (wifinet iface.2) wifiIfaceType fun s => s.setAll iface.1) (deleteOldWifi wireless)

/-! ## What a section has to have -/

/-- Management frames are protected on 6 GHz, without WPA2. -/
def SixGSafe (devices : WifiDevices) (options : Options) : Prop :=
  ∀ device ∈ devices.list, device.band = "6g".toList → options.lookup "device" = some (.option device.name) →
    (∃ encryption ∈ ["sae".toList, "sae-mixed".toList, "owe".toList], options.lookup "encryption" = some (.option encryption)) ∧
      options.lookup "ieee80211w" = some (.option "2".toList)

/-- An encryption with a key has one that fits. -/
def KeySafe (options : Options) : Prop :=
  ∀ encryption ∈ keyEncryptions, options.lookup "encryption" = some (.option encryption) →
    ∃ key, options.lookup "key" = some (.option key) ∧ validWirelessKey key encryption = true

/-- Every section `wifi-iface` is fit for its radio. -/
def Guarded (devices : WifiDevices) (wireless : Config) : Prop :=
  ∀ entry ∈ wireless, entry.2.type = wifiIfaceType → SixGSafe devices entry.2.options ∧ KeySafe entry.2.options

/-! ## Radios by their bands -/

section Collected

variable {devices : WifiDevices} {device : WifiDevice} {radios : Radios}

/-- What is in a list of radios after a section. -/
theorem mem_collectRadios {band radio : List Char} (member : radio ∈ (collectRadios radios device).ofBand band) :
    radio ∈ radios.ofBand band ∨ device.name = radio ∧ device.band = band := by
  rw [collectRadios] at member
  by_cases two : device.band = "2g".toList
  · rw [if_pos two] at member
    simp only [Radios.ofBand] at member ⊢
    split at member
    next same =>
      rcases List.mem_append.mp member with before | here
      · exact .inl (by rw [if_pos same]; exact before)
      · exact .inr ⟨(List.mem_singleton.mp here).symm, two.trans same.symm⟩
    next other => exact .inl (by rw [if_neg other]; exact member)
  · rw [if_neg two] at member
    by_cases five : device.band = "5g".toList
    · rw [if_pos five] at member
      simp only [Radios.ofBand] at member ⊢
      by_cases same : band = "5g".toList
      · have apart : ¬band = "2g".toList := by rw [same]; decide
        rw [if_neg apart, if_pos same] at member
        rcases List.mem_append.mp member with before | here
        · exact .inl (by rw [if_neg apart, if_pos same]; exact before)
        · exact .inr ⟨(List.mem_singleton.mp here).symm, five.trans same.symm⟩
      · rw [if_neg same] at member ⊢
        exact .inl member
    · rw [if_neg five] at member
      by_cases six : device.band = "6g".toList
      · rw [if_pos six] at member
        simp only [Radios.ofBand] at member ⊢
        by_cases same : band = "6g".toList
        · have apart : ¬band = "2g".toList ∧ ¬band = "5g".toList := by rw [same]; decide
          rw [if_neg apart.1, if_neg apart.2, if_pos same] at member
          rcases List.mem_append.mp member with before | here
          · exact .inl (by rw [if_neg apart.1, if_neg apart.2, if_pos same]; exact before)
          · exact .inr ⟨(List.mem_singleton.mp here).symm, six.trans same.symm⟩
        · rw [if_neg same] at member ⊢
          exact .inl member
      · rw [if_neg six] at member
        exact .inl member

/-- A radio of a band is the name of a section with that band. -/
theorem mem_radios {basicWpad : Bool} {band radio : List Char} (member : radio ∈ (devices.radios basicWpad).ofBand band) :
    ∃ device ∈ devices.list, device.name = radio ∧ device.band = band := by
  have all : ∀ (list : List WifiDevice) (radios : Radios), radio ∈ (list.foldl collectRadios radios).ofBand band →
      radio ∈ radios.ofBand band ∨ ∃ device ∈ list, device.name = radio ∧ device.band = band := by
    intro list
    induction list with
    | nil => exact fun _ member => .inl member
    | cons first rest ih =>
        intro radios member
        rcases ih _ member with before | ⟨device, later, same⟩
        · exact (mem_collectRadios before).imp_right fun same => ⟨first, List.mem_cons_self, same⟩
        · exact .inr ⟨device, List.mem_cons_of_mem _ later, same⟩
  rcases all devices.list _ member with none | found
  · have empty : (Radios.mk [] [] [] [] basicWpad).ofBand band = [] := by simp [Radios.ofBand]
    rw [empty] at none
    exact absurd none List.not_mem_nil
  · exact found

/-- Sections of one name have one band. -/
theorem band_unique {first second : WifiDevice} (member : first ∈ devices.list) (member' : second ∈ devices.list)
    (same : first.name = second.name) : first = second := List.inj_on_of_nodup_map devices.distinct member member' same

end Collected

/-! ## What is accepted -/

section Accepted

variable {config : AcConfig} {s : AcSection}

theorem fields_append_newline (front rest : List Char) : fields (front ++ '\n' :: rest) = fields front ++ fields rest := by
  rw [fields, words, List.splitOnP_append_cons front rest (by decide), List.filter_append]
  rfl

/-- A word stands among the words of the lines that it is one of. -/
theorem mem_fields_lines {word : List Char} {names : List (List Char)} (solid : ∀ char ∈ word, isBlank char = false) (nonempty : word ≠ [])
    (member : word ∈ names) : word ∈ fields (names.flatMap fun name => name ++ ['\n']) := by
  induction names with
  | nil => cases member
  | cons name names ih =>
      rw [List.flatMap_cons, List.append_assoc, List.singleton_append, fields_append_newline, List.mem_append]
      rcases List.mem_cons.mp member with rfl | later
      · exact .inl (by rw [fields_word solid nonempty]; exact List.mem_singleton_self _)
      · exact .inr (ih later)

/-- The name of a section of the type `wifim` is a word without a dot. -/
theorem solid_name (wifim : s.isWifim = true) : '.' ∉ s.name ∧ ∀ char ∈ s.name, isBlank char = false := by
  constructor
  · intro dot
    rcases s.mem_name_of_wifim wifim dot with word | mark
    · exact absurd word (by decide)
    · exact absurd mark (by decide)
  · intro char member
    cases blank : isBlank char with
    | false => rfl
    | true =>
        simp only [isBlank, Bool.or_eq_true, beq_iff_eq] at blank
        rcases s.mem_name_of_wifim wifim member with word | mark
        · rcases blank with (rfl | rfl) | rfl
          · exact absurd word (by decide)
          · exact absurd word (by decide)
          · exact absurd word (by decide)
        · rcases blank with (rfl | rfl) | rfl
          · exact absurd mark (by decide)
          · exact absurd mark (by decide)
          · exact absurd mark (by decide)

/-- `for section in $sections` reaches every section of the type `wifim`, whatever the values are. -/
theorem name_mem_sectionWords (member : s ∈ config.sections) (wifim : s.isWifim = true) : s.name ∈ config.sectionWords := by
  have header : s.headerEntry ∈ lines (substitution config.uciShow) := by
    obtain ⟨n, whole⟩ := exists_substitution_append config.uciShow
    have here : s.headerEntry ∈ lines config.uciShow := by
      rw [lines_uciShow, List.mem_append, List.mem_flatMap]
      refine .inl ⟨s.headerEntry, List.mem_flatMap.mpr ⟨s, member, List.mem_cons_self⟩, ?_⟩
      rw [lines_of_free s.newline_notMem_header]
      exact List.mem_singleton_self _
    rw [whole, lines_append_replicate, List.mem_append] at here
    refine here.resolve_right fun empty => ?_
    have some : s.headerEntry ≠ [] := by simp [AcSection.headerEntry]
    exact some (List.eq_of_mem_replicate empty)
  have found : wifimLine s.headerEntry = some s.name := by
    refine wifimLine_eq_some.mpr ⟨?_, (solid_name wifim).1⟩
    rw [AcSection.headerEntry, eq_of_beq wifim]
    rfl
  rw [AcConfig.sectionWords, fields_substitution]
  exact mem_fields_lines (solid_name wifim).2 (name_ne_nil s) (List.mem_filterMap.mpr ⟨_, header, found⟩)

/-- A key for SAE is a key for every encryption. -/
theorem validWirelessKey_of_sae {key encryption : List Char} (valid : validWirelessKey key "sae".toList = true) :
    validWirelessKey key encryption = true := by
  have other : "sae".toList ∉ ["psk".toList, "psk2".toList, "psk-mixed".toList] := by decide
  rw [validWirelessKey] at valid ⊢
  split
  next line =>
    rw [if_pos line] at valid
    cases valid
  next line =>
    rw [if_neg line] at valid
    split
    next raw =>
      rw [if_pos raw, decide_eq_false other, Bool.false_and] at valid
      cases valid
    next raw =>
      rw [if_neg raw] at valid
      exact valid

theorem validWirelessKey_ne_nil {key encryption : List Char} (valid : validWirelessKey key encryption = true) : key ≠ [] := by
  rintro rfl
  cases valid

/-- What the options of an accepted section say. -/
structure AcceptedEntry (ssid bands encryption key : List Char) : Prop where
  named : ssid ≠ [] ∧ ssid.length ≤ 32
  listed : bands ∈ bandTexts
  keyed : encryption ∈ ["none".toList, "owe".toList] ∨
    encryption ∈ keyEncryptions ∧ validWirelessKey key (if hasSixG bands then "sae".toList else encryption) = true

/-- What the loop reads of the options of a section. -/
def acOption (options : List (List Char × List Char)) (option : String) : Option (List Char) := (options.lookup option.toList).map substitution

theorem acceptedEntry_of_accepted (accepted : config.validateAcConfig = true) (member : s ∈ config.sections) (wifim : s.isWifim = true) :
    AcceptedEntry ((acOption s.options "ssid").getD []) ((acOption s.options "band").getD "2g5g".toList)
      ((acOption s.options "encryption").getD []) ((acOption s.options "key").getD []) := by
  rw [AcConfig.validateAcConfig, Bool.and_eq_true, List.all_eq_true] at accepted
  have valid := accepted.2 s.name (name_mem_sectionWords member wifim)
  have get (option : String) : config.acGet s.name option = (acOption s.options option).getD [] := by
    rw [AcConfig.acGet, AcConfig.get, section?_name member, Option.bind_some]
    rfl
  have getOr (option default : String) : config.acGetOr s.name option default = (acOption s.options option).getD default.toList := by
    rw [AcConfig.acGetOr, AcConfig.get, section?_name member, Option.bind_some]
    rfl
  simp only [AcConfig.validSection, get, getOr, Bool.and_eq_true, Bool.or_eq_true, decide_eq_true_eq] at valid
  obtain ⟨⟨⟨⟨some, short⟩, bands⟩, -⟩, encryption⟩ := valid
  exact ⟨⟨some, short⟩, bands, encryption⟩

end Accepted

/-! ## What is generated -/

section Generated

variable {devices : WifiDevices} {role ssid bands encryption key band radio : List Char} {radios : Radios}

theorem names_securityOptions (band encryption key : List Char) : (securityOptions band encryption key).map Prod.fst ∈
    [["encryption", "ieee80211w", "key"], ["encryption", "key"], ["encryption", "ieee80211w"], ["encryption"]] := by
  rw [securityOptions]
  split
  next =>
    split
    next => exact List.mem_cons_self
    next =>
      split
      next => exact List.mem_cons_self
      next =>
        split
        next => exact List.mem_cons_self
        next => exact List.mem_cons_of_mem _ List.mem_cons_self
  next =>
    split
    next => exact List.mem_cons_of_mem _ (List.mem_cons_of_mem _ List.mem_cons_self)
    next => exact List.mem_cons_of_mem _ (List.mem_cons_of_mem _ (List.mem_cons_of_mem _ List.mem_cons_self))

/-- No option is set twice. -/
theorem nodup_wifiIface (role : List Char) (radios : Radios) (ssid encryption key band radio : List Char) :
    ((wifiIface role radios ssid encryption key band radio).map Prod.fst).Nodup := by
  rw [wifiIface, List.map_append, List.map_append, List.map_append]
  have security := names_securityOptions band encryption key
  generalize (securityOptions band encryption key).map Prod.fst = names at security ⊢
  have roaming : ∀ names ∈ [["encryption", "ieee80211w", "key"], ["encryption", "key"], ["encryption", "ieee80211w"], ["encryption"]],
      ∀ radio ∈ [["ifname"], ["ieee80211r", "ft_over_ds", "ft_psk_generate_local"]],
        ∀ wpad ∈ [[], ["bss_transition", "wnm_sleep_mode", "time_advertisement", "time_zone", "ieee80211k", "rrm_neighbor_report", "rrm_beacon_report"]],
          (["device", "network", "mode", "ssid", "wpa_group_rekey", "max_inactivity"] ++ names ++ radio ++ wpad).Nodup := by decide
  refine roaming names security _ ?_ _ ?_
  · split
    · exact List.mem_cons_self
    · exact List.mem_cons_of_mem _ List.mem_cons_self
  · split
    · exact List.mem_cons_self
    · exact List.mem_cons_of_mem _ List.mem_cons_self

/-- What an option of a generated section is, whatever stood in the section before. -/
theorem lookup_iface {option : String} {text : List Char} {s : Uci.Section}
    (member : (option, text) ∈ wifiIface role radios ssid encryption key band radio) :
    (s.setAll (wifiIface role radios ssid encryption key band radio)).options.lookup option = if text = [] then none else some (.option text) :=
  Section.lookup_setAll (nodup_wifiIface ..) member

theorem device_mem_wifiIface : ("device", radio) ∈ wifiIface role radios ssid encryption key band radio :=
  List.mem_append_left _ (List.mem_append_left _ (List.mem_append_left _ List.mem_cons_self))

theorem security_mem_wifiIface {entry : String × List Char} (member : entry ∈ securityOptions band encryption key) :
    entry ∈ wifiIface role radios ssid encryption key band radio := by
  rw [wifiIface, List.append_assoc, List.append_assoc, List.mem_append, List.mem_append]
  exact .inr (.inl member)

/-- The encryption that is set. -/
def setEncryption (band encryption : List Char) : List Char :=
  if encryption ≠ "none".toList then
    if band = "6g".toList then
      if encryption ∈ ["sae".toList, "sae-mixed".toList, "owe".toList] then encryption else "sae".toList
    else encryption
  else if band = "6g".toList then "owe".toList
  else "none".toList

theorem encryption_mem_securityOptions (band encryption key : List Char) :
    ("encryption", setEncryption band encryption) ∈ securityOptions band encryption key := by
  rw [setEncryption, securityOptions]
  by_cases keyed : encryption ≠ "none".toList
  · rw [if_pos keyed, if_pos keyed]
    by_cases six : band = "6g".toList
    · rw [if_pos six, if_pos six]
      exact List.mem_cons_self
    · rw [if_neg six, if_neg six]
      exact List.mem_cons_self
  · rw [if_neg keyed, if_neg keyed]
    by_cases six : band = "6g".toList
    · rw [if_pos six, if_pos six]
      exact List.mem_cons_self
    · rw [if_neg six, if_neg six]
      exact List.mem_cons_self

theorem protection_mem_securityOptions (encryption key : List Char) :
    ("ieee80211w", "2".toList) ∈ securityOptions "6g".toList encryption key := by
  rw [securityOptions]
  split
  next =>
    rw [if_pos rfl]
    exact List.mem_cons_of_mem _ List.mem_cons_self
  next =>
    rw [if_pos rfl]
    exact List.mem_cons_of_mem _ List.mem_cons_self

theorem key_mem_securityOptions (band : List Char) {encryption : List Char} (key : List Char) (keyed : encryption ≠ "none".toList) :
    ("key", key) ∈ securityOptions band encryption key := by
  rw [securityOptions, if_pos keyed]
  exact List.mem_append_right _ (List.mem_singleton_self _)

theorem setEncryption_ne_nil (some : encryption ≠ []) : setEncryption band encryption ≠ [] := by
  rw [setEncryption]
  split_ifs
  · exact some
  · decide
  · exact some
  · decide
  · decide

/-- On 6 GHz only the encryptions of WPA3 are set. -/
theorem setEncryption_six (encryption : List Char) : setEncryption "6g".toList encryption ∈ ["sae".toList, "sae-mixed".toList, "owe".toList] := by
  rw [setEncryption, if_pos rfl, if_pos rfl]
  split
  next =>
    split
    next strong => exact strong
    next => decide
  next => decide

/-- The key of an accepted section fits the encryption that is set on each of its bands. -/
theorem validWirelessKey_setEncryption (entry : AcceptedEntry ssid bands encryption key) (part : band ∈ fields (splitBands bands))
    (keyed : setEncryption band encryption ∈ keyEncryptions) :
    encryption ≠ "none".toList ∧ validWirelessKey key (setEncryption band encryption) = true := by
  have sixG : band = "6g".toList → hasSixG bands = true := by
    have table : ∀ bands ∈ bandTexts, ∀ band ∈ fields (splitBands bands), band = "6g".toList → hasSixG bands = true := by decide
    exact table bands entry.listed band part
  have listed : encryption ≠ "none".toList := by
    rintro rfl
    rw [setEncryption, if_neg (not_not.mpr rfl)] at keyed
    split at keyed
    next => exact absurd keyed (by decide)
    next => exact absurd keyed (by decide)
  refine ⟨listed, ?_⟩
  rw [setEncryption, if_pos listed] at keyed ⊢
  rcases entry.keyed with free | ⟨-, valid⟩
  · -- `owe` stays as it is and has no key.
    have owe : encryption = "owe".toList := by
      rcases List.mem_pair.mp free with none | owe
      · exact absurd none listed
      · exact owe
    have own : "owe".toList ∈ ["sae".toList, "sae-mixed".toList, "owe".toList] := by decide
    rw [owe, if_pos own, ite_self] at keyed
    exact absurd keyed (by decide)
  · cases six : hasSixG bands with
    | true =>
        rw [six, if_pos rfl] at valid
        exact validWirelessKey_of_sae valid
    | false =>
        rw [six, if_neg Bool.false_ne_true] at valid
        rw [if_neg fun same => Bool.false_ne_true (six.symm.trans (sixG same))]
        exact valid

/-- A generated section is fit for its radio, whatever stood in the section before. -/
theorem safe_wifiIface {basicWpad : Bool} (entry : AcceptedEntry ssid bands encryption key) (part : band ∈ fields (splitBands bands))
    (member : radio ∈ (devices.radios basicWpad).ofBand band) (s : Uci.Section) :
    SixGSafe devices (s.setAll (wifiIface role (devices.radios basicWpad) ssid encryption key band radio)).options ∧
      KeySafe (s.setAll (wifiIface role (devices.radios basicWpad) ssid encryption key band radio)).options := by
  have some : encryption ≠ [] := by
    rcases entry.keyed with free | ⟨keyed, -⟩
    · rintro rfl
      exact absurd free (by decide)
    · rintro rfl
      exact absurd keyed (by decide)
  have set := @lookup_iface role ssid encryption key band radio (devices.radios basicWpad) _ _ s
    (security_mem_wifiIface (encryption_mem_securityOptions band encryption key))
  rw [if_neg (setEncryption_ne_nil some)] at set
  constructor
  · intro device listed sixG here
    obtain ⟨own, ownListed, name, ownBand⟩ := mem_radios member
    have named := @lookup_iface role ssid encryption key band radio (devices.radios basicWpad) _ _ s device_mem_wifiIface
    rw [here] at named
    split at named
    next => cases named
    next =>
      have same : device = own := by
        rw [Option.some.injEq, Value.option.injEq] at named
        exact band_unique listed ownListed (named.trans name.symm)
      have six : band = "6g".toList := by rw [← ownBand, ← same, sixG]
      subst six
      refine ⟨⟨_, setEncryption_six encryption, set⟩, ?_⟩
      exact lookup_iface (security_mem_wifiIface (protection_mem_securityOptions encryption key))
  · intro given keyed here
    rw [here, Option.some.injEq, Value.option.injEq] at set
    rw [set] at keyed ⊢
    obtain ⟨listed, valid⟩ := validWirelessKey_setEncryption entry part keyed
    refine ⟨key, ?_, valid⟩
    have stored := @lookup_iface role ssid encryption key band radio (devices.radios basicWpad) _ _ s
      (security_mem_wifiIface (key_mem_securityOptions band key listed))
    rwa [if_neg (validWirelessKey_ne_nil valid)] at stored

end Generated

/-! ## The settings -/

section Settings

variable {devices : WifiDevices} {config : AcConfig}

theorem guarded_deleteOldWifi {wireless : Config} (guarded : Guarded devices wireless) : Guarded devices (deleteOldWifi wireless) :=
  fun entry member => guarded entry (List.mem_filter.mp member).1

theorem guarded_create {wireless : Config} (guarded : Guarded devices wireless) {name : String} {change : Uci.Section → Uci.Section}
    (safe : ∀ s, SixGSafe devices (change s).options ∧ KeySafe (change s).options) : Guarded devices (wireless.create name wifiIfaceType change) := by
  intro entry member iface
  rw [Config.create_eq_put] at member
  rcases Keyed.mem_put member with rfl | before
  · exact safe _
  · exact guarded entry before iface

/-- Where a generated section comes from. -/
theorem mem_wifiIfaces {role : List Char} {radios : Radios} {iface : List (String × List Char)} (member : iface ∈ wifiIfaces role radios config) :
    ∃ s ∈ config.sections, s.isWifim = true ∧ ∃ band ∈ fields (splitBands ((acOption s.options "band").getD "2g5g".toList)),
      ∃ radio ∈ radios.ofBand band, iface = wifiIface role radios ((acOption s.options "ssid").getD []) ((acOption s.options "encryption").getD [])
        ((acOption s.options "key").getD []) band radio := by
  obtain ⟨s, listed, inside⟩ := List.mem_flatMap.mp member
  obtain ⟨listed, wifim⟩ := List.mem_filter.mp listed
  refine ⟨s, listed, wifim, ?_⟩
  rw [entryIfaces] at inside
  split at inside
  next =>
    obtain ⟨band, part, inside⟩ := List.mem_flatMap.mp inside
    obtain ⟨radio, here, rfl⟩ := List.mem_map.mp inside
    exact ⟨band, part, radio, here, rfl⟩
  next => cases inside

/-- Whatever an accepted configuration has in it, what it makes is fit for the radios. -/
theorem guarded_generate {role : List Char} {basicWpad : Bool} (accepted : config.validateAcConfig = true) {wireless : Config}
    (guarded : Guarded devices wireless) : Guarded devices (generate role (devices.radios basicWpad) config wireless) := by
  have all : ∀ (ifaces : List (List (String × List Char) × ℕ)) (wireless : Config), Guarded devices wireless →
      (∀ iface ∈ ifaces, iface.1 ∈ wifiIfaces role (devices.radios basicWpad) config) →
        Guarded devices (ifaces.foldl (fun wireless iface => wireless.create (wifinet iface.2) wifiIfaceType fun s => s.setAll iface.1) wireless) := by
    intro ifaces
    induction ifaces with
    | nil => exact fun _ guarded _ => guarded
    | cons iface rest ih =>
        intro wireless guarded inside
        rw [List.forall_mem_cons] at inside
        refine ih _ (guarded_create guarded fun before => ?_) inside.2
        obtain ⟨s, listed, wifim, band, part, radio, here, same⟩ := mem_wifiIfaces inside.1
        rw [same]
        exact safe_wifiIface (acceptedEntry_of_accepted accepted listed wifim) part here before
  refine all _ _ (guarded_deleteOldWifi guarded) fun iface member => ?_
  exact List.fst_mem_of_mem_zipIdx member

end Settings

end XWrt.Fakemesh
