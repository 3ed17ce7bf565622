import XWrt.Foundation.Pieces
import XWrt.Foundation.Uci
import XWrt.P910nd.FirmwareModel

/-!
# A printer is plugged in

`p910nd.hotplug`, for events `add` of a printer. The first section whose device
is the node, or a new one, is given defaults from the IEEE 1284 ID and the USB
attributes. An option counts as missing where nothing comes back of what
`uci get` prints: line breaks at the end of a value do not come back.
-/

namespace XWrt.P910nd.Hotplug

open XWrt.Foundation
open Shell Text Uci
open Keyed (put mem_of_lookup)

/-! ## The IEEE 1284 ID -/

inductive Field where
  | MFG | MDL | CMD | CLS | DES | DRV | CID | CMT | SN | VER
  deriving DecidableEq, Repr

/-- The patterns of the `case`, in their order. -/
def aliases : List (String × Field) :=
  [("MFG:", .MFG), ("MANUFACTURER:", .MFG), ("MFR:", .MFG), ("MDL:", .MDL), ("MODEL:", .MDL), ("CMD:", .CMD), ("COMMAND SET:", .CMD),
    ("CLS:", .CLS), ("DES:", .DES), ("DESCRIPTION:", .DES), ("DRV:", .DRV), ("CID:", .CID), ("COMPATIBLEID:", .CID), ("COMMENT:", .CMT),
    ("SN:", .SN), ("SERIALNUMBER:", .SN), ("SERN:", .SN), ("VER:", .VER)]

/-- `case $i in`, with `${i#*:}` as the value of the field -/
def store (fields : Field → Text) (i : Text) : Field → Text :=
  match aliases.find? fun entry => entry.1.toList <+: i with
  | some entry => Function.update fields entry.2 ((i.dropWhile (· != ':')).drop 1)
  | none => fields

/-- `while [ -n "$info" ]`, at most so many times. -/
def splitInfo : ℕ → Text → (Field → Text) → Field → Text
  | 0, _, fields => fields
  | fuel + 1, info, fields =>
      if info = [] then fields
      else splitInfo fuel ((info.dropWhile (· != ';')).drop 1) (store fields (info.takeWhile (· != ';')))

/-- The fields of an ID; every turn of the loop takes a character at least. -/
def readInfo (info : Text) : Field → Text := splitInfo info.length info fun _ => []

/-! ## Events -/

/-- An event `add` for `usb/lp` with a number, and what is read of the printer. -/
structure Event where
  number : Text
  ieee1284info : Text
  /-- what `$(cat …)` gives for the attributes -/
  bInterfaceProtocol : Text
  idVendor : Text
  idProduct : Text
  iSerialNumber : Text
  deriving DecidableEq

/-- The number has digits, the ID no line breaks, and a serial number from a command substitution none at its end. -/
structure Event.Printer (event : Event) : Prop where
  number : event.number ≠ [] ∧ ∀ char ∈ event.number, char.isDigit = true
  line : '\n' ∉ event.ieee1284info
  serial : event.iSerialNumber.getLast? ≠ some '\n'

namespace Event

variable (event : Event)

/-- `CHAR_DEV` -/
def charDev : Text := "/dev/usb/lp".toList ++ event.number

/-- `BIDIR` -/
def bidir : Text :=
  if event.bInterfaceProtocol = "01".toList then "0".toList
  else if event.bInterfaceProtocol = "02".toList ∨ event.bInterfaceProtocol = "03".toList then "1".toList
  else []

/-- `THIS_USB_VIDPID` -/
def usbVidpid : Text := event.idVendor ++ '/' :: event.idProduct

/-- `DRIVER_BLOBNAME_TAIL` -/
def driverBlobnameTail : Text := event.idVendor ++ '_' :: event.idProduct ++ ".bin".toList

/-- The fields, with the serial number of the USB device where the ID has none. -/
def fields : Field → Text :=
  let fields := readInfo event.ieee1284info
  if fields .SN = [] then Function.update fields .SN event.iSerialNumber else fields

/-- `tr -c 'A-Za-z0-9._-' '_'`, of one byte -/
def trChar (char : Char) : Char := if char.isAlphanum ∨ char ∈ ['.', '_', '-'] then char else '_'

/-- `DRIVER_FILE` -/
def driverFile : Text :=
  substitution ((event.fields .MFG ++ '_' :: event.fields .MDL ++ '_' :: event.driverBlobnameTail).map trChar)

/-- The calls of `set_printer_default` in front of the one for the driver. -/
def infoDefaults : List (String × Text) :=
  let fields := event.fields
  [("bidirectional", event.bidir), ("port", "0".toList), ("enabled", "1".toList), ("usbvidpid", event.usbVidpid)] ++
    (if fields .MDL ≠ [] then [("mdns", "1".toList)] else []) ++
    [("mdns_ty", fields .DES)] ++
    (if fields .DES ≠ [] then [("mdns_product", '(' :: fields .DES ++ [')'])] else []) ++
    [("mdns_mfg", fields .MFG), ("mdns_mdl", fields .MDL), ("mdns_cmd", fields .CMD), ("mdns_note", "Located near router".toList),
      ("mdns_cid", fields .CID), ("mdns_cls", fields .CLS), ("mdns_cmt", fields .CMT), ("mdns_drv", fields .DRV), ("mdns_sn", fields .SN),
      ("mdns_ver", fields .VER)]

/-- The calls of `set_printer_default`, in their order. -/
def defaults (driverHome : Text) : List (String × Text) :=
  event.infoDefaults ++
    (if event.fields .MFG ≠ [] ∧ event.fields .MDL ≠ [] ∧ event.driverBlobnameTail ≠ [] then
      [("driver_file", withoutSuffix ['/'] driverHome ++ '/' :: event.driverFile)] else [])

end Event

/-! ## The script -/

/-- The options of the sections of type `p910nd` and of type `hotplug`, each in the order of the file. -/
structure Config where
  p910nd : List Options
  hotplug : List Options
  deriving DecidableEq

/-- `$(uci -q get p910nd.@type[x].option)` -/
def got (sections : List Options) (x : ℕ) (option : String) : Text := ((sections[x]?).map (·.got option)).getD []

/-- The loop of `match_current_device`, at most so many times. -/
def matchFrom (sections : List Options) (charDev : Text) : ℕ → ℕ → Option ℕ
  | 0, _ => none
  | fuel + 1, x =>
      if x < sections.length then
        if charDev = got sections x "device" then some x else matchFrom sections charDev fuel (x + 1)
      else none

/-- `match_current_device`: the number of the section in `UCI_DEV_SECTION` -/
def matchCurrentDevice (sections : List Options) (charDev : Text) : Option ℕ := matchFrom sections charDev (sections.length + 1) 0

section Script

-- The values that `uci set` takes; what it prints for a new section stands for the last one.
variable (accepts : Text → Bool)

/-- `uci -q set` -/
def setOption (option : String) (value : Text) (options : Options) : Options :=
  if accepts value then put option (.option value) options else options

/-- `set_printer_default`, with the number of the section -/
def setPrinterDefault (x : ℕ) (sections : List Options) (call : String × Text) : List Options :=
  if call.2 = [] then sections
  else if got sections x call.1 = [] then sections.modify x (setOption accepts call.1 call.2)
  else sections

/-- `get_and_store_printer_info` -/
def getAndStorePrinterInfo (sections : List Options) (event : Event) (driverHome : Text) : List Options :=
  let (sections, x) := match matchCurrentDevice sections event.charDev with
    | some x => (sections, x)
    | none => ((sections ++ [[]]).modify sections.length (setOption accepts "device" event.charDev), sections.length)
  (event.defaults driverHome).foldl (setPrinterDefault accepts x) sections

/-- `DRIVER_HOME_DEFAULT` -/
def driverHomeDefault : Text := "/opt/p910nd_drivers".toList

/-- The section `hotplug` with the directory of the drivers. -/
def ensureHotplug (hotplug : List Options) : List Options :=
  let hotplug := if hotplug = [] then [[]] else hotplug
  if got hotplug 0 "driver_home" = [] then hotplug.modify 0 (setOption accepts "driver_home" driverHomeDefault) else hotplug

/-- `DRIVER_HOME` -/
def driverHome (hotplug : List Options) : Text :=
  let driverHome := got hotplug 0 "driver_home"
  if driverHome = ['/'] then driverHome else withoutSuffix ['/'] driverHome

/-- What the script does to the configuration. -/
def handle (config : Config) (event : Event) : Config :=
  let hotplug := ensureHotplug accepts config.hotplug
  ⟨getAndStorePrinterInfo accepts config.p910nd event (driverHome hotplug), hotplug⟩

def run (config : Config) (events : List Event) : Config := events.foldl (handle accepts) config

end Script

/-! ## What is meant -/

/-- The value of an option, as the file has it. -/
def valueOf (sections : List Options) (x : ℕ) (option : String) : Option Uci.Value := (sections[x]?).bind (·.lookup option)

/-- The first section whose device is the node. -/
def firstWithDevice (sections : List Options) (charDev : Text) : Option ℕ :=
  sections.findIdx? fun options => (options.lookup "device").map Value.printed = some charDev

/-- The value consists of line breaks. -/
def Blank (value : Uci.Value) : Prop := value.printed ≠ [] ∧ value.got = []

/-- A path with one component more than the directory, and not a step to the directory itself or upwards. -/
def DirectChild (directory path : Text) : Prop :=
  ∃ name, words (· != '/') path = words (· != '/') directory ++ [name] ∧ name ≠ ".".toList ∧ name ≠ "..".toList ∧
    (directory.head? = some '/' → path.head? = some '/')

/-- One event: what has a value keeps it, one section of the printers is touched or added, the same event again changes
nothing, and a path that is stored is in the directory of the drivers. -/
structure Undisturbed (accepts : Text → Bool) (before : Config) (event : Event) : Prop where
  kept : ∀ x option value, valueOf before.p910nd x option = some value → value.printed ≠ [] →
    valueOf (handle accepts before event).p910nd x option = some value
  keptHotplug : ∀ x option value, valueOf before.hotplug x option = some value → value.printed ≠ [] →
    valueOf (handle accepts before event).hotplug x option = some value
  first : ∀ x, firstWithDevice before.p910nd event.charDev = some x →
    (handle accepts before event).p910nd.length = before.p910nd.length ∧
      ∀ y, y ≠ x → (handle accepts before event).p910nd[y]? = before.p910nd[y]?
  added : firstWithDevice before.p910nd event.charDev = none →
    ∃ options : Options, (handle accepts before event).p910nd = before.p910nd ++ [options] ∧
      options.lookup "device" = some (.option event.charDev)
  again : handle accepts (handle accepts before event) event = handle accepts before event
  driverFile : ∀ x value, valueOf (handle accepts before event).p910nd x "driver_file" = some value →
    valueOf before.p910nd x "driver_file" ≠ some value →
    ∃ path, value = .option path ∧ DirectChild (driverHome (ensureHotplug accepts before.hotplug)) path

/-- What `uci get` prints comes back: for the directory of the drivers, for the device of the section that is found, and for
its options for which the event has a default. -/
structure Readable (accepts : Text → Bool) (config : Config) (event : Event) : Prop where
  home : ∀ value, valueOf config.hotplug 0 "driver_home" = some value → ¬Blank value
  device : ∀ x, matchCurrentDevice config.p910nd event.charDev = some x →
    (valueOf config.p910nd x "device").map Value.printed = some event.charDev
  values : ∀ x, matchCurrentDevice config.p910nd event.charDev = some x →
    ∀ call ∈ event.defaults (driverHome (ensureHotplug accepts config.hotplug)), call.2 ≠ [] → accepts call.2 = true →
      ∀ value, valueOf config.p910nd x call.1 = some value → ¬Blank value

/-- Printable characters are taken. -/
def TakesPrintable (accepts : Text → Bool) : Prop :=
  ∀ text : Text, (∀ char ∈ text, ' ' ≤ char ∧ char ≤ '~') → accepts text = true

/-! ## Texts that come back -/

theorem substitution_ne_nil {text : Text} {char : Char} (member : char ∈ text) (other : char ≠ '\n') : substitution text ≠ [] := by
  intro empty
  obtain ⟨n, whole⟩ := exists_substitution_append text
  rw [empty, List.nil_append] at whole
  rw [whole] at member
  exact other (List.eq_of_mem_replicate member)

theorem substitution_free {text : Text} (free : '\n' ∉ text) : substitution text = text :=
  substitution_eq_self fun last => free (List.mem_of_getLast? last)

/-- A value that comes back if it is there. -/
def Solid (text : Text) : Prop := text = [] ∨ substitution text ≠ []

theorem solid_free {text : Text} (free : '\n' ∉ text) : Solid text := by
  rw [Solid, substitution_free free]
  exact Classical.em _

theorem notMem_store {fields : Field → Text} (before : ∀ field, '\n' ∉ fields field) {i : Text} (free : '\n' ∉ i) :
    ∀ field, '\n' ∉ store fields i field := by
  intro field
  rw [store]
  cases aliases.find? fun entry => entry.1.toList <+: i with
  | none => exact before field
  | some entry =>
      by_cases same : field = entry.2
      · subst same
        dsimp only
        rw [Function.update_self]
        exact fun member => free ((List.dropWhile_sublist _).subset (List.mem_of_mem_drop member))
      · dsimp only
        rw [Function.update_of_ne same]
        exact before field

theorem notMem_splitInfo {info : Text} (free : '\n' ∉ info) {fields : Field → Text} (before : ∀ field, '\n' ∉ fields field) (fuel : ℕ) :
    ∀ field, '\n' ∉ splitInfo fuel info fields field := by
  induction fuel generalizing info fields with
  | zero => exact before
  | succ fuel ih =>
      rw [splitInfo]
      split
      next => exact before
      next =>
        refine ih (fun member => ?_) (notMem_store before fun member => ?_)
        · exact free ((List.dropWhile_sublist _).subset (List.mem_of_mem_drop member))
        · exact free ((List.takeWhile_sublist _).subset member)

theorem forall_mem_optional {holds : String × Text → Prop} {condition : Prop} [Decidable condition] {call : String × Text} (here : holds call) :
    ∀ other ∈ (if condition then [call] else []), holds other := by
  split
  next => exact List.forall_mem_singleton.mpr here
  next => exact List.forall_mem_nil _

namespace Event.Printer

variable {event : Event} (printer : event.Printer)
include printer

theorem notMem_charDev : '\n' ∉ event.charDev := by
  intro member
  rcases List.mem_append.mp member with front | digit
  · exact absurd front (by decide)
  · exact Bool.false_ne_true (printer.number.2 _ digit)

theorem solid_fields (field : Field) : Solid (event.fields field) := by
  have read := notMem_splitInfo printer.line (fun _ => List.not_mem_nil) event.ieee1284info.length
  rw [Event.fields]
  split
  next =>
    by_cases same : field = .SN
    · subst same
      rw [Function.update_self, Solid, substitution_eq_self printer.serial]
      exact Classical.em _
    · rw [Function.update_of_ne same]
      exact solid_free (read field)
  next => exact solid_free (read field)

/-- What is set comes back. -/
theorem solid_defaults (driverHome : Text) : ∀ call ∈ event.defaults driverHome, Solid call.2 := by
  have known {text : Text} (free : '\n' ∉ text) : Solid text := solid_free free
  have field := printer.solid_fields
  have bidir : Solid event.bidir := by
    rw [Event.bidir]
    split
    next => exact known (by decide)
    next =>
      split
      next => exact known (by decide)
      next => exact .inl rfl
  have vidpid : Solid event.usbVidpid := .inr (substitution_ne_nil (List.mem_append_right _ List.mem_cons_self) (by decide))
  have product : Solid ('(' :: event.fields .DES ++ [')']) := .inr (substitution_ne_nil List.mem_cons_self (by decide))
  have path : Solid (withoutSuffix ['/'] driverHome ++ '/' :: event.driverFile) :=
    .inr (substitution_ne_nil (List.mem_append_right _ List.mem_cons_self) (by decide))
  have none := List.forall_mem_nil fun call : String × Text => Solid call.2
  simp only [Event.defaults, Event.infoDefaults, List.forall_mem_append, List.forall_mem_cons]
  exact ⟨⟨⟨⟨⟨⟨bidir, known (by decide), known (by decide), vidpid, none⟩, forall_mem_optional (known (by decide))⟩, field .DES, none⟩,
    forall_mem_optional product⟩, field .MFG, field .MDL, field .CMD, known (by decide), field .CID, field .CLS, field .CMT, field .DRV,
    field .SN, field .VER, none⟩, forall_mem_optional path⟩

end Event.Printer

/-! ## The defaults of a section -/

section Fill

variable (accepts : Text → Bool)

/-- `set_printer_default`, on the options of the section -/
def setDefault (options : Options) (call : String × Text) : Options :=
  if call.2 = [] then options
  else if options.got call.1 = [] then setOption accepts call.1 call.2 options
  else options

/-- The section after all calls. -/
def fill (calls : List (String × Text)) (options : Options) : Options := calls.foldl (setDefault accepts) options

/-- Functions that agree on one element change it alike. -/
theorem modify_congr {α : Type*} {list : List α} {x : ℕ} {f g : α → α} (same : ∀ item, list[x]? = some item → f item = g item) :
    list.modify x f = list.modify x g := by
  apply List.ext_getElem?
  intro y
  rw [List.getElem?_modify, List.getElem?_modify]
  by_cases here : x = y
  · subst here
    cases found : list[x]? with
    | none => rfl
    | some item => simp [same item found]
  · simp [here]

theorem setPrinterDefault_eq (x : ℕ) (sections : List Options) (call : String × Text) :
    setPrinterDefault accepts x sections call = sections.modify x (setDefault accepts · call) := by
  have read (options : Options) (here : sections[x]? = some options) : got sections x call.1 = options.got call.1 := by
    rw [got, here]
    rfl
  rw [setPrinterDefault]
  split
  next empty =>
    refine (List.modify_id x sections).symm.trans (modify_congr fun options _ => ?_)
    rw [setDefault, if_pos empty]
    rfl
  next value =>
    split
    next missing =>
      refine modify_congr fun options here => ?_
      rw [setDefault, if_neg value, if_pos (read options here ▸ missing)]
    next present =>
      refine (List.modify_id x sections).symm.trans (modify_congr fun options here => ?_)
      rw [setDefault, if_neg value, if_neg (read options here ▸ present)]
      rfl

theorem foldl_setPrinterDefault (x : ℕ) (calls : List (String × Text)) (sections : List Options) :
    calls.foldl (setPrinterDefault accepts x) sections = sections.modify x (fill accepts calls) := by
  induction calls generalizing sections with
  | nil => exact (List.modify_id x sections).symm
  | cons call calls ih =>
      rw [List.foldl_cons, ih, setPrinterDefault_eq, List.modify_modify_eq]
      rfl

variable {accepts} {options : Options} {option : String}

theorem got_eq_of_lookup {other : Options} (same : other.lookup option = options.lookup option) : other.got option = options.got option := by
  rw [Options.got, same]
  rfl

theorem lookup_setOption_of_ne {key : String} (other : option ≠ key) (value : Text) :
    (setOption accepts key value options).lookup option = options.lookup option := by
  rw [setOption]
  split
  next => exact Keyed.lookup_put_of_ne _ _ other
  next => rfl

/-- A call leaves an option as it is, or gives it its value where nothing came back. -/
theorem lookup_setDefault (options : Options) (option : String) (call : String × Text) :
    (setDefault accepts options call).lookup option = options.lookup option ∨
      option = call.1 ∧ call.2 ≠ [] ∧ accepts call.2 = true ∧ options.got option = [] ∧
        (setDefault accepts options call).lookup option = some (.option call.2) := by
  rw [setDefault]
  split
  next => exact .inl rfl
  next value =>
    split
    next missing =>
      by_cases same : option = call.1
      · subst same
        cases taken : accepts call.2 with
        | true =>
            have set : setOption accepts call.1 call.2 options = put call.1 (.option call.2) options := if_pos taken
            exact .inr ⟨rfl, value, rfl, missing, by rw [set, Keyed.lookup_put_self]⟩
        | false => exact .inl (by rw [setOption, taken, if_neg Bool.false_ne_true])
      · exact .inl (lookup_setOption_of_ne same _)
    next => exact .inl rfl

/-- An option keeps its value, or nothing came back of it and it has that of a call. -/
theorem lookup_fill (calls : List (String × Text)) (options : Options) (option : String) :
    (fill accepts calls options).lookup option = options.lookup option ∨
      options.got option = [] ∧ ∃ call ∈ calls, option = call.1 ∧ call.2 ≠ [] ∧ accepts call.2 = true ∧
        (fill accepts calls options).lookup option = some (.option call.2) := by
  induction calls generalizing options with
  | nil => exact .inl rfl
  | cons call calls ih =>
      have rest := ih (setDefault accepts options call)
      rcases @lookup_setDefault accepts options option call with same | ⟨rfl, value, taken, missing, set⟩
      · rcases rest with kept | ⟨missing, later, member, found⟩
        · exact .inl (kept.trans same)
        · exact .inr ⟨got_eq_of_lookup same ▸ missing, later, List.mem_cons_of_mem _ member, found⟩
      · rcases rest with kept | ⟨-, later, member, found⟩
        · exact .inr ⟨missing, call, List.mem_cons_self, rfl, value, taken, kept.trans set⟩
        · exact .inr ⟨missing, later, List.mem_cons_of_mem _ member, found⟩

theorem got_fill_ne_nil (calls : List (String × Text)) (present : options.got option ≠ []) : (fill accepts calls options).got option ≠ [] := by
  rcases @lookup_fill accepts calls options option with kept | ⟨missing, -⟩
  · rwa [got_eq_of_lookup kept]
  · exact absurd missing present

/-- No call has anything to set. -/
theorem fill_of_settled {calls : List (String × Text)}
    (settled : ∀ call ∈ calls, call.2 = [] ∨ accepts call.2 = false ∨ options.got call.1 ≠ []) : fill accepts calls options = options := by
  induction calls with
  | nil => rfl
  | cons call calls ih =>
      rw [List.forall_mem_cons] at settled
      have first : setDefault accepts options call = options := by
        rw [setDefault]
        rcases settled.1 with empty | refused | present
        · rw [if_pos empty]
        · rw [setOption, refused, if_neg Bool.false_ne_true, ite_self, ite_self]
        · rw [if_neg present, ite_self]
      rw [fill, List.foldl_cons, first]
      exact ih settled.2

/-- After all calls, what each of them is about comes back. -/
theorem settled_fill {calls : List (String × Text)} (solid : ∀ call ∈ calls, Solid call.2) (options : Options) :
    ∀ call ∈ calls, call.2 = [] ∨ accepts call.2 = false ∨ (fill accepts calls options).got call.1 ≠ [] := by
  induction calls generalizing options with
  | nil => exact List.forall_mem_nil _
  | cons call calls ih =>
      rw [List.forall_mem_cons] at solid ⊢
      refine ⟨?_, ih solid.2 (setDefault accepts options call)⟩
      rcases solid.1 with empty | back
      · exact .inl empty
      · cases taken : accepts call.2 with
        | false => exact .inr (.inl rfl)
        | true =>
            refine .inr (.inr (got_fill_ne_nil calls ?_))
            rw [setDefault]
            split
            next empty => rw [empty] at back; exact absurd rfl back
            next =>
              split
              next =>
                rw [setOption, if_pos taken, Options.got, Keyed.lookup_put_self]
                exact back
              next present => exact present

/-- The calls a second time. -/
theorem fill_fill {calls : List (String × Text)} (solid : ∀ call ∈ calls, Solid call.2) (options : Options) :
    fill accepts calls (fill accepts calls options) = fill accepts calls options :=
  fill_of_settled (settled_fill solid options)

end Fill

/-! ## The section of the device -/

theorem matchFrom_eq (sections : List Options) (charDev : Text) {fuel x : ℕ} (enough : sections.length < fuel + x) :
    matchFrom sections charDev fuel x = ((sections.drop x).findIdx? fun options => charDev = options.got "device").map (· + x) := by
  induction fuel generalizing x with
  | zero =>
      rw [List.drop_eq_nil_of_le (by omega)]
      rfl
  | succ fuel ih =>
      rw [matchFrom]
      split
      next inside =>
        have here : got sections x "device" = sections[x].got "device" := by
          rw [got, List.getElem?_eq_getElem inside]
          rfl
        rw [List.drop_eq_getElem_cons inside, List.findIdx?_cons, here]
        split
        next same => simp [same]
        next other =>
          have next : ((sections.drop (x + 1)).findIdx? fun options => charDev = options.got "device").map (· + (x + 1)) =
              (((sections.drop (x + 1)).findIdx? fun options => charDev = options.got "device").map (· + 1)).map (· + x) := by
            rw [Option.map_map]
            refine congrArg (Option.map · _) (funext fun index => ?_)
            exact (by omega : index + (x + 1) = index + 1 + x)
          rw [ih (by omega), next]
          simp [other]
      next outside =>
        rw [List.drop_eq_nil_of_le (by omega)]
        rfl

/-- The loop finds the first section whose device comes back as the node. -/
theorem matchCurrentDevice_eq (sections : List Options) (charDev : Text) :
    matchCurrentDevice sections charDev = sections.findIdx? fun options => charDev = options.got "device" := by
  rw [matchCurrentDevice, matchFrom_eq _ _ (by omega)]
  simp

section Sections

variable {accepts : Text → Bool} {sections : List Options} {event : Event} {home : Text} {x : ℕ}

theorem got_eq (sections : List Options) (x : ℕ) (option : String) :
    got sections x option = ((valueOf sections x option).map Value.got).getD [] := by
  rw [got, valueOf]
  cases sections[x]? <;> rfl

/-- An option of a section keeps its value, or nothing came back of it and it has that of a call. -/
theorem valueOf_modify_fill (sections : List Options) (x : ℕ) (calls : List (String × Text)) (y : ℕ) (option : String) :
    valueOf (sections.modify x (fill accepts calls)) y option = valueOf sections y option ∨
      y = x ∧ got sections x option = [] ∧ ∃ call ∈ calls, option = call.1 ∧ call.2 ≠ [] ∧ accepts call.2 = true ∧
        valueOf (sections.modify x (fill accepts calls)) y option = some (.option call.2) := by
  rw [valueOf, valueOf, List.getElem?_modify]
  by_cases same : x = y
  · subst same
    cases here : sections[x]? with
    | none => exact .inl rfl
    | some options =>
        have read : got sections x option = options.got option := by
          rw [got, here]
          rfl
        simp only [Option.map_eq_map, Option.map_some, Option.bind_some, if_true]
        rcases @lookup_fill accepts calls options option with kept | ⟨missing, call, member, key, value, taken, found⟩
        · exact .inl kept
        · exact .inr ⟨trivial, read.trans missing, call, member, key, value, taken, found⟩
  · cases sections[y]? with
    | none => exact .inl rfl
    | some options => simp [same]

/-- What a section is given leaves the values that come back. -/
theorem kept_modify_fill {calls : List (String × Text)}
    (readable : ∀ call ∈ calls, call.2 ≠ [] → accepts call.2 = true → ∀ value, valueOf sections x call.1 = some value → ¬Blank value)
    {y : ℕ} {option : String} {value : Uci.Value} (here : valueOf sections y option = some value) (printed : value.printed ≠ []) :
    valueOf (sections.modify x (fill accepts calls)) y option = some value := by
  rcases @valueOf_modify_fill accepts sections x calls y option with kept | ⟨rfl, missing, call, member, rfl, some, taken, -⟩
  · rw [kept, here]
  · rw [got_eq, here] at missing
    exact absurd ⟨printed, missing⟩ (readable call member some taken value here)

/-- The options for which there are defaults, without the driver. -/
def optionNames : List String :=
  ["bidirectional", "port", "enabled", "usbvidpid", "mdns", "mdns_ty", "mdns_product", "mdns_mfg", "mdns_mdl", "mdns_cmd", "mdns_note",
    "mdns_cid", "mdns_cls", "mdns_cmt", "mdns_drv", "mdns_sn", "mdns_ver"]

theorem mem_optionNames (event : Event) : ∀ call ∈ event.infoDefaults, call.1 ∈ optionNames := by
  have none := List.forall_mem_nil fun call : String × Text => call.1 ∈ optionNames
  have product : "mdns_product" ∈ optionNames := by decide
  simp only [Event.infoDefaults, List.forall_mem_append, List.forall_mem_cons]
  exact ⟨⟨⟨⟨⟨by decide, by decide, by decide, by decide, none⟩, forall_mem_optional (by decide)⟩, by decide, none⟩,
    forall_mem_optional product⟩, by decide, by decide, by decide, by decide, by decide, by decide, by decide, by decide, by decide,
    by decide, none⟩

theorem device_notMem_defaults (event : Event) (home : Text) : ∀ call ∈ event.defaults home, call.1 ≠ "device" := by
  rw [Event.defaults, List.forall_mem_append]
  refine ⟨fun call member same => ?_, @forall_mem_optional (fun call => call.1 ≠ "device") _ _ _ (by simp)⟩
  have name := mem_optionNames event call member
  rw [same] at name
  exact absurd name (by decide)

/-- No default is about the device. -/
theorem lookup_device_fill (options : Options) : (fill accepts (event.defaults home) options).lookup "device" = options.lookup "device" := by
  rcases @lookup_fill accepts (event.defaults home) options "device" with kept | ⟨-, call, member, key, -⟩
  · exact kept
  · exact absurd key.symm (device_notMem_defaults event home call member)

theorem modify_concat {α : Type*} (list : List α) (item : α) (f : α → α) : (list ++ [item]).modify list.length f = list ++ [f item] := by
  induction list with
  | nil => rfl
  | cons first rest ih => simpa using ih

theorem store_of_match (found : matchCurrentDevice sections event.charDev = some x) :
    getAndStorePrinterInfo accepts sections event home = sections.modify x (fill accepts (event.defaults home)) := by
  rw [getAndStorePrinterInfo, found]
  exact foldl_setPrinterDefault accepts x _ sections

/-- The section that is added for an event. -/
def newSection (accepts : Text → Bool) (event : Event) (home : Text) : Options :=
  fill accepts (event.defaults home) [("device", .option event.charDev)]

theorem store_of_none (takes : accepts event.charDev = true) (missing : matchCurrentDevice sections event.charDev = none) :
    getAndStorePrinterInfo accepts sections event home = sections ++ [newSection accepts event home] := by
  have device : setOption accepts "device" event.charDev [] = [("device", .option event.charDev)] := by
    rw [setOption, if_pos takes]
    rfl
  rw [getAndStorePrinterInfo, missing]
  dsimp only
  rw [foldl_setPrinterDefault, modify_concat, modify_concat, device, newSection]

theorem lookup_device_newSection : (newSection accepts event home).lookup "device" = some (.option event.charDev) := by
  rw [newSection, lookup_device_fill]
  rfl

/-- What an element is found by does not change. -/
theorem findIdx?_modify {α : Type*} {holds : α → Bool} {f : α → α} (same : ∀ item, holds (f item) = holds item) (list : List α) (x : ℕ) :
    (list.modify x f).findIdx? holds = list.findIdx? holds := by
  induction list generalizing x with
  | nil => cases x <;> rfl
  | cons item list ih =>
      rw [List.modify_cons]
      split
      next => rw [List.findIdx?_cons, List.findIdx?_cons, same]
      next => rw [List.findIdx?_cons, List.findIdx?_cons, ih]

theorem match_modify_fill (charDev : Text) :
    matchCurrentDevice (sections.modify x (fill accepts (event.defaults home))) charDev = matchCurrentDevice sections charDev := by
  rw [matchCurrentDevice_eq, matchCurrentDevice_eq]
  refine findIdx?_modify (fun options => ?_) sections x
  rw [got_eq_of_lookup (lookup_device_fill options)]

theorem match_newSection (printer : event.Printer) (charDev : Text) :
    matchCurrentDevice (sections ++ [newSection accepts event home]) charDev =
      (matchCurrentDevice sections charDev).or (if charDev = event.charDev then some sections.length else none) := by
  have device : (newSection accepts event home).got "device" = event.charDev := by
    rw [Options.got, lookup_device_newSection]
    exact substitution_free printer.notMem_charDev
  rw [matchCurrentDevice_eq, matchCurrentDevice_eq, List.findIdx?_append]
  refine congrArg _ ?_
  rw [List.findIdx?_singleton, device]
  split
  next same => rw [if_pos (of_decide_eq_true same), Option.map_some, Nat.zero_add]
  next other => rw [if_neg fun same => other (decide_eq_true same), Option.map_none]

/-- A section that is found is found again. -/
theorem match_store (takes : accepts event.charDev = true) (printer : event.Printer) {charDev : Text}
    (found : matchCurrentDevice sections charDev = some x) :
    matchCurrentDevice (getAndStorePrinterInfo accepts sections event home) charDev = some x := by
  cases own : matchCurrentDevice sections event.charDev with
  | some y => rw [store_of_match own, match_modify_fill, found]
  | none => rw [store_of_none takes own, match_newSection printer, found, Option.some_or]

theorem match_store_self (takes : accepts event.charDev = true) (printer : event.Printer) :
    matchCurrentDevice (getAndStorePrinterInfo accepts sections event home) event.charDev =
      some ((matchCurrentDevice sections event.charDev).getD sections.length) := by
  cases own : matchCurrentDevice sections event.charDev with
  | some y => rw [match_store takes printer own, Option.getD_some]
  | none => rw [store_of_none takes own, match_newSection printer, own, if_pos rfl, Option.none_or, Option.getD_none]

/-- The same event a second time. -/
theorem store_store (takes : accepts event.charDev = true) (printer : event.Printer) :
    getAndStorePrinterInfo accepts (getAndStorePrinterInfo accepts sections event home) event home =
      getAndStorePrinterInfo accepts sections event home := by
  have solid := printer.solid_defaults home
  rw [store_of_match (match_store_self takes printer)]
  cases own : matchCurrentDevice sections event.charDev with
  | some y =>
      rw [store_of_match own, Option.getD_some, List.modify_modify_eq]
      exact modify_congr fun options _ => fill_fill solid options
  | none => rw [store_of_none takes own, Option.getD_none, modify_concat, newSection, fill_fill solid]

end Sections

/-! ## The directory of the drivers -/

section Home

variable {accepts : Text → Bool} {hotplug : List Options}

/-- The section `hotplug`, after one is added where there is none. -/
def withHotplug (hotplug : List Options) : List Options := if hotplug = [] then [[]] else hotplug

theorem ensureHotplug_eq (hotplug : List Options) :
    ensureHotplug accepts hotplug = (withHotplug hotplug).modify 0 (fill accepts [("driver_home", driverHomeDefault)]) := by
  have default : driverHomeDefault ≠ [] := by decide
  rw [← foldl_setPrinterDefault, List.foldl_cons, List.foldl_nil, setPrinterDefault, if_neg default]
  rfl

theorem valueOf_withHotplug (hotplug : List Options) (x : ℕ) (option : String) :
    valueOf (withHotplug hotplug) x option = valueOf hotplug x option := by
  rw [withHotplug]
  split
  next none =>
    rw [none]
    cases x with
    | zero => rfl
    | succ x => rfl
  next => rfl

theorem withHotplug_modify {f : Options → Options} : withHotplug ((withHotplug hotplug).modify 0 f) = (withHotplug hotplug).modify 0 f := by
  refine if_neg fun none => ?_
  have some : 0 < (withHotplug hotplug).length := by
    rw [withHotplug]
    split
    next => exact Nat.one_pos
    next present => exact List.length_pos_of_ne_nil present
  rw [← List.length_modify f, none] at some
  exact Nat.lt_irrefl 0 some

theorem solid_home : ∀ call ∈ [("driver_home", driverHomeDefault)], Solid call.2 := by
  rw [List.forall_mem_singleton]
  exact .inr (by decide)

/-- The section is there after the first event. -/
theorem ensureHotplug_ensureHotplug (hotplug : List Options) :
    ensureHotplug accepts (ensureHotplug accepts hotplug) = ensureHotplug accepts hotplug := by
  rw [ensureHotplug_eq, ensureHotplug_eq, withHotplug_modify, List.modify_modify_eq]
  exact modify_congr fun options _ => fill_fill solid_home options

/-- The values of the section come back, or are set. -/
theorem valueOf_ensureHotplug (hotplug : List Options) (x : ℕ) (option : String) :
    valueOf (ensureHotplug accepts hotplug) x option = valueOf hotplug x option ∨
      valueOf (ensureHotplug accepts hotplug) x option = some (.option driverHomeDefault) := by
  rw [ensureHotplug_eq, ← valueOf_withHotplug hotplug x option]
  rcases @valueOf_modify_fill accepts (withHotplug hotplug) 0 [("driver_home", driverHomeDefault)] x option with
    kept | ⟨-, -, call, member, -, -, -, found⟩
  · exact .inl kept
  · rw [List.mem_singleton.mp member] at found
    exact .inr found

theorem not_blank_of_solid {text : Text} (some : text ≠ []) (solid : Solid text) : ¬Blank (.option text) :=
  fun blank => solid.elim some fun back => back blank.2

end Home

/-! ## The path of the driver -/

section Path

theorem words_withoutSuffix (path : Text) : words (· != '/') (withoutSuffix ['/'] path) = words (· != '/') path := by
  rw [withoutSuffix]
  split
  next ends =>
    obtain ⟨front, rfl⟩ := ends
    rw [words_append rfl, List.take_left' (by simp), words_nil, List.append_nil]
  next => rfl

theorem head?_withoutSuffix {path : Text} (rest : Text) (root : path.head? = some '/') :
    (withoutSuffix ['/'] path ++ '/' :: rest).head? = some '/' := by
  rw [withoutSuffix]
  split
  next =>
    cases path with
    | nil => cases root
    | cons first others =>
        cases others with
        | nil => rfl
        | cons second others => exact root
  next =>
    rw [List.head?_append, root]
    rfl

theorem trChar_spec (char : Char) : Event.trChar char ≠ '/' ∧ Event.trChar char ≠ '\n' := by
  rw [Event.trChar]
  split
  next plain =>
    constructor
    · rintro rfl
      revert plain
      decide
    · rintro rfl
      revert plain
      decide
  next => decide

variable (event : Event)

/-- The name has an underscore and no slash. -/
theorem driverFile_spec : '/' ∉ event.driverFile ∧ '_' ∈ event.driverFile := by
  have free (text : Text) (char : Char) (other : ∀ item, Event.trChar item ≠ char) : char ∉ text.map Event.trChar := by
    intro member
    obtain ⟨item, -, same⟩ := List.mem_map.mp member
    exact other item same
  rw [Event.driverFile, substitution_free (free _ _ fun item => (trChar_spec item).2)]
  refine ⟨free _ _ fun item => (trChar_spec item).1, ?_⟩
  refine List.mem_map.mpr ⟨'_', ?_, rfl⟩
  rw [List.append_assoc]
  exact List.mem_append_right _ List.mem_cons_self

theorem directChild_driverFile (home : Text) : DirectChild home (withoutSuffix ['/'] home ++ '/' :: event.driverFile) := by
  obtain ⟨slash, underscore⟩ := driverFile_spec event
  refine ⟨event.driverFile, ?_, ?_, ?_, head?_withoutSuffix event.driverFile⟩
  · rw [words_append rfl, words_withoutSuffix, words_word (fun char member => ?_) (List.ne_nil_of_mem underscore)]
    exact bne_iff_ne.mpr fun same => slash (same ▸ member)
  · intro same
    rw [same] at underscore
    exact absurd underscore (by decide)
  · intro same
    rw [same] at underscore
    exact absurd underscore (by decide)

theorem path_of_mem_defaults {home : Text} {call : String × Text} (member : call ∈ event.defaults home) (driver : call.1 = "driver_file") :
    call.2 = withoutSuffix ['/'] home ++ '/' :: event.driverFile := by
  rcases List.mem_append.mp member with info | last
  · have name := mem_optionNames event call info
    rw [driver] at name
    exact absurd name (by decide)
  · split at last
    next => exact congrArg Prod.snd (List.mem_singleton.mp last)
    next => cases last

end Path

/-! ## One event -/

section Step

variable {accepts : Text → Bool} {config : Config} {event : Event}

theorem takes_charDev (takes : TakesPrintable accepts) (printer : event.Printer) : accepts event.charDev = true := by
  have slashes : ∀ char ∈ "/dev/usb/lp".toList, ' ' ≤ char ∧ char ≤ '~' := by decide
  refine takes _ fun char member => ?_
  rcases List.mem_append.mp member with front | digit
  · exact slashes char front
  · have digits := printer.number.2 char digit
    simp only [Char.isDigit, Bool.and_eq_true, decide_eq_true_eq, ge_iff_le] at digits
    have low : ' '.val ≤ '0'.val := by decide
    have high : '9'.val ≤ '~'.val := by decide
    exact ⟨UInt32.le_trans low digits.1, UInt32.le_trans digits.2 high⟩

/-- Where a value comes from. -/
theorem valueOf_store {sections : List Options} {home : Text} {x : ℕ} {option : String} {value : Uci.Value} (device : accepts event.charDev = true)
    (here : valueOf (getAndStorePrinterInfo accepts sections event home) x option = some value) :
    valueOf sections x option = some value ∨
      (∃ call ∈ event.defaults home, option = call.1 ∧ call.2 ≠ [] ∧ value = .option call.2) ∨
        option = "device" ∧ value = .option event.charDev := by
  cases own : matchCurrentDevice sections event.charDev with
  | some y =>
      rw [store_of_match own] at here
      rcases @valueOf_modify_fill accepts sections y (event.defaults home) x option with kept | ⟨-, -, call, member, key, some, -, found⟩
      · exact .inl (kept.symm.trans here)
      · exact .inr (.inl ⟨call, member, key, some, Option.some.inj (here.symm.trans found)⟩)
  | none =>
      rw [store_of_none device own, valueOf, List.getElem?_append] at here
      split at here
      next => exact .inl here
      next =>
        obtain ⟨options, last, here⟩ := Option.bind_eq_some_iff.mp here
        have single : options = newSection accepts event home := List.mem_singleton.mp (List.mem_of_getElem? last)
        rw [single, newSection] at here
        rcases @lookup_fill accepts (event.defaults home) [("device", .option event.charDev)] option with
          kept | ⟨-, call, member, key, some, -, found⟩
        · rw [kept, List.lookup_cons] at here
          split at here
          next same => exact .inr (.inr ⟨eq_of_beq same, (Option.some.inj here).symm⟩)
          next => cases here
        · exact .inr (.inl ⟨call, member, key, some, Option.some.inj (here.symm.trans found)⟩)

/-- The directory of the drivers does not change. -/
theorem driverHome_handle : driverHome (ensureHotplug accepts (handle accepts config event).hotplug) = driverHome (ensureHotplug accepts config.hotplug) :=
  congrArg driverHome (ensureHotplug_ensureHotplug config.hotplug)

theorem handle_handle (takes : TakesPrintable accepts) (printer : event.Printer) :
    handle accepts (handle accepts config event) event = handle accepts config event := by
  have device := takes_charDev takes printer
  rw [handle, driverHome_handle]
  refine congrArg₂ Config.mk ?_ (ensureHotplug_ensureHotplug config.hotplug)
  exact store_store device printer

/-- The section that is found is the first whose device is the node. -/
theorem firstWithDevice_eq (printer : event.Printer)
    (device : ∀ x, matchCurrentDevice config.p910nd event.charDev = some x →
      (valueOf config.p910nd x "device").map Value.printed = some event.charDev) :
    firstWithDevice config.p910nd event.charDev = matchCurrentDevice config.p910nd event.charDev := by
  have comes (options : Options) (same : (options.lookup "device").map Value.printed = some event.charDev) :
      options.got "device" = event.charDev := by
    obtain ⟨value, found, printed⟩ := Option.map_eq_some_iff.mp same
    rw [Options.got, found, Option.map_some, Option.getD_some, Value.got, printed]
    exact substitution_free printer.notMem_charDev
  rw [matchCurrentDevice_eq] at device ⊢
  rw [firstWithDevice]
  cases found : config.p910nd.findIdx? fun options => event.charDev = options.got "device" with
  | none =>
      rw [List.findIdx?_eq_none_iff] at found ⊢
      intro options member
      refine decide_eq_false fun same => ?_
      exact of_decide_eq_false (found options member) (comes options same).symm
  | some x =>
      have here := device x found
      obtain ⟨inside, -, before⟩ := List.findIdx?_eq_some_iff_getElem.mp found
      rw [List.findIdx?_eq_some_iff_getElem]
      rw [valueOf, List.getElem?_eq_getElem inside, Option.bind_some] at here
      refine ⟨inside, decide_eq_true here, fun y earlier same => before y earlier ?_⟩
      exact decide_eq_true (comes _ (of_decide_eq_true same)).symm

theorem undisturbed (takes : TakesPrintable accepts) (printer : event.Printer) (readable : Readable accepts config event) :
    Undisturbed accepts config event := by
  have device := takes_charDev takes printer
  have first := firstWithDevice_eq printer readable.device
  refine ⟨fun x option value here printed => ?_, fun x option value here printed => ?_, fun x found => ?_, fun missing => ?_,
    handle_handle takes printer, fun x value here fresh => ?_⟩
  case refine_1 =>
    cases own : matchCurrentDevice config.p910nd event.charDev with
    | some y =>
        rw [handle, store_of_match own]
        exact kept_modify_fill (readable.values y own) here printed
    | none =>
        rw [handle, store_of_none device own, valueOf]
        obtain ⟨options, inside, -⟩ := Option.bind_eq_some_iff.mp here
        rw [List.getElem?_append_left (List.getElem?_eq_some_iff.mp inside).1]
        exact here
  case refine_2 =>
    rw [handle, ensureHotplug_eq]
    refine kept_modify_fill (fun call member _ _ value home => ?_) ((valueOf_withHotplug _ _ _).trans here) printed
    rw [List.mem_singleton.mp member, valueOf_withHotplug] at home
    exact readable.home value home
  case refine_3 =>
    rw [handle, store_of_match (first ▸ found)]
    refine ⟨List.length_modify _ _ _, fun y other => ?_⟩
    exact List.getElem?_modify_ne _ _ (Ne.symm other)
  case refine_4 =>
    rw [handle, store_of_none device (first ▸ missing)]
    exact ⟨_, rfl, lookup_device_newSection⟩
  case refine_5 =>
    rcases valueOf_store device here with before | ⟨call, member, key, -, stored⟩ | ⟨key, -⟩
    · exact absurd before fresh
    · refine ⟨call.2, stored, ?_⟩
      rw [path_of_mem_defaults event member key.symm]
      exact directChild_driverFile event _
    · exact absurd key (by decide)

/-- A value of line breaks for which the event has a default is overwritten. -/
theorem not_blank_of_undisturbed (takes : TakesPrintable accepts) (printer : event.Printer) (calm : Undisturbed accepts config event) :
    (∀ value, valueOf config.hotplug 0 "driver_home" = some value → ¬Blank value) ∧
      ∀ x, matchCurrentDevice config.p910nd event.charDev = some x →
        ∀ call ∈ event.defaults (driverHome (ensureHotplug accepts config.hotplug)), call.2 ≠ [] → accepts call.2 = true →
          ∀ value, valueOf config.p910nd x call.1 = some value → ¬Blank value := by
  have overwritten {calls : List (String × Text)} (solid : ∀ call ∈ calls, Solid call.2) {call : String × Text} (member : call ∈ calls)
      (some : call.2 ≠ []) (taken : accepts call.2 = true) {sections : List Options} {x : ℕ} {value : Uci.Value}
      (here : valueOf sections x call.1 = Option.some value) (blank : Blank value) :
      valueOf (sections.modify x (fill accepts calls)) x call.1 ≠ Option.some value := by
    intro kept
    obtain ⟨options, inside, -⟩ := Option.bind_eq_some_iff.mp here
    rw [valueOf, List.getElem?_modify_eq, inside] at kept
    rcases settled_fill solid options call member with empty | refused | back
    · exact some empty
    · exact Bool.false_ne_true (refused.symm.trans taken)
    · refine back ?_
      have found : (fill accepts calls options).lookup call.1 = Option.some value := kept
      rw [Options.got, found]
      exact blank.2
  refine ⟨fun value here blank => ?_, fun x found call member some taken value here blank => ?_⟩
  · have kept := calm.keptHotplug 0 "driver_home" value here blank.1
    rw [handle, ensureHotplug_eq] at kept
    have printable : ∀ char ∈ driverHomeDefault, ' ' ≤ char ∧ char ≤ '~' := by decide
    exact overwritten solid_home List.mem_cons_self (by decide) (takes _ printable) ((valueOf_withHotplug _ _ _).trans here) blank kept
  · have kept := calm.kept x call.1 value here blank.1
    rw [handle, store_of_match found] at kept
    exact overwritten (printer.solid_defaults _) member some taken here blank kept

end Step

/-! ## Runs -/

section Runs

variable {accepts : Text → Bool} {config : Config}

/-- An event leaves what is readable for another one. -/
theorem Readable.handle {event other : Event} (takes : TakesPrintable accepts) (printer : event.Printer) (here : Readable accepts config event)
    (there : Readable accepts config other) : Readable accepts (Hotplug.handle accepts config event) other := by
  have device := takes_charDev takes printer
  have solid := printer.solid_defaults (driverHome (ensureHotplug accepts config.hotplug))
  have kept := (undisturbed takes printer here).kept
  have added (x : ℕ) (found : matchCurrentDevice (Hotplug.handle accepts config event).p910nd other.charDev = some x)
      (missing : matchCurrentDevice config.p910nd other.charDev = none) :
      other.charDev = event.charDev ∧ x = config.p910nd.length ∧
        (Hotplug.handle accepts config event).p910nd =
          config.p910nd ++ [newSection accepts event (driverHome (ensureHotplug accepts config.hotplug))] := by
    rw [Hotplug.handle] at found ⊢
    cases own : matchCurrentDevice config.p910nd event.charDev with
    | some y =>
        rw [store_of_match own, match_modify_fill, missing] at found
        cases found
    | none =>
        rw [store_of_none device own, match_newSection printer, missing, Option.none_or] at found
        split at found
        next same => exact ⟨same, (Option.some.inj found).symm, store_of_none device own⟩
        next => cases found
  refine ⟨fun value home => ?_, fun x found => ?_, fun x found call member some taken value stored => ?_⟩
  case refine_1 =>
    rcases @valueOf_ensureHotplug accepts config.hotplug 0 "driver_home" with same | default
    · exact there.home value (same.symm.trans home)
    · rw [← Option.some.inj (default.symm.trans home)]
      exact not_blank_of_solid (by decide) (solid_home _ List.mem_cons_self)
  case refine_2 =>
    cases before : matchCurrentDevice config.p910nd other.charDev with
    | some y =>
        rw [Hotplug.handle, match_store device printer before, Option.some.injEq] at found
        subst found
        have node := there.device y before
        obtain ⟨value, named, printed⟩ := Option.map_eq_some_iff.mp node
        have some : value.printed ≠ [] := by
          rw [printed]
          exact List.append_ne_nil_of_left_ne_nil (by decide) _
        rw [kept y "device" value named some]
        exact congrArg _ printed
    | none =>
        obtain ⟨same, rfl, whole⟩ := added x found before
        rw [whole, valueOf, List.getElem?_concat_length, Option.bind_some, lookup_device_newSection, same]
        rfl
  case refine_3 =>
    rw [driverHome_handle] at member
    rcases valueOf_store device stored with old | ⟨earlier, own, -, given, rfl⟩ | ⟨-, rfl⟩
    · cases before : matchCurrentDevice config.p910nd other.charDev with
      | some y =>
          rw [Hotplug.handle, match_store device printer before, Option.some.injEq] at found
          exact there.values x (found ▸ before) call member some taken value old
      | none =>
          obtain ⟨-, rfl, -⟩ := added x found before
          rw [valueOf, List.getElem?_eq_none_iff.mpr (Nat.le_refl _)] at old
          cases old
    · exact not_blank_of_solid given (solid earlier own)
    · refine not_blank_of_solid ?_ (solid_free printer.notMem_charDev)
      exact List.append_ne_nil_of_left_ne_nil (by decide) _

theorem run_concat (config : Config) (events : List Event) (event : Event) :
    run accepts config (events ++ [event]) = handle accepts (run accepts config events) event := by
  rw [run, List.foldl_append]
  rfl

theorem readable_run {events : List Event} (takes : TakesPrintable accepts) (printers : ∀ event ∈ events, event.Printer)
    (readable : ∀ event ∈ events, Readable accepts config event) {other : Event} (there : Readable accepts config other) :
    Readable accepts (run accepts config events) other := by
  induction events generalizing config with
  | nil => exact there
  | cons event events ih =>
      rw [List.forall_mem_cons] at printers readable
      refine ih printers.2 (fun later member => ?_) ?_
      · exact readable.1.handle takes printers.1 (readable.2 later member)
      · exact readable.1.handle takes printers.1 there

/-- After an event, no event for the node adds a section. -/
theorem length_after {event other : Event} (takes : TakesPrintable accepts) (between : List Event) (printer : event.Printer)
    (printers : ∀ event ∈ between, event.Printer) (same : other.charDev = event.charDev) :
    (handle accepts (run accepts (handle accepts config event) between) other).p910nd.length =
      (run accepts (handle accepts config event) between).p910nd.length := by
  have found : ∃ x, matchCurrentDevice (run accepts (handle accepts config event) between).p910nd other.charDev = some x := by
    have first : ∃ x, matchCurrentDevice (handle accepts config event).p910nd other.charDev = some x :=
      ⟨_, same ▸ match_store_self (takes_charDev takes printer) printer⟩
    generalize handle accepts config event = config at first
    induction between generalizing config with
    | nil => exact first
    | cons next between ih =>
        rw [List.forall_mem_cons] at printers
        obtain ⟨x, here⟩ := first
        exact ih printers.2 (handle accepts config next) ⟨x, match_store (takes_charDev takes printers.1) printers.1 here⟩
  obtain ⟨x, here⟩ := found
  rw [handle, store_of_match here, List.length_modify]

/-- In a run of events of printers in which what is read comes back, every event leaves the settings undisturbed, and no two
events add sections for one node. -/
theorem printers_undisturbed (takes : TakesPrintable accepts) (config : Config) (events : List Event)
    (printers : ∀ event ∈ events, event.Printer) (readable : ∀ event ∈ events, Readable accepts config event) :
    (∀ done event, done ++ [event] <+: events → Undisturbed accepts (run accepts config done) event) ∧
      ∀ done event between other, done ++ [event] ++ between ++ [other] <+: events → other.charDev = event.charDev →
        (run accepts config (done ++ [event] ++ between ++ [other])).p910nd.length =
          (run accepts config (done ++ [event] ++ between)).p910nd.length := by
  refine ⟨fun done event before => ?_, fun done event between other before same => ?_⟩
  · have inside : ∀ member ∈ done ++ [event], member ∈ events := fun member inside => before.subset inside
    rw [List.forall_mem_append, List.forall_mem_singleton] at inside
    refine undisturbed takes (printers event inside.2) ?_
    exact readable_run takes (fun earlier member => printers earlier (inside.1 earlier member))
      (fun earlier member => readable earlier (inside.1 earlier member)) (readable event inside.2)
  · have inside : ∀ member ∈ done ++ [event] ++ between ++ [other], member ∈ events := fun member inside => before.subset inside
    rw [List.forall_mem_append, List.forall_mem_append, List.forall_mem_append] at inside
    have split : run accepts config (done ++ [event] ++ between) = run accepts (handle accepts (run accepts config done) event) between := by
      rw [← run_concat, run, run, run, List.foldl_append]
    rw [run_concat, split]
    exact length_after takes between (printers event (inside.1.1.2 event List.mem_cons_self))
      (fun later member => printers later (inside.1.2 later member)) same

end Runs

/-! ## Settings without line breaks -/

/-- No value ends with a line break. -/
def Plain (config : Config) : Prop :=
  ∀ options ∈ config.p910nd ++ config.hotplug, ∀ entry ∈ options, entry.2.printed.getLast? ≠ some '\n'

theorem mem_of_valueOf {sections : List Options} {x : ℕ} {option : String} {value : Uci.Value} (here : valueOf sections x option = some value) :
    ∃ options ∈ sections, (option, value) ∈ options := by
  obtain ⟨options, inside, found⟩ := Option.bind_eq_some_iff.mp here
  exact ⟨options, List.mem_of_getElem? inside, mem_of_lookup found⟩

/-- Such settings are readable for every event. -/
theorem Plain.readable {config : Config} (plain : Plain config) (accepts : Text → Bool) (event : Event) : Readable accepts config event := by
  have printer {x : ℕ} {option : String} {value : Uci.Value} (here : valueOf config.p910nd x option = some value) : value.got = value.printed := by
    obtain ⟨options, member, inside⟩ := mem_of_valueOf here
    exact substitution_eq_self (plain options (List.mem_append_left _ member) _ inside)
  have hotplug {x : ℕ} {option : String} {value : Uci.Value} (here : valueOf config.hotplug x option = some value) : value.got = value.printed := by
    obtain ⟨options, member, inside⟩ := mem_of_valueOf here
    exact substitution_eq_self (plain options (List.mem_append_right _ member) _ inside)
  refine ⟨fun value here blank => ?_, fun x found => ?_, fun x _ call _ _ _ value here blank => ?_⟩
  · exact blank.1 ((hotplug here).symm.trans blank.2)
  · rw [matchCurrentDevice_eq] at found
    obtain ⟨inside, same, -⟩ := List.findIdx?_eq_some_iff_getElem.mp found
    have back : event.charDev = got config.p910nd x "device" := by
      rw [got, List.getElem?_eq_getElem inside]
      exact of_decide_eq_true same
    rw [got_eq] at back
    cases here : valueOf config.p910nd x "device" with
    | none =>
        rw [here] at back
        exact absurd back (List.append_ne_nil_of_left_ne_nil (by decide) _)
    | some value =>
        rw [here] at back
        rw [Option.map_some, back, ← printer here]
        rfl
  · exact blank.1 ((printer here).symm.trans blank.2)

/-! ## A desk -/

/-- A printer at `/dev/usb/lp0`. -/
def laser : Event where
  number := ['0']
  ieee1284info := "MFG:Acme;MDL:Laser;CLS:PRINTER;".toList
  bInterfaceProtocol := "02".toList
  idVendor := "03f0".toList
  idProduct := "4117".toList
  iSerialNumber := "serial".toList

/-- Its section, with a note of the user. -/
def desk (note : Text) : Config := ⟨[[("device", .option laser.charDev), ("mdns_note", .option note)]], []⟩

/-- `uci set` takes no control characters but white space. -/
def printable (text : Text) : Bool := text.all fun char => ' ' ≤ char || char ∈ ['\t', '\n', '\r']

/-- The user has set the note to a line break; the event fills it in. -/
theorem note_overwritten :
    valueOf (desk ['\n']).p910nd 0 "mdns_note" = some (.option ['\n']) ∧
      valueOf (handle printable (desk ['\n']) laser).p910nd 0 "mdns_note" = some (.option "Located near router".toList) ∧
      ¬Undisturbed printable (desk ['\n']) laser := by
  have before : valueOf (desk ['\n']).p910nd 0 "mdns_note" = some (.option ['\n']) := by decide +kernel
  have after : valueOf (handle printable (desk ['\n']) laser).p910nd 0 "mdns_note" = some (.option "Located near router".toList) := by
    decide +kernel
  refine ⟨before, after, fun calm => ?_⟩
  have kept := after.symm.trans (calm.kept 0 "mdns_note" _ before (List.cons_ne_nil _ _))
  exact absurd kept (by decide)

theorem printable_takes : TakesPrintable printable := fun text plain =>
  List.all_eq_true.mpr fun char member => by simp [(plain char member).1]

theorem laser_printer : laser.Printer := ⟨by decide +kernel, by decide +kernel, by decide +kernel⟩

/-- The printer is plugged in twice. -/
theorem laser_undisturbed :
    (∀ done event, done ++ [event] <+: [laser, laser] → Undisturbed printable (run printable (desk ['x']) done) event) ∧
      ∀ done event between other, done ++ [event] ++ between ++ [other] <+: [laser, laser] → other.charDev = event.charDev →
        (run printable (desk ['x']) (done ++ [event] ++ between ++ [other])).p910nd.length =
          (run printable (desk ['x']) (done ++ [event] ++ between)).p910nd.length := by
  have plain : Plain (desk ['x']) := by
    intro options member
    rw [desk, List.append_nil, List.mem_singleton] at member
    rw [member, List.forall_mem_cons, List.forall_mem_singleton]
    exact ⟨by decide +kernel, by decide +kernel⟩
  refine printers_undisturbed printable_takes _ _ (fun event member => ?_) fun event _ => plain.readable _ event
  rcases List.mem_cons.mp member with rfl | member
  · exact laser_printer
  · rw [List.mem_singleton.mp member]
    exact laser_printer

end XWrt.P910nd.Hotplug
