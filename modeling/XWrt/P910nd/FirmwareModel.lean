import Mathlib
import XWrt.Foundation.Keyed
import XWrt.Foundation.Pieces
import XWrt.Foundation.Shell

/-!
# The firmware of a printer

The hotplug script selects a file by the USB product and then asks the printer
for its IEEE 1284 ID. A field `FWVER` says that the firmware is there; the first
field `MDL` or `MODEL`, in upper case and without the words around the model,
must name the model of the file. The pipelines of the script are followed line
by line and then stated for the fields of the ID.
-/

namespace XWrt.P910nd

open XWrt.Foundation
open Text Shell

/-! ## The selection by product -/

/-- `case "${PRODUCT%/*}"`: vendor and product with the file. -/
def firmwareByProduct : List (List Char × List Char) :=
  [("3f0/517".toList, "/usr/share/p910nd/firmware/sihp1000.dl".toList),
    ("3f0/1317".toList, "/usr/share/p910nd/firmware/sihp1005.dl".toList),
    ("3f0/4117".toList, "/usr/share/p910nd/firmware/sihp1018.dl".toList),
    ("3f0/2b17".toList, "/usr/share/p910nd/firmware/sihp1020.dl".toList),
    ("3f0/3d17".toList, "/usr/share/p910nd/firmware/sihpP1005.dl".toList),
    ("3f0/3e17".toList, "/usr/share/p910nd/firmware/sihpP1006.dl".toList),
    ("3f0/4817".toList, "/usr/share/p910nd/firmware/sihpP1007.dl".toList),
    ("3f0/4917".toList, "/usr/share/p910nd/firmware/sihpP1008.dl".toList),
    ("3f0/3f17".toList, "/usr/share/p910nd/firmware/sihpP1505.dl".toList)]

def sharedFirmware : List Char := "/usr/share/p910nd/firmware/sihpP1008.dl".toList

/-- `${text%/*}` -/
def withoutLast (text : List Char) : List Char := if '/' ∈ text then (text.rdropWhile (· != '/')).dropLast else text

/-- `${text##*/}` -/
def lastPart (text : List Char) : List Char := text.rtakeWhile (· != '/')

/-- `${text#start}` -/
def withoutPrefix (start text : List Char) : List Char := if start <+: text then text.drop start.length else text

/-- `${text%ending}` -/
def withoutSuffix (ending text : List Char) : List Char := if ending <:+ text then text.take (text.length - ending.length) else text

/-- `FIRMWARE` -/
def firmware (product : List Char) : List Char := (firmwareByProduct.lookup (withoutLast product)).getD []

/-- `FIRMWARE_MODEL` -/
def firmwareModel (firmware : List Char) : List Char :=
  withoutSuffix ".dl".toList (withoutPrefix "sihp".toList (lastPart firmware))

/-! ## The ID of the printer -/

/-- `DEVICE_ID=$(usb_printerid -)`, which prints a line and the ID; the shell drops NUL characters. -/
def deviceId (id : List Char) : List Char :=
  substitution (("GET_DEVICE_ID string:\n".toList ++ id ++ ['\n']).filter (· != '\x00'))

/-- `^[[:space:]]*FWVER:` -/
def startsFwver (text : List Char) : Bool := "FWVER:".toList <+: text.dropWhile isSpace

/-- `printf '%s\n' "$DEVICE_ID" | grep -Eq '(^|;)[[:space:]]*FWVER:'` -/
def hasFwver (deviceId : List Char) : Bool :=
  (deviceId.splitOnP (· == '\n')).any fun line => (line :: afterSeparators (· == ';') line).any startsFwver

/-- `tr 'a-z;' 'A-Z\n'` -/
def trChar (char : Char) : Char := if char = ';' then '\n' else char.toUpper

/-- `/^[[:space:]]*\(MDL\|MODEL\):/` -/
def startsModel (line : List Char) : Bool :=
  "MDL:".toList <+: line.dropWhile isSpace || "MODEL:".toList <+: line.dropWhile isSpace

/-- `s/^[^:]*:[[:space:]]*//` and `s/[[:space:]]*$//`, of a line with a colon. -/
def fieldValue (line : List Char) : List Char := trim ((line.dropWhile (· != ':')).tail)

/-- What `sed` prints of the lines. -/
def printsModel (lines : List (List Char)) : List Char :=
  match lines.find? startsModel with
  | some line => fieldValue line ++ ['\n']
  | none => []

/-- `MODEL=$(printf '%s\n' "$DEVICE_ID" | tr … | sed …)` -/
def printedModel (deviceId : List Char) : List Char := substitution (printsModel ((deviceId.map trChar).splitOnP (· == '\n')))

/-- `MODEL` after its prefixes and its suffix are taken off and the variants are replaced. -/
def normalizedModel (model : List Char) : List Char :=
  let model := withoutSuffix " SERIES".toList (withoutPrefix "LASERJET ".toList (withoutPrefix "HP ".toList model))
  if model = "1018S".toList then "1018".toList
  else if model = "1020 PLUS".toList then "1020".toList
  else model

/-- `case "$FIRMWARE_MODEL:$MODEL"`: the file to send, if the model is expected. -/
def selectFirmware (firmware model : List Char) : Option (List Char) :=
  let subject := firmwareModel firmware ++ ':' :: model
  if subject = "P1006:P1009".toList then some sharedFirmware
  else if subject = firmwareModel firmware ++ ':' :: firmwareModel firmware then some firmware
  else none

/-! ## What is meant -/

/-- The fields of an ID; a line break ends one like a semicolon. -/
def idFields (id : List Char) : List (List Char) := id.splitOnP fun char => char == ';' || char == '\n'

/-- The ID without NUL characters. -/
def idText (id : List Char) : List Char := id.filter (· != '\x00')

/-- The value of the first field `MDL` or `MODEL`, in upper case. -/
def modelField (id : List Char) : Option (List Char) :=
  (((idFields id).map (List.map Char.toUpper)).find? startsModel).map fieldValue

/-- The models and their files. -/
def modelFiles : List (List Char × List Char) :=
  [("1000".toList, "/usr/share/p910nd/firmware/sihp1000.dl".toList),
    ("1005".toList, "/usr/share/p910nd/firmware/sihp1005.dl".toList),
    ("1018".toList, "/usr/share/p910nd/firmware/sihp1018.dl".toList),
    ("1020".toList, "/usr/share/p910nd/firmware/sihp1020.dl".toList),
    ("P1005".toList, "/usr/share/p910nd/firmware/sihpP1005.dl".toList),
    ("P1006".toList, "/usr/share/p910nd/firmware/sihpP1006.dl".toList),
    ("P1007".toList, "/usr/share/p910nd/firmware/sihpP1007.dl".toList),
    ("P1008".toList, "/usr/share/p910nd/firmware/sihpP1008.dl".toList),
    ("P1009".toList, "/usr/share/p910nd/firmware/sihpP1008.dl".toList),
    ("P1505".toList, "/usr/share/p910nd/firmware/sihpP1505.dl".toList)]

/-- The ID says that the firmware is missing, and that the file is the one for the model. -/
structure NeedsFirmware (id file : List Char) : Prop where
  missing : ∀ field ∈ idFields (idText id), ¬"FWVER:".toList <+: field.dropWhile isSpace
  model : ∃ value, modelField (idText id) = some value ∧ (normalizedModel value, file) ∈ modelFiles

/-! ## The pipelines and the fields -/

theorem startsFwver_takeWhile (text : List Char) :
    startsFwver (text.takeWhile fun char => !(char == ';')) = true ↔ startsFwver text = true := by
  have blanks : ∀ char, isSpace char = true → (!(char == ';')) = true := by
    intro char space
    cases same : char == ';' with
    | false => rfl
    | true =>
        rw [eq_of_beq same] at space
        exact absurd space (by decide)
  rw [startsFwver, startsFwver, decide_eq_true_eq, decide_eq_true_eq, dropWhile_takeWhile blanks]
  exact prefix_takeWhile_iff (by decide) _

/-- The `grep` finds a field `FWVER`. -/
theorem hasFwver_iff (text : List Char) : hasFwver text = true ↔ ∃ field ∈ idFields text, "FWVER:".toList <+: field.dropWhile isSpace := by
  have fields : idFields text = (text.splitOnP (· == '\n')).flatMap (List.splitOnP (· == ';')) := by
    rw [← splitOnP_or, idFields]
    congr 1
    funext char
    exact Bool.or_comm _ _
  have line (line : List Char) : (line :: afterSeparators (· == ';') line).any startsFwver = true ↔
      ∃ field ∈ line.splitOnP (· == ';'), "FWVER:".toList <+: field.dropWhile isSpace := by
    rw [List.any_eq_true, exists_start_iff startsFwver_takeWhile]
    simp only [startsFwver, decide_eq_true_eq]
  rw [hasFwver, List.any_eq_true, fields]
  simp only [line, List.mem_flatMap]
  constructor
  · rintro ⟨line, member, field, inside, key⟩
    exact ⟨field, ⟨line, member, inside⟩, key⟩
  · rintro ⟨field, ⟨line, member, inside⟩, key⟩
    exact ⟨line, member, field, inside, key⟩

theorem toUpper_eq_newline {char : Char} (upper : char.toUpper = '\n') : char = '\n' := by
  rw [Char.toUpper] at upper
  split at upper
  next lower =>
    have low : 97 ≤ char.val.toNat := UInt32.le_iff_toNat_le.mp lower.1
    have high : char.val.toNat ≤ 122 := UInt32.le_iff_toNat_le.mp lower.2
    have code := congrArg (fun char : Char => char.val.toNat) upper
    have shift : ('A'.val - 'a'.val).toNat = 2 ^ 32 - 32 := by decide
    have newline : '\n'.val.toNat = 10 := by decide
    simp only [UInt32.toNat_add, shift, newline] at code
    omega
  next => exact upper

theorem trChar_eq_newline (char : Char) : (trChar char == '\n') = (char == ';' || char == '\n') := by
  rw [trChar]
  split
  next semicolon => rw [semicolon]; rfl
  next other =>
    rw [beq_eq_false_iff_ne.mpr other, Bool.false_or]
    cases newline : char == '\n' with
    | true => rw [eq_of_beq newline]; rfl
    | false =>
        rw [beq_eq_false_iff_ne] at newline ⊢
        exact fun upper => newline (toUpper_eq_newline upper)

/-- The lines that `sed` reads are the fields in upper case. -/
theorem lines_trChar (text : List Char) : (text.map trChar).splitOnP (· == '\n') = (idFields text).map (List.map Char.toUpper) := by
  rw [splitOnP_map, funext trChar_eq_newline, ← idFields]
  refine List.map_congr_left fun field member => List.map_congr_left fun char inside => ?_
  have free := separates_of_mem_splitOnP member inside
  rw [Bool.or_eq_false_iff] at free
  rw [trChar, if_neg (beq_eq_false_iff_ne.mp free.1)]

/-! ## The ID as the shell has it -/

def headerLine : List Char := "GET_DEVICE_ID string:".toList

theorem idFields_header (text : List Char) : idFields (headerLine ++ '\n' :: text) = headerLine :: idFields text :=
  List.splitOnP_append_cons_of_forall_mem (by decide) '\n' rfl text

theorem deviceId_eq (id : List Char) : deviceId id = substitution (headerLine ++ '\n' :: idText id) := by
  have header : ("GET_DEVICE_ID string:\n".toList ++ id ++ ['\n']).filter (· != '\x00') = headerLine ++ '\n' :: idText id ++ ['\n'] := by
    rw [List.filter_append, List.filter_append, ← idText]
    rfl
  rw [deviceId, header, substitution_line]

/-- The fields are those of the ID after the first line, up to empty ones at the end. -/
theorem exists_idFields_deviceId (id : List Char) :
    ∃ n, headerLine :: idFields (idText id) = idFields (deviceId id) ++ List.replicate n [] := by
  obtain ⟨n, whole⟩ := exists_substitution_append (headerLine ++ '\n' :: idText id)
  refine ⟨n, ?_⟩
  rw [← idFields_header, whole, deviceId_eq]
  exact splitOnP_append_replicate rfl _ n

theorem hasFwver_deviceId (id : List Char) :
    hasFwver (deviceId id) = true ↔ ∃ field ∈ idFields (idText id), "FWVER:".toList <+: field.dropWhile isSpace := by
  obtain ⟨n, fields⟩ := exists_idFields_deviceId id
  rw [hasFwver_iff]
  have header : ¬"FWVER:".toList <+: headerLine.dropWhile isSpace := by decide
  have empty : ¬"FWVER:".toList <+: ([] : List Char).dropWhile isSpace := by decide
  constructor
  · rintro ⟨field, member, key⟩
    have here : field ∈ headerLine :: idFields (idText id) := fields ▸ List.mem_append_left _ member
    rcases List.mem_cons.mp here with rfl | inside
    · exact absurd key header
    · exact ⟨field, inside, key⟩
  · rintro ⟨field, member, key⟩
    have here : field ∈ idFields (deviceId id) ++ List.replicate n [] := fields ▸ List.mem_cons_of_mem _ member
    rcases List.mem_append.mp here with inside | last
    · exact ⟨field, inside, key⟩
    · rw [List.eq_of_mem_replicate last] at key
      exact absurd key empty

theorem substitution_fieldValue (line : List Char) : substitution (fieldValue line) = fieldValue line := by
  rw [substitution, List.rdropWhile_eq_self_iff]
  intro nonempty newline
  have ends : ¬isSpace ((fieldValue line).getLast nonempty) = true := List.rdropWhile_last_not isSpace _ nonempty
  rw [eq_of_beq newline] at ends
  exact ends (by decide)

/-- `MODEL` is the value of the first model field, and empty where there is none. -/
theorem printedModel_deviceId (id : List Char) : printedModel (deviceId id) = (modelField (idText id)).getD [] := by
  obtain ⟨n, fields⟩ := exists_idFields_deviceId id
  have found : ((idFields (deviceId id)).map (List.map Char.toUpper)).find? startsModel =
      ((idFields (idText id)).map (List.map Char.toUpper)).find? startsModel := by
    calc ((idFields (deviceId id)).map (List.map Char.toUpper)).find? startsModel
      _ = ((idFields (deviceId id) ++ List.replicate n []).map (List.map Char.toUpper)).find? startsModel := by
        rw [List.map_append, List.find?_append, List.map_replicate]
        have none : (List.replicate n (List.map Char.toUpper [])).find? startsModel = none := by
          rw [List.find?_eq_none]
          intro field member
          rw [List.eq_of_mem_replicate member]
          decide
        rw [none, Option.or_none]
      _ = _ := by
        rw [← fields, List.map_cons, List.find?_cons_of_neg (by decide)]
  rw [printedModel, lines_trChar, printsModel, modelField, found]
  cases ((idFields (idText id)).map (List.map Char.toUpper)).find? startsModel with
  | none => rfl
  | some line => exact (substitution_line _).trans (substitution_fieldValue line)

/-! ## The file -/

/-- A file is selected for the model of its own. -/
theorem selectFirmware_names {product model file : List Char} (filled : firmware product ≠ [])
    (selected : selectFirmware (firmware product) model = some file) : (model, file) ∈ modelFiles := by
  have listed : ∃ vendor, (vendor, firmware product) ∈ firmwareByProduct := by
    rw [firmware] at filled ⊢
    cases found : firmwareByProduct.lookup (withoutLast product) with
    | none => exact absurd (by rw [found]; rfl) filled
    | some file =>
        exact ⟨_, Keyed.mem_of_lookup found⟩
  obtain ⟨vendor, member⟩ := listed
  have table : ∀ entry ∈ firmwareByProduct, (firmwareModel entry.2, entry.2) ∈ modelFiles := by decide
  have own := table _ member
  rw [selectFirmware] at selected
  split at selected
  next other =>
    have split : "P1006".toList ++ ':' :: "P1009".toList = firmwareModel (firmware product) ++ ':' :: model := other.symm
    have named := ((List.append_cons_inj_of_notMem (by decide) (by decide)).mp split).2.2
    rw [← Option.some.inj selected, ← named]
    decide
  next =>
    split at selected
    next same =>
      have named := List.cons.inj (List.append_cancel_left same)
      rw [← Option.some.inj selected, named.2]
      exact own
    next => cases selected

theorem needsFirmware_of_selected {product id file : List Char} (filled : firmware product ≠ []) (absent : hasFwver (deviceId id) = false)
    (selected : selectFirmware (firmware product) (normalizedModel (printedModel (deviceId id))) = some file) :
    NeedsFirmware id file := by
  have named := selectFirmware_names filled selected
  rw [printedModel_deviceId] at named
  refine ⟨fun field member key => ?_, ?_⟩
  · have present := (hasFwver_deviceId id).mpr ⟨field, member, key⟩
    rw [absent] at present
    cases present
  · cases found : modelField (idText id) with
    | none =>
        rw [found] at named
        have models : ∀ entry ∈ modelFiles, entry.1 ≠ normalizedModel [] := by decide
        exact absurd rfl (models _ named)
    | some value => exact ⟨value, rfl, by rwa [found] at named⟩

end XWrt.P910nd
