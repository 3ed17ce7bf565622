import XWrt.Foundation.Csv
import XWrt.Foundation.Numerals
import XWrt.Urllogger.Reader

/-!
# The line of an event

`print_event` of `urllogger-reader.c`: eleven formatted fields and the payload
as a quoted CSV field, then a line feed. Whatever bytes the payload has, the
text is one CSV record of twelve fields that gives the payload back.
-/

namespace XWrt.Urllogger

open XWrt.Foundation

/-! ## Texts -/

/-- The bytes of an ASCII text. -/
def ascii (text : List Char) : List UInt8 := text.map fun char => UInt8.ofNat char.toNat

/-- `%u` -/
def decimal (n : Nat) : List Char := Nat.toDigits 10 n

/-- `%02x` -/
def hex2 (byte : UInt8) : List Char := (Nat.toDigits 16 byte.toNat).leftpad 2 '0'

/-- `%02X` -/
def upperHex2 (byte : UInt8) : List Char := ((Nat.toDigits 16 byte.toNat).map Char.toUpper).leftpad 2 '0'

def methodName (method : UInt8) : String :=
  if method = 1 then "GET"
  else if method = 2 then "POST"
  else if method = 3 then "HEAD"
  else "NONE"

def sourceName (source : UInt8) : String :=
  if source = 1 then "HTTP"
  else if source = 2 then "HTTPS"
  else if source = 3 then "QUIC"
  else "UNKNOWN"

def afInet : Nat := 2
def afInet6 : Nat := 10

def formatIpv6Full (ip : List UInt8) : List Char :=
  [':'].intercalate ((List.range 8).map fun i => hex2 (ip.getD (2 * i) 0) ++ hex2 (ip.getD (2 * i + 1) 0))

/-- `inet_ntop` for an IPv4 address; the buffer is always long enough. -/
def inetNtop (ip : List UInt8) : List Char :=
  ['.'].intercalate ((List.range 4).map fun i => decimal (ip.getD i 0).toNat)

def formatAddr (family : Nat) (ip : List UInt8) : List Char :=
  if family = afInet then inetNtop ip
  else if family = afInet6 then formatIpv6Full ip
  else "family-".toList ++ decimal family

/-- The parts of a `struct tm` that are printed; the year is the full one. -/
structure Tm where
  year : Int
  month : Nat
  day : Nat
  hour : Nat
  minute : Nat
  second : Nat

/-- What `time`, `sysinfo` and `localtime_r` answer. -/
structure Clock where
  now : Int
  uptime : Option Nat
  localtime : Int → Option Tm

/-- A number of at least two digits. -/
def twoDigits (n : Nat) : List Char := (decimal n).leftpad 2 '0'

def yearText : Int → List Char
  | .ofNat year => decimal year
  | .negSucc before => '-' :: decimal (before + 1)

/-- `strftime` with `%Y-%m-%d %H:%M:%S` -/
def strftime (tm : Tm) : List Char :=
  yearText tm.year ++ '-' :: twoDigits tm.month ++ '-' :: twoDigits tm.day ++ ' ' :: twoDigits tm.hour ++
    ':' :: twoDigits tm.minute ++ ':' :: twoDigits tm.second

def formatEventTime (clock : Clock) (timestamp : Nat) : List Char :=
  let uptime : Nat := clock.uptime.getD 0 % 2 ^ 32
  match clock.localtime (clock.now - uptime + timestamp) with
  | none => decimal timestamp
  | some tm => strftime tm

/-! ## The line -/

/-- `csv_write_field` -/
def csvWriteField (data : List UInt8) : List UInt8 :=
  let quoted := data.any fun byte => byte = 34 || byte = 44 || byte = 13 || byte = 10
  let body := data.flatMap fun byte => if byte = 34 then [34, byte] else [byte]
  if quoted then 34 :: (body ++ [34]) else body

/-- The fields of the format string of `print_event`. -/
def headFields (clock : Clock) (h : EventHdr) : List (List Char) :=
  [formatEventTime clock h.timestamp, [':'].intercalate ((List.range 6).map fun i => upperHex2 (h.mac.getD i 0)),
    formatAddr h.family h.sip, decimal h.sport, formatAddr h.family h.dip, decimal h.dport, decimal h.hits,
    (methodName h.method).toList, (sourceName h.source).toList, decimal h.aclIdx.toNat, decimal h.aclAction.toNat]

/-- `print_event` -/
def printEvent (clock : Clock) (event : Event) : List UInt8 :=
  (headFields clock event.hdr).flatMap (fun field => ascii field ++ [44]) ++ csvWriteField event.payload ++ [10]

/-! ## Plain texts -/

/-- A character that needs no quotes in a CSV field. -/
def PlainChar (char : Char) : Prop := Csv.TextData (UInt8.ofNat char.toNat)

instance : DecidablePred PlainChar := fun _ => inferInstanceAs (Decidable (Csv.TextData _))

def Plain (text : List Char) : Prop := ∀ char ∈ text, PlainChar char

instance : DecidablePred Plain := fun text => List.decidableBAll PlainChar text

theorem plain_append {first second : List Char} (plain : Plain first) (plain' : Plain second) : Plain (first ++ second) :=
  List.forall_mem_append.mpr ⟨plain, plain'⟩

theorem plain_cons {char : Char} {text : List Char} (first : PlainChar char) (plain : Plain text) : Plain (char :: text) :=
  List.forall_mem_cons.mpr ⟨first, plain⟩

theorem plain_leftpad {text : List Char} (plain : Plain text) (width : Nat) : Plain (text.leftpad width '0') := by
  intro char inside
  rcases List.mem_append.mp inside with zero | rest
  · rw [(List.mem_replicate.mp zero).2]
    decide
  · exact plain char rest

theorem plain_intercalate {mark : Char} (first : PlainChar mark) {texts : List (List Char)} (plain : ∀ text ∈ texts, Plain text) :
    Plain ([mark].intercalate texts) := by
  induction texts with
  | nil => exact List.forall_mem_nil _
  | cons text rest ih =>
      obtain ⟨here, others⟩ := List.forall_mem_cons.mp plain
      cases rest with
      | nil => simpa using here
      | cons next rest =>
          rw [List.intercalate_cons_cons]
          exact plain_append (plain_append here (plain_cons first (List.forall_mem_nil _))) (ih others)

theorem plainChar_digit : ∀ digit : Fin 16, PlainChar digit.val.digitChar ∧ PlainChar digit.val.digitChar.toUpper := by
  decide

theorem plain_toDigits {base : Nat} (large : 1 < base) (small : base ≤ 16) (n : Nat) :
    Plain (Nat.toDigits base n) ∧ Plain ((Nat.toDigits base n).map Char.toUpper) := by
  constructor
  · intro char inside
    obtain ⟨digit, below, rfl⟩ := Numerals.exists_of_mem_toDigits large inside
    exact (plainChar_digit ⟨digit, below.trans_le small⟩).1
  · intro char inside
    obtain ⟨lower, member, rfl⟩ := List.mem_map.mp inside
    obtain ⟨digit, below, rfl⟩ := Numerals.exists_of_mem_toDigits large member
    exact (plainChar_digit ⟨digit, below.trans_le small⟩).2

theorem plain_decimal (n : Nat) : Plain (decimal n) := (plain_toDigits (by decide) (by decide) n).1

theorem plain_hex2 (byte : UInt8) : Plain (hex2 byte) :=
  plain_leftpad (plain_toDigits (by decide) (by decide) byte.toNat).1 2

theorem plain_upperHex2 (byte : UInt8) : Plain (upperHex2 byte) :=
  plain_leftpad (plain_toDigits (by decide) (by decide) byte.toNat).2 2

theorem plain_formatAddr (family : Nat) (ip : List UInt8) : Plain (formatAddr family ip) := by
  unfold formatAddr
  split
  · apply plain_intercalate (by decide)
    intro text inside
    obtain ⟨i, -, rfl⟩ := List.mem_map.mp inside
    exact plain_decimal _
  · split
    · apply plain_intercalate (by decide)
      intro text inside
      obtain ⟨i, -, rfl⟩ := List.mem_map.mp inside
      exact plain_append (plain_hex2 _) (plain_hex2 _)
    · exact plain_append (by decide) (plain_decimal family)

theorem plain_twoDigits (n : Nat) : Plain (twoDigits n) := plain_leftpad (plain_decimal n) 2

theorem plain_strftime (tm : Tm) : Plain (strftime tm) := by
  have year : Plain (yearText tm.year) := by
    cases tm.year with
    | ofNat year => exact plain_decimal year
    | negSucc before => exact plain_cons (by decide) (plain_decimal _)
  have part : ∀ {mark : Char} (n : Nat), PlainChar mark → Plain (mark :: twoDigits n) :=
    fun n first => plain_cons first (plain_twoDigits n)
  refine plain_append (plain_append (plain_append (plain_append (plain_append year ?_) ?_) ?_) ?_) ?_
  all_goals exact part _ (by decide)

theorem plain_formatEventTime (clock : Clock) (timestamp : Nat) : Plain (formatEventTime clock timestamp) := by
  unfold formatEventTime
  dsimp only
  split
  · exact plain_decimal timestamp
  · exact plain_strftime _

theorem plain_methodName (method : UInt8) : Plain (methodName method).toList := by
  unfold methodName
  split_ifs <;> decide

theorem plain_sourceName (source : UInt8) : Plain (sourceName source).toList := by
  unfold sourceName
  split_ifs <;> decide

theorem plain_headFields (clock : Clock) (h : EventHdr) : ∀ field ∈ headFields clock h, Plain field := by
  have mac : Plain ([':'].intercalate ((List.range 6).map fun i => upperHex2 (h.mac.getD i 0))) := by
    apply plain_intercalate (by decide)
    intro text inside
    obtain ⟨i, -, rfl⟩ := List.mem_map.mp inside
    exact plain_upperHex2 _
  simp only [headFields, List.forall_mem_cons]
  refine ⟨plain_formatEventTime clock _, mac, plain_formatAddr _ _, plain_decimal _, plain_formatAddr _ _, plain_decimal _,
    plain_decimal _, plain_methodName _, plain_sourceName _, plain_decimal _, plain_decimal _, List.forall_mem_nil _⟩

theorem textData_ascii {text : List Char} (plain : Plain text) : ∀ byte ∈ ascii text, Csv.TextData byte := by
  intro byte inside
  obtain ⟨char, member, rfl⟩ := List.mem_map.mp inside
  exact plain char member

/-! ## The record -/

section Alphabet

variable {text : UInt8 → Prop}

theorem escaped_doubled {data : List UInt8} (legal : ∀ byte ∈ data, text byte ∨ Csv.Special byte) :
    Csv.Escaped text (data.flatMap fun byte => if byte = 34 then [34, byte] else [byte]) data := by
  induction data with
  | nil => exact .nil
  | cons byte data ih =>
      obtain ⟨here, others⟩ := List.forall_mem_cons.mp legal
      rw [List.flatMap_cons]
      split
      next quote =>
        subst quote
        exact .doubled (ih others)
      next bare => exact .plain here bare (ih others)

/-- What `csv_write_field` writes is a field that stands for the data. -/
theorem field_csvWriteField {data : List UInt8} (legal : ∀ byte ∈ data, text byte ∨ Csv.Special byte) :
    Csv.Field text (csvWriteField data) data := by
  have special : ∀ byte : UInt8, (byte = 34 || byte = 44 || byte = 13 || byte = 10) = true ↔ Csv.Special byte := by
    intro byte
    simp [Csv.Special, Csv.quote, Csv.comma, Csv.carriageReturn, Csv.lineFeed, or_assoc]
  unfold csvWriteField
  dsimp only
  split
  next quoted => exact .escaped (escaped_doubled legal)
  next bare =>
    have none : ∀ byte ∈ data, ¬ Csv.Special byte :=
      fun byte inside marked => bare (List.any_eq_true.mpr ⟨byte, inside, (special byte).mpr marked⟩)
    have same : (data.flatMap fun byte => if byte = 34 then [34, byte] else [byte]) = data := by
      conv_rhs => rw [← List.flatMap_singleton' data]
      exact List.flatMap_congr fun byte inside => if_neg fun quote => none byte inside (.inl quote)
    rw [same]
    exact .bare fun byte inside => (legal byte inside).resolve_right (none byte inside)

theorem record_headFields {heads : List (List Char)} (plain : ∀ field ∈ heads, ∀ byte ∈ ascii field, text byte)
    {raw value : List UInt8} (last : Csv.Field text raw value) :
    Csv.Record text (heads.flatMap (fun field => ascii field ++ [44]) ++ raw) (heads.map ascii ++ [value]) := by
  induction heads with
  | nil => exact .last last
  | cons field heads ih =>
      obtain ⟨here, others⟩ := List.forall_mem_cons.mp plain
      rw [List.flatMap_cons, List.append_assoc, List.append_assoc]
      exact .more (.bare here) (ih others)

end Alphabet

/-- The values a line stands for. -/
def eventFields (clock : Clock) (event : Event) : List (List UInt8) :=
  (headFields clock event.hdr).map ascii ++ [event.payload]

/-- The line without its end. -/
def eventLine (clock : Clock) (event : Event) : List UInt8 :=
  (headFields clock event.hdr).flatMap (fun field => ascii field ++ [44]) ++ csvWriteField event.payload

theorem eventLine_record (clock : Clock) (event : Event) {text : UInt8 → Prop} (printable : ∀ byte, Csv.TextData byte → text byte)
    (legal : ∀ byte ∈ event.payload, text byte ∨ Csv.Special byte) :
    Csv.Record text (eventLine clock event) (eventFields clock event) :=
  record_headFields
    (fun field inside byte member => printable byte (textData_ascii (plain_headFields clock event.hdr field inside) byte member))
    (field_csvWriteField legal)

theorem eventOf_payload {order : ByteOrder} {record : List UInt8} (wf : WellFormed order record) :
    (eventOf order record).payload = record.drop (eventOf order record).hdr.headerLen := by
  have length := wf.length
  apply List.take_of_length_le
  rw [List.length_drop, length]

/-- The text of an accepted record is one CSV record of twelve fields, and the last one gives the payload back. The
payload may have bytes that `TEXTDATA` leaves out; without them the record is one in the RFC's own alphabet. -/
theorem printEvent_record (clock : Clock) {order : ByteOrder} {record : List UInt8} (wf : WellFormed order record) :
    let event := eventOf order record
    ∃ line fields, printEvent clock event = line ++ [Csv.lineFeed] ∧ Csv.Record Csv.Octet line fields ∧
      fields.length = 12 ∧ fields = (headFields clock event.hdr).map ascii ++ [record.drop event.hdr.headerLen] ∧
      (∀ others, Csv.Record Csv.Octet line others → others = fields) ∧
      (∀ rest, Csv.readRecord (printEvent clock event ++ rest) = some (fields, Csv.lineFeed :: rest)) ∧
      ((∀ byte ∈ record.drop event.hdr.headerLen, Csv.TextData byte ∨ Csv.Special byte) →
        Csv.Record Csv.TextData line fields) := by
  intro event
  have payload : event.payload = record.drop event.hdr.headerLen := eventOf_payload wf
  have octets : ∀ byte, Csv.Octet byte → ¬ Csv.Special byte := fun _ octet => octet
  have parsed : Csv.Record Csv.Octet (eventLine clock event) (eventFields clock event) :=
    eventLine_record clock event (fun _ printable => printable.2.2) fun byte _ => (em (Csv.Special byte)).symm
  refine ⟨eventLine clock event, eventFields clock event, rfl, parsed, rfl, ?_, fun others => parsed.unique octets, ?_, ?_⟩
  · rw [← payload]
    rfl
  · intro rest
    have ends : Csv.LineEnds (Csv.lineFeed :: rest) := fun byte first => .inr (Option.some.inj first).symm
    have read := Csv.readRecord_of_record octets parsed ends
    rwa [← List.singleton_append, ← List.append_assoc] at read
  · intro legal
    exact eventLine_record clock event (fun _ printable => printable) (payload ▸ legal)

/-- A record whose payload has each of the bytes that need quotes. -/
def specialRecord : List UInt8 := [2, 0, 62, 0, 67, 0, 2, 0] ++ List.replicate 54 0 ++ [97, 34, 44, 13, 10]

theorem printEvent_record_special :
    let event := eventOf .little specialRecord
    let clock : Clock := ⟨0, none, fun _ => none⟩
    ∃ line fields, printEvent clock event = line ++ [Csv.lineFeed] ∧ Csv.Record Csv.Octet line fields ∧
      fields.length = 12 ∧ fields = (headFields clock event.hdr).map ascii ++ [[97, 34, 44, 13, 10]] := by
  have wf : WellFormed .little specialRecord := ⟨by decide, by decide, by decide, by decide, by decide⟩
  have ⟨line, fields, text, record, count, values, _⟩ := printEvent_record ⟨0, none, fun _ => none⟩ wf
  exact ⟨line, fields, text, record, count, values⟩

end XWrt.Urllogger
