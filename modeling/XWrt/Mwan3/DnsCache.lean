import Mathlib.Algebra.Order.Ring.Int
import Mathlib.Data.List.Infix
import XWrt.Foundation.Padding
import XWrt.Foundation.Registry
import XWrt.Foundation.Text
import XWrt.Foundation.Transducer

/-!
# The addresses of a ping target

`resolve_ping_target` of `mwan3track` and what it calls. Targets that are no
addresses are looked up with `nslookup`, and the answers are kept for some time
in one variable of the shell: a line for each target, with the uptime of the
query and the addresses behind bars.
-/

namespace XWrt.Mwan3.DnsCache

open XWrt.Foundation
open XWrt.Foundation.Text (words words_intercalate)
open XWrt.Foundation.Registry (Tracks)

/-! ## Records -/

/-- `${text%%|*}` -/
def beforeBar (text : List Char) : List Char := text.takeWhile (· != '|')

/-- `${text#*|}` -/
def afterBar (text : List Char) : List Char :=
  if '|' ∈ text then (text.dropWhile (· != '|')).tail else text

def cachedAt (record : List Char) : ℕ := Nat.ofDigitChars 10 (beforeBar (afterBar record)) 0
def cachedIps (record : List Char) : List Char := afterBar (afterBar record)

/-- The fields of a parameter while `IFS` is a newline. -/
def lines (text : List Char) : List (List Char) := words (· != '\n') text

def DNS_CACHE_TTL : ℤ := 120

/-- The answer at `cachedAt` may be used. -/
def fresh (now cachedAt : ℕ) : Bool :=
  decide (0 ≤ (now : ℤ) - cachedAt) && decide ((now : ℤ) - cachedAt < DNS_CACHE_TTL)

/-- The addresses of the first record of the target, none where they are old. -/
def dnsCacheGet (records target : List Char) (now : ℕ) : List Char :=
  match (lines records).find? (fun record => beforeBar record = target) with
  | none => []
  | some record =>
      if cachedIps record ≠ [] ∧ fresh now (cachedAt record) then cachedIps record else []

def appendLine (text record : List Char) : List Char :=
  if text = [] then record else text ++ '\n' :: record

/-- The record of a target goes to the end; without addresses there is none. -/
def dnsCacheStore (records target : List Char) (at_ : ℕ) (ips : List Char) : List Char :=
  let kept := ((lines records).filter fun record => beforeBar record ≠ target).foldl appendLine []
  if ips ≠ [] then appendLine kept (target ++ '|' :: Nat.toDigits 10 at_ ++ '|' :: ips) else kept

/-! ## Answers of `nslookup` -/

inductive Family where
  | ipv4
  | ipv6
deriving DecidableEq, Repr

def isBlank (char : Char) : Bool := char == ' ' || char == '\t'

/-- What `read` sees: lines that end with a newline. -/
def completeLines (text : List Char) : List (List Char) := (text.splitOnP (· == '\n')).dropLast

/-- An address is added when it is not there. -/
def addDnsQueryIp (ips address : List Char) : List Char :=
  if (' ' :: address ++ [' ']) <:+: (' ' :: ips ++ [' ']) then ips
  else if ips = [] then address
  else ips ++ ' ' :: address

/-- Digits, with a colon behind them or without. -/
def isOrdinal (field : List Char) : Bool :=
  let number := if field.getLast? = some ':' then field.dropLast else field
  !number.isEmpty && number.all Char.isDigit

/-- Addresses of the other family are left out. -/
def addAddress (family : Family) (ips address : List Char) : List Char :=
  match family with
  | .ipv4 =>
      if address ≠ [] ∧ address.all (fun char => char.isDigit || char == '.') then addDnsQueryIp ips address
      else ips
  | .ipv6 => if ':' ∈ address then addDnsQueryIp ips address else ips

/-- `Address 1: 192.0.2.1 name` -/
def parseLine (family : Family) (ips line : List Char) : List Char :=
  let fields := words (fun char => !isBlank char) line
  if fields.getD 0 [] = "Address".toList ∧ isOrdinal (fields.getD 1 []) then
    addAddress family ips ((fields.getD 2 []).takeWhile (· != '#'))
  else ips

def parseDnsOutput (family : Family) (ips output : List Char) : List Char :=
  (completeLines output).foldl (parseLine family) ips

/-- `DNS_QUERY_IPS` after the outputs of all servers. -/
def queryIps (family : Family) (outputs : List (List Char)) : List Char :=
  outputs.foldl (parseDnsOutput family) []

/-! ## Lookups -/

/-- The target is used as it is. -/
def isAddress (family : Family) (target : List Char) : Bool :=
  match family with
  | .ipv4 => target.all fun char => char.isDigit || char == '.'
  | .ipv6 => target.contains ':'

/-- A lookup, with the uptime and what the servers would print, or
`reset_dns_caches`. -/
inductive Input where
  | resolve (target : List Char) (now : ℕ) (outputs : List (List Char))
  | reset
deriving DecidableEq, Repr

/-- The addresses that are probed, and whether servers were asked for them. -/
structure Lookup where
  ips : List Char
  asked : Bool
deriving DecidableEq, Repr

def resolvePingTarget (family : Family) (records target : List Char) (now : ℕ)
    (outputs : List (List Char)) : List Char × Lookup :=
  if isAddress family target then (records, ⟨target, false⟩)
  else if dnsCacheGet records target now ≠ [] then
    (records, ⟨dnsCacheGet records target now, false⟩)
  else
    (dnsCacheStore records target now (queryIps family outputs), ⟨queryIps family outputs, true⟩)

/-- The tracker's variable `DNS_CACHE_RECORDS`. -/
def tracker (family : Family) : Transducer (List Char) Input Lookup where
  step records
    | .resolve target now outputs =>
        let result := resolvePingTarget family records target now outputs
        (result.1, [result.2])
    | .reset => ([], [])

/-! ## What the cache is for -/

/-- The last query of each target, with its time and its addresses. -/
abbrev Memory := List Char → Option (ℕ × List Char)

/-- The addresses of the last query, while they are fresh. -/
def Memory.recall (memory : Memory) (target : List Char) (now : ℕ) : Option (List Char) :=
  match memory target with
  | some (at_, ips) => if ips ≠ [] ∧ fresh now at_ then some ips else none
  | none => none

/-- A target is asked for again when its last query is too old, is of the future
or gave no address. -/
def remembering (family : Family) : Transducer Memory Input Lookup where
  step memory
    | .resolve target now outputs =>
        if isAddress family target then (memory, [⟨target, false⟩])
        else
          match memory.recall target now with
          | some ips => (memory, [⟨ips, false⟩])
          | none =>
              (Function.update memory target (some (now, queryIps family outputs)),
                [⟨queryIps family outputs, true⟩])
    | .reset => (fun _ => none, [])

/-! ## A record is read back -/

/-- A target, the time of its query and the addresses. -/
abbrev Stored := List Char × (ℕ × List Char)

def render (entry : Stored) : List Char :=
  entry.1 ++ '|' :: Nat.toDigits 10 entry.2.1 ++ '|' :: entry.2.2

/-- No bar in the target, and no newline anywhere. -/
structure Clean (entry : Stored) : Prop where
  bar : '|' ∉ entry.1
  target : '\n' ∉ entry.1
  ips : '\n' ∉ entry.2.2
  some : entry.2.2 ≠ []

theorem beforeBar_append {front : List Char} (free : '|' ∉ front) (rest : List Char) :
    beforeBar (front ++ '|' :: rest) = front := by
  have inside : ∀ char ∈ front, (char != '|') = true := fun char member => by
    simpa using fun same : char = '|' => free (same ▸ member)
  rw [beforeBar, List.takeWhile_append_of_pos inside, List.takeWhile_cons_of_neg (by decide),
    List.append_nil]

theorem afterBar_append {front : List Char} (free : '|' ∉ front) (rest : List Char) :
    afterBar (front ++ '|' :: rest) = rest := by
  have inside : ∀ char ∈ front, (char != '|') = true := fun char member => by
    simpa using fun same : char = '|' => free (same ▸ member)
  rw [afterBar, if_pos (by simp), List.dropWhile_append_of_pos inside,
    List.dropWhile_cons_of_neg (by decide), List.tail_cons]

theorem notMem_toDigits {char : Char} (other : char.isDigit = false) (n : ℕ) :
    char ∉ Nat.toDigits 10 n := fun member => by
  have digit := Nat.isDigit_of_mem_toDigits (by decide) (by decide) member
  rw [other] at digit
  cases digit

section Render

variable {entry : Stored}

theorem render_eq (entry : Stored) :
    render entry = entry.1 ++ '|' :: (Nat.toDigits 10 entry.2.1 ++ '|' :: entry.2.2) := by
  simp [render]

theorem afterBar_render (clean : Clean entry) :
    afterBar (render entry) = Nat.toDigits 10 entry.2.1 ++ '|' :: entry.2.2 := by
  rw [render_eq, afterBar_append clean.bar]

theorem beforeBar_render (clean : Clean entry) : beforeBar (render entry) = entry.1 := by
  rw [render_eq, beforeBar_append clean.bar]

theorem cachedAt_render (clean : Clean entry) : cachedAt (render entry) = entry.2.1 := by
  rw [cachedAt, afterBar_render clean, beforeBar_append (notMem_toDigits rfl _)]
  exact Nat.ofDigitChars_ten_toDigits

theorem cachedIps_render (clean : Clean entry) : cachedIps (render entry) = entry.2.2 := by
  rw [cachedIps, afterBar_render clean, afterBar_append (notMem_toDigits rfl _)]

theorem render_line (clean : Clean entry) : '\n' ∉ render entry := by
  simp [render, clean.target, clean.ips, notMem_toDigits]

theorem render_ne_nil (entry : Stored) : render entry ≠ [] := by simp [render]

end Render

/-! ## The text of the records -/

theorem foldl_appendLine (text : List Char) (some : text ≠ []) (records : List (List Char)) :
    records.foldl appendLine text = ['\n'].intercalate (text :: records) := by
  induction records generalizing text with
  | nil => simp
  | cons record rest ih =>
    have next : appendLine text record = text ++ '\n' :: record := if_neg some
    rw [List.foldl_cons, next, ih _ (by simp), List.intercalate_cons_cons]
    cases rest with
    | nil => simp
    | cons second others => simp [List.intercalate_cons_cons]

/-- The records stand on lines of their own. -/
def written (entries : List Stored) : List Char := (entries.map render).foldl appendLine []

theorem written_eq (entries : List Stored) : written entries = ['\n'].intercalate (entries.map render) := by
  cases entries with
  | nil => rfl
  | cons entry rest =>
    have first : appendLine [] (render entry) = render entry := rfl
    rw [written, List.map_cons, List.foldl_cons, first, foldl_appendLine _ (render_ne_nil entry)]

theorem lines_written {entries : List Stored} (clean : ∀ entry ∈ entries, Clean entry) :
    lines (written entries) = entries.map render := by
  rw [lines, written_eq]
  refine words_intercalate rfl (fun piece member char inside => ?_) (fun piece member => ?_)
  · obtain ⟨entry, here, rfl⟩ := List.mem_map.mp member
    simpa using fun same : char = '\n' => render_line (clean entry here) (same ▸ inside)
  · obtain ⟨entry, -, rfl⟩ := List.mem_map.mp member
    exact render_ne_nil entry

theorem appendLine_written (entries : List Stored) (entry : Stored) :
    appendLine (written entries) (render entry) = written (entries ++ [entry]) := by
  rw [written, written, List.map_append, List.foldl_append]
  rfl

section Written

variable {entries : List Stored} {registry : List Char → Option (ℕ × List Char)}

/-- The record of a target is found. -/
theorem dnsCacheGet_written (clean : ∀ entry ∈ entries, Clean entry) (tracks : Tracks entries registry)
    (target : List Char) (now : ℕ) :
    dnsCacheGet (written entries) target now =
      match registry target with
      | none => []
      | some (at_, ips) => if fresh now at_ then ips else [] := by
  have found : (lines (written entries)).find? (fun record => beforeBar record = target) =
      (registry target).map fun value => render (target, value) := by
    have keys : entries.find? ((fun record => decide (beforeBar record = target)) ∘ render) =
        entries.find? fun entry => decide (entry.1 = target) := by
      rw [← List.head?_filter, ← List.head?_filter]
      congr 1
      exact List.filter_congr fun entry member => by simp [beforeBar_render (clean entry member)]
    rw [lines_written clean, List.find?_map, keys, ← List.head?_filter, tracks.filter_key]
    cases registry target <;> rfl
  rw [dnsCacheGet, found]
  cases holds : registry target with
  | none => rfl
  | some value =>
    have tidy : Clean (target, value) := clean _ ((tracks.exact target value).mp holds)
    simp only [Option.map_some, cachedIps_render tidy, cachedAt_render tidy]
    have nonempty : value.2 ≠ [] := tidy.some
    simp [nonempty]

/-- Storing replaces the record of the target. -/
theorem dnsCacheStore_written (clean : ∀ entry ∈ entries, Clean entry) (target : List Char) (at_ : ℕ)
    (ips : List Char) :
    dnsCacheStore (written entries) target at_ ips =
      written (entries.filter (fun entry => entry.1 ≠ target) ++
        if ips ≠ [] then [(target, at_, ips)] else []) := by
  have kept : (lines (written entries)).filter (fun record => beforeBar record ≠ target) =
      (entries.filter fun entry => entry.1 ≠ target).map render := by
    rw [lines_written clean, List.filter_map]
    congr 1
    exact List.filter_congr fun entry member => by simp [beforeBar_render (clean entry member)]
  rw [dnsCacheStore, kept]
  split_ifs with some
  · exact appendLine_written _ (target, at_, ips)
  · rw [List.append_nil]
    rfl

end Written

/-! ## Addresses -/

theorem newline_addAddress (family : Family) {ips address : List Char} (clean : '\n' ∉ ips)
    (inside : '\n' ∉ address) : '\n' ∉ addAddress family ips address := by
  have added : '\n' ∉ addDnsQueryIp ips address := by
    unfold addDnsQueryIp
    split_ifs
    · exact clean
    · exact inside
    · simp [clean, inside]
  cases family with
  | ipv4 =>
    simp only [addAddress]
    split_ifs
    · exact added
    · exact clean
  | ipv6 =>
    simp only [addAddress]
    split_ifs
    · exact added
    · exact clean

theorem newline_parseLine (family : Family) {ips line : List Char} (clean : '\n' ∉ ips)
    (single : '\n' ∉ line) : '\n' ∉ parseLine family ips line := by
  have field (i : ℕ) : '\n' ∉ (words (fun char => !isBlank char) line).getD i [] := fun member => by
    rw [List.getD_eq_getElem?_getD] at member
    cases found : (words (fun char => !isBlank char) line)[i]? with
    | none => simp [found] at member
    | some word =>
      rw [found, Option.getD_some] at member
      exact single (Text.mem_of_mem_words (List.mem_of_getElem? found) member)
  simp only [parseLine]
  split_ifs
  · exact newline_addAddress family clean fun member => field 2 ((List.takeWhile_prefix _).subset member)
  · exact clean

theorem newline_queryIps (family : Family) (outputs : List (List Char)) : '\n' ∉ queryIps family outputs := by
  have inLines {ips : List Char} (clean : '\n' ∉ ips) (output : List Char) :
      '\n' ∉ parseDnsOutput family ips output := by
    have single : ∀ line ∈ completeLines output, '\n' ∉ line := fun line member inside => by
      have outside := Text.separates_of_mem_splitOnP (List.dropLast_subset _ member) inside
      simp at outside
    rw [parseDnsOutput]
    generalize completeLines output = all at single
    induction all generalizing ips with
    | nil => exact clean
    | cons line rest ih =>
      obtain ⟨first, others⟩ := List.forall_mem_cons.mp single
      exact ih (newline_parseLine family clean first) others
  rw [queryIps]
  have start : '\n' ∉ ([] : List Char) := List.not_mem_nil
  generalize ([] : List Char) = ips at start
  induction outputs generalizing ips with
  | nil => exact start
  | cons output rest ih => exact ih _ (inLines start output)

/-! ## The text is the memory -/

/-- The queries that gave addresses. -/
def Memory.usable (memory : Memory) (target : List Char) : Option (ℕ × List Char) :=
  (memory target).filter fun query => query.2 ≠ []

/-- The text has a record for each target whose last query gave addresses. -/
def Represents (records : List Char) (memory : Memory) : Prop :=
  ∃ entries, records = written entries ∧ (∀ entry ∈ entries, Clean entry) ∧ Tracks entries memory.usable

theorem represents_nil : Represents [] fun _ => none := ⟨[], rfl, by simp, Tracks.nil⟩

theorem dnsCacheGet_of_represents {records : List Char} {memory : Memory} (represents : Represents records memory)
    (target : List Char) (now : ℕ) : dnsCacheGet records target now = (memory.recall target now).getD [] := by
  obtain ⟨entries, rfl, clean, tracks⟩ := represents
  rw [dnsCacheGet_written clean tracks, Memory.usable, Memory.recall]
  cases memory target with
  | none => rfl
  | some query =>
    obtain ⟨at_, ips⟩ := query
    by_cases empty : ips = []
    · subst empty
      rfl
    · have kept : Option.filter (fun query : ℕ × List Char => decide (query.2 ≠ [])) (some (at_, ips)) =
          some (at_, ips) := Option.filter_some_pos (by simpa using empty)
      rw [kept]
      by_cases recent : fresh now at_ = true <;> simp [empty, recent]

theorem recall_ne_nil {memory : Memory} {target : List Char} {now : ℕ} {ips : List Char}
    (recalled : memory.recall target now = some ips) : ips ≠ [] := by
  unfold Memory.recall at recalled
  split at recalled
  · split_ifs at recalled with usable
    exact Option.some.inj recalled ▸ usable.1
  · cases recalled

theorem represents_store {records : List Char} {memory : Memory} (represents : Represents records memory)
    {target ips : List Char} (bar : '|' ∉ target) (newline : '\n' ∉ target) (clean : '\n' ∉ ips) (now : ℕ) :
    Represents (dnsCacheStore records target now ips) (Function.update memory target (some (now, ips))) := by
  obtain ⟨entries, rfl, tidy, tracks⟩ := represents
  have others : ∀ entry ∈ entries.filter (fun entry => entry.1 ≠ target), Clean entry := fun entry member =>
    tidy entry (List.mem_of_mem_filter member)
  have removed := tracks.remove target
  rw [dnsCacheStore_written tidy]
  by_cases some : ips = []
  · refine ⟨entries.filter (fun entry => entry.1 ≠ target), by simp [some], others, ?_⟩
    have same : Memory.usable (Function.update memory target (Option.some (now, ips))) =
        Registry.strike memory.usable target := by
      funext other
      by_cases equal : other = target
      · subst equal
        simp [Memory.usable, Registry.strike, some]
      · simp [Memory.usable, Registry.strike, equal]
    rw [same]
    exact removed
  · refine ⟨entries.filter (fun entry => entry.1 ≠ target) ++ [(target, now, ips)], by simp [some], ?_, ?_⟩
    · intro entry member
      rcases List.mem_append.mp member with old | new
      · exact others entry old
      · rw [List.mem_singleton.mp new]
        exact ⟨bar, newline, clean, some⟩
    · have absent : target ∉ (entries.filter fun entry => entry.1 ≠ target).map Prod.fst := fun member => by
        obtain ⟨entry, here, same⟩ := List.mem_map.mp member
        exact of_decide_eq_true (List.mem_filter.mp here).2 same
      have entered : Tracks ((target, now, ips) :: entries.filter fun entry => entry.1 ≠ target)
          (Registry.enter (Registry.strike memory.usable target) target (now, ips)) := removed.enter absent
      have same : Memory.usable (Function.update memory target (Option.some (now, ips))) =
          Registry.enter (Registry.strike memory.usable target) target (now, ips) := by
        funext other
        by_cases equal : other = target
        · subst equal
          simp [Memory.usable, Registry.enter, some]
        · simp [Memory.usable, Registry.enter, Registry.strike, equal]
      rw [same]
      exact entered.perm (List.perm_append_singleton _ _).symm

/-- A target of the configuration has neither bar nor newline. -/
def Input.Plain : Input → Prop
  | .resolve target _ _ => '|' ∉ target ∧ '\n' ∉ target
  | .reset => True

theorem represents_step (family : Family) (records : List Char) (memory : Memory) (input : Input)
    (represents : Represents records memory) (plain : input.Plain) :
    ((tracker family).step records input).2 = ((remembering family).step memory input).2 ∧
      Represents ((tracker family).step records input).1 ((remembering family).step memory input).1 := by
  cases input with
  | reset => exact ⟨rfl, represents_nil⟩
  | resolve target now outputs =>
    simp only [tracker, remembering, resolvePingTarget]
    by_cases address : isAddress family target = true
    · simp only [if_pos address]
      exact ⟨trivial, represents⟩
    · rw [if_neg address, if_neg address, dnsCacheGet_of_represents represents]
      cases recalled : memory.recall target now with
      | none =>
        simp only [Option.getD_none, ne_eq, not_true_eq_false, if_false]
        exact ⟨trivial, represents_store represents plain.1 plain.2 (newline_queryIps family outputs) now⟩
      | some ips =>
        simp only [Option.getD_some, if_pos (recall_ne_nil recalled)]
        exact ⟨trivial, represents⟩

/-- Over every run of lookups, clock readings, answers and resets, the text
behaves as the memory of the last queries: a target is asked for exactly when its
last query since the reset is not of the last two minutes or gave no address. -/
theorem tracker_remembers (family : Family) {inputs : List Input} (plain : ∀ input ∈ inputs, input.Plain) :
    (tracker family).emitted [] inputs = (remembering family).emitted (fun _ => none) inputs :=
  Transducer.emitted_eq_of_related (tracker family) (fun records memory input => represents_step family records memory input)
    represents_nil plain

/-- A name is asked for, found in the text a minute later, and asked for again
after two. -/
def thrice : List Input :=
  let answer := "Address 1: 192.0.2.1 dns\nAddress 2: 192.0.2.7\n".toList
  [.resolve "a.b".toList 100 [answer], .resolve "a.b".toList 160 [], .resolve "a.b".toList 220 [answer], .reset]

theorem tracker_remembers_thrice :
    (tracker .ipv4).emitted [] thrice =
      [⟨"192.0.2.1 192.0.2.7".toList, true⟩, ⟨"192.0.2.1 192.0.2.7".toList, false⟩, ⟨"192.0.2.1 192.0.2.7".toList, true⟩] := by
  have plain : ∀ input ∈ thrice, input.Plain := by
    simp only [thrice, List.forall_mem_cons, Input.Plain]
    exact ⟨by decide, by decide, by decide, trivial, by simp⟩
  exact (tracker_remembers .ipv4 plain).trans (by decide +kernel)

end XWrt.Mwan3.DnsCache
