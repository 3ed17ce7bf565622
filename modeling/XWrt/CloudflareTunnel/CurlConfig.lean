import XWrt.Foundation.Escaping
import XWrt.Foundation.Padding
import XWrt.Foundation.Numerals
import XWrt.Foundation.Pieces

/-!
# The configuration for curl

`request` in `runtime.lua`. What it sends is put into a configuration file that
curl reads from its input, one directive on a line; values stand in double
quotes. curl reads back the directives that were meant, with their values.
-/

namespace XWrt.CloudflareTunnel.Curl

open Foundation
open Foundation.Text
open Foundation.Escaping

abbrev Text := List Char

/-! ## The program -/

/-- `curl_quote` -/
def curlQuote (value : Text) : Text :=
  ['"'] ++ substitute '\n' ['\\', 'n'] (substitute '\r' ['\\', 'r'] (substitute '"' ['\\', '"'] (substitute '\\' ['\\', '\\'] value))) ++ ['"']

/-- The argument `options` of `request`, with the body as JSON text. -/
structure RequestOptions where
  timeout : Option ℕ
  method : Option Text
  token : Option Text
  body : Option Text
  headers : List Text
  resolve : Option Text
  insecure : Bool
  includeHeaders : Bool

/-- `lines` -/
def requestLines (url : Text) (options : RequestOptions) : List Text :=
  ["silent".toList, "show-error".toList, "connect-timeout = 10".toList, "max-time = ".toList ++ Nat.toDigits 10 (options.timeout.getD 35),
      "max-filesize = 2097152".toList, "url = ".toList ++ curlQuote url, "write-out = \"\\n%\x7bhttp_code\x7d\"".toList] ++
    (match options.method with
      | some method => ["request = ".toList ++ curlQuote method]
      | none => []) ++
    (match options.token with
      | some token => ["header = ".toList ++ curlQuote ("Authorization: Bearer ".toList ++ token)]
      | none => []) ++
    (match options.body with
      | some body => ["header = \"Content-Type: application/json\"".toList, "data = ".toList ++ curlQuote body]
      | none => []) ++
    options.headers.map (fun header => "header = ".toList ++ curlQuote header) ++
    (match options.resolve with
      | some resolve => ["resolve = ".toList ++ curlQuote resolve]
      | none => []) ++
    (if options.insecure then ["insecure".toList] else []) ++
    if options.includeHeaders then ["include".toList] else []

/-- The configuration file. -/
def requestConfig (url : Text) (options : RequestOptions) : Text := ['\n'].intercalate (requestLines url options) ++ ['\n']

/-! ## What curl reads -/

/-- A letter behind a backslash in a value in quotes. -/
def letterMeaning (letter : Char) : Char :=
  if letter = 'n' then '\n' else if letter = 'r' then '\r' else if letter = 't' then '\t' else if letter = 'v' then '\x0b' else letter

/-- The value in quotes at the start of a text, and what follows. -/
def quotedValue : Text → Option (Text × Text)
  | '"' :: text => some (read '\\' '"' letterMeaning text)
  | _ => none

/-- Between the name of a directive and its value. -/
def isSeparator (char : Char) : Bool := isSpace char || char == '=' || char == ':'

/-- A line: a name, and a value in quotes or a word, if there is one. -/
def curlDirective (line : Text) : Option (Text × Option Text) :=
  let line := line.dropWhile isSpace
  let rest := (line.dropWhile fun char => !isSeparator char).dropWhile isSeparator
  match line with
  | [] => none
  | '#' :: _ => none
  | _ =>
      match quotedValue rest with
      | some (value, _) => some (line.takeWhile fun char => !isSeparator char, some value)
      | none =>
          let word := rest.takeWhile fun char => !isSpace char
          some (line.takeWhile fun char => !isSeparator char, if word = [] then none else some word)

/-- The directives of a file; a line ends at a NUL byte. -/
def curlDirectives (config : Text) : List (Text × Option Text) :=
  (config.splitOn '\n').filterMap fun line => curlDirective (line.takeWhile (· ≠ '\x00'))

/-! ## What is meant -/

/-- A directive that the program writes. -/
inductive Directive where
  | flag (name : String)
  | word (name : String) (value : Text)
  | quoted (name : String) (value : Text)

namespace Directive

def name : Directive → Text
  | flag name => name.toList
  | word name _ => name.toList
  | quoted name _ => name.toList

def value : Directive → Option Text
  | flag _ => none
  | word _ value => some value
  | quoted _ value => some value

def line : Directive → Text
  | flag name => name.toList
  | word name value => name.toList ++ " = ".toList ++ value
  | quoted name value => name.toList ++ " = ".toList ++ curlQuote value

/-- The name is read as one word. -/
def PlainName (name : String) : Prop := name.toList ≠ [] ∧ ∀ char ∈ name.toList, isSeparator char = false ∧ char ≠ '#' ∧ char ≠ '\x00'

instance (name : String) : Decidable (PlainName name) := inferInstanceAs (Decidable (_ ∧ _))

/-- The name and the value can be told apart, and from the line. -/
def Legible : Directive → Prop
  | flag name => PlainName name
  | word name value => PlainName name ∧ value ≠ [] ∧ ∀ char ∈ value, char.isDigit = true
  | quoted name value => PlainName name ∧ '\x00' ∉ value

end Directive

/-- The directives of a request. -/
def requested (url : Text) (options : RequestOptions) : List Directive :=
  [.flag "silent", .flag "show-error", .word "connect-timeout" "10".toList, .word "max-time" (Nat.toDigits 10 (options.timeout.getD 35)),
      .word "max-filesize" "2097152".toList, .quoted "url" url, .quoted "write-out" "\n%\x7bhttp_code\x7d".toList] ++
    options.method.toList.map (.quoted "request") ++
    options.token.toList.map (fun token => .quoted "header" ("Authorization: Bearer ".toList ++ token)) ++
    options.body.toList.flatMap (fun body => [.quoted "header" "Content-Type: application/json".toList, .quoted "data" body]) ++
    options.headers.map (.quoted "header") ++
    options.resolve.toList.map (.quoted "resolve") ++
    (if options.insecure then [.flag "insecure"] else []) ++
    if options.includeHeaders then [.flag "include"] else []

/-- The values that are put into the file. -/
def placed (url : Text) (options : RequestOptions) : List Text :=
  url :: options.method.toList ++ options.token.toList ++ options.body.toList ++ options.headers ++ options.resolve.toList

theorem requestLines_eq (url : Text) (options : RequestOptions) : requestLines url options = (requested url options).map Directive.line := by
  obtain ⟨timeout, method, token, body, headers, resolve, insecure, includeHeaders⟩ := options
  simp only [requestLines, requested, List.map_append, List.map_map]
  congr 1
  · congr 1
    · congr 1
      · congr 1
        congr 1
        · congr 1
          · congr 1
            cases method with
            | none => rfl
            | some method => rfl
          · cases token with
            | none => rfl
            | some token => rfl
        · cases body with
          | none => rfl
          | some body => rfl
      · cases resolve with
        | none => rfl
        | some resolve => rfl
    · cases insecure with
      | false => rfl
      | true => rfl
  · cases includeHeaders with
    | false => rfl
    | true => rfl

/-! ## Values in quotes -/

/-- What `curl_quote` puts behind a backslash. -/
def letters : Letters Char := [('\\', '\\'), ('"', '"'), ('\r', 'r'), ('\n', 'n')]

theorem curlQuote_eq (value : Text) : curlQuote value = '"' :: (write '\\' letters value ++ ['"']) := by
  have ordered : Ordered '\\' letters := by
    rw [Ordered, letters]
    decide
  rw [← substituteAll_eq_write ordered value]
  rfl

theorem letters_readable : Readable '\\' '"' letters letterMeaning := ⟨rfl, rfl, by decide, by decide⟩

/-- A value is read back, and no line ends in it. -/
theorem quotedValue_curlQuote (value rest : Text) : quotedValue (curlQuote value ++ rest) = some (value, rest) := by
  rw [curlQuote_eq, List.cons_append, List.append_assoc, List.singleton_append, quotedValue, read_write letters_readable]

theorem line_curlQuote (value : Text) : '\r' ∉ curlQuote value ∧ '\n' ∉ curlQuote value := by
  have inside : ∀ char ∈ ['\r', '\n'], char ∉ curlQuote value := by
    intro char special member
    have table : ∀ char ∈ ['\r', '\n'], (letters.lookup char).isSome = true ∧ char ≠ '\\' ∧ (∀ other ∈ letters, other.2 ≠ char) ∧
        char ≠ '"' := by decide
    obtain ⟨coded, notMark, noLetter, notQuote⟩ := table char special
    rw [curlQuote_eq] at member
    rcases List.mem_cons.mp member with same | member
    · exact notQuote same
    · rcases List.mem_append.mp member with written | same
      · exact notMem_write coded notMark noLetter value written
      · exact notQuote (List.mem_singleton.mp same)
  exact ⟨inside _ (.head _), inside _ (.tail _ (.head _))⟩

theorem nul_curlQuote {value : Text} (clean : '\x00' ∉ value) : '\x00' ∉ curlQuote value := by
  intro member
  rw [curlQuote_eq] at member
  rcases List.mem_cons.mp member with same | member
  · exact absurd same (by decide)
  · rcases List.mem_append.mp member with written | same
    · rcases mem_write written with same | inside | ⟨other, listed, same⟩
      · exact absurd same (by decide)
      · exact clean inside
      · exact absurd same ((show ∀ other ∈ letters, other.2 ≠ '\x00' by decide) other listed)
    · exact absurd (List.mem_singleton.mp same) (by decide)

/-! ## Lines -/

section Line

variable {name : String} (plain : Directive.PlainName name)
include plain

/-- The name of a line, and what follows it. -/
theorem curlDirective_append {rest : Text} (apart : rest.head?.all isSeparator = true) :
    curlDirective (name.toList ++ rest) =
      match quotedValue (rest.dropWhile isSeparator) with
      | some (value, _) => some (name.toList, some value)
      | none =>
          let word := (rest.dropWhile isSeparator).takeWhile fun char => !isSpace char
          some (name.toList, if word = [] then none else some word) := by
  obtain ⟨nonempty, chars⟩ := plain
  obtain ⟨first, others, cons⟩ := List.exists_cons_of_ne_nil nonempty
  have solid : ∀ char ∈ name.toList, (!isSeparator char) = true := fun char member => by rw [(chars char member).1, Bool.not_false]
  have start := chars first (cons ▸ .head _)
  have space : isSpace first = false := by
    have none := start.1
    rw [isSeparator, Bool.or_eq_false_iff, Bool.or_eq_false_iff] at none
    exact none.1.1
  have trimmed : (name.toList ++ rest).dropWhile isSpace = name.toList ++ rest := by
    rw [cons, List.cons_append, List.dropWhile_cons_of_neg (by simp [space])]
  have front : (name.toList ++ rest).takeWhile (fun char => !isSeparator char) = name.toList := by
    rw [List.takeWhile_append_of_pos solid]
    cases rest with
    | nil => simp
    | cons separator rest =>
        rw [List.head?_cons, Option.all_some] at apart
        rw [List.takeWhile_cons_of_neg (by simp [apart]), List.append_nil]
  have back : (name.toList ++ rest).dropWhile (fun char => !isSeparator char) = rest := by
    rw [List.dropWhile_append_of_pos solid]
    cases rest with
    | nil => rfl
    | cons separator rest =>
        rw [List.head?_cons, Option.all_some] at apart
        rw [List.dropWhile_cons_of_neg (by simp [apart])]
  rw [curlDirective]
  simp only [trimmed, front, back]
  rw [cons, List.cons_append]
  split
  next none => cases none
  next comment =>
    rw [List.cons.injEq] at comment
    exact absurd comment.1 start.2.1
  next => rfl

end Line

/-- A digit stands neither between the words of a line nor around a value. -/
theorem digit_plain {char : Char} (digit : char.isDigit = true) :
    isSeparator char = false ∧ isSpace char = false ∧ char ≠ '"' ∧ char ≠ '\n' ∧ char ≠ '\x00' := by
  have low : 48 ≤ char.toNat ∧ char.toNat ≤ 57 := by
    rw [Char.isDigit, Bool.and_eq_true, decide_eq_true_eq, decide_eq_true_eq] at digit
    exact ⟨UInt32.le_iff_toNat_le.mp digit.1, UInt32.le_iff_toNat_le.mp digit.2⟩
  have other : ∀ stop : Char, stop.toNat < 48 ∨ 57 < stop.toNat → char ≠ stop := by
    rintro stop outside rfl
    omega
  have space : isSpace char = false := by
    rw [isSpace, beq_eq_false_iff_ne.mpr (other ' ' (by decide)), Bool.false_or, Bool.and_eq_false_iff, decide_eq_false_iff_not,
      decide_eq_false_iff_not]
    omega
  refine ⟨?_, space, other _ (by decide), other _ (by decide), other _ (by decide)⟩
  rw [isSeparator, space, beq_eq_false_iff_ne.mpr (other '=' (by decide)), beq_eq_false_iff_ne.mpr (other ':' (by decide))]
  rfl

/-- A directive is read back from its line. -/
theorem curlDirective_line {directive : Directive} (legible : directive.Legible) :
    curlDirective directive.line = some (directive.name, directive.value) := by
  cases directive with
  | flag name =>
      have whole := @curlDirective_append name legible [] rfl
      rw [List.append_nil] at whole
      exact whole
  | word name value =>
      obtain ⟨plain, some, digits⟩ := legible
      have word : value.takeWhile (fun char => !isSpace char) = value :=
        List.takeWhile_eq_self_iff.mpr fun char inside => by rw [(digit_plain (digits char inside)).2.1, Bool.not_false]
      obtain ⟨first, others, cons⟩ := List.exists_cons_of_ne_nil some
      have start := digit_plain (digits first (cons ▸ .head _))
      have rest : (" = ".toList ++ value).dropWhile isSeparator = value := by
        have dropped : (" = ".toList ++ value).dropWhile isSeparator = value.dropWhile isSeparator := rfl
        rw [dropped, cons, List.dropWhile_cons_of_neg (by simp [start.1])]
      have bare : quotedValue value = none := by
        rw [cons, quotedValue]
        rintro text same
        exact start.2.2.1 (List.cons.inj same).1
      rw [Directive.line, List.append_assoc, curlDirective_append plain rfl, rest, bare]
      simp only [word, if_neg some]
      rfl
  | quoted name value =>
      have rest : (" = ".toList ++ curlQuote value).dropWhile isSeparator = curlQuote value := by
        rw [curlQuote_eq]
        rfl
      have read := quotedValue_curlQuote value []
      rw [List.append_nil] at read
      rw [Directive.line, List.append_assoc, curlDirective_append legible.1 rfl, rest, read]
      rfl

/-- A directive takes one line, which is read to its end. -/
theorem line_of_legible {directive : Directive} (legible : directive.Legible) {char : Char} (inside : char ∈ directive.line) :
    char ≠ '\n' ∧ char ≠ '\x00' := by
  have name : ∀ {name : String}, Directive.PlainName name → char ∈ name.toList → char ≠ '\n' ∧ char ≠ '\x00' := by
    intro name plain inside
    refine ⟨?_, (plain.2 char inside).2.2⟩
    rintro rfl
    exact absurd (plain.2 _ inside).1 (by decide)
  have between : char ∈ " = ".toList → char ≠ '\n' ∧ char ≠ '\x00' := fun inside =>
    (show ∀ char ∈ " = ".toList, char ≠ '\n' ∧ char ≠ '\x00' by decide) char inside
  cases directive with
  | flag flag => exact name legible inside
  | word word value =>
      rcases List.mem_append.mp inside with inside | inside
      · exact (List.mem_append.mp inside).elim (name legible.1) between
      · exact (digit_plain (legible.2.2 char inside)).2.2.2
  | quoted word value =>
      rcases List.mem_append.mp inside with inside | inside
      · exact (List.mem_append.mp inside).elim (name legible.1) between
      · refine ⟨?_, ?_⟩
        · rintro rfl
          exact (line_curlQuote value).2 inside
        · rintro rfl
          exact nul_curlQuote legible.2 inside

/-- The directives of a file are read back from it. -/
theorem curlDirectives_lines {directives : List Directive} (some : directives ≠ []) (legible : ∀ directive ∈ directives, directive.Legible) :
    curlDirectives (['\n'].intercalate (directives.map Directive.line) ++ ['\n']) = directives.map fun directive => (directive.name, directive.value) := by
  have lines : (['\n'].intercalate (directives.map Directive.line) ++ ['\n']).splitOn '\n' = directives.map Directive.line ++ [[]] := by
    have cut := @splitOnP_append_replicate _ (· == '\n') _ (beq_self_eq_true '\n') (['\n'].intercalate (directives.map Directive.line)) 1
    rw [← List.splitOn_eq_splitOnP, ← List.splitOn_eq_splitOnP, List.splitOn_intercalate] at cut
    · exact cut
    · intro line member ends
      obtain ⟨directive, listed, rfl⟩ := List.mem_map.mp member
      exact (line_of_legible (legible directive listed) ends).1 rfl
    · exact fun empty => some (List.map_eq_nil_iff.mp empty)
  have each : ∀ directive ∈ directives, curlDirective (directive.line.takeWhile (· ≠ '\x00')) = Option.some (directive.name, directive.value) := by
    intro directive listed
    have all : directive.line.takeWhile (· ≠ '\x00') = directive.line :=
      List.takeWhile_eq_self_iff.mpr fun char inside => decide_eq_true (line_of_legible (legible directive listed) inside).2
    rw [all, curlDirective_line (legible directive listed)]
  rw [curlDirectives, lines, List.filterMap_append, List.filterMap_map]
  exact (List.append_nil _).trans ((List.filterMap_congr each).trans (congrFun List.filterMap_eq_map' _))

/-! ## Requests -/

theorem legible_of_mem_requested {url : Text} {options : RequestOptions} (clean : ∀ value ∈ placed url options, '\x00' ∉ value)
    {directive : Directive} (member : directive ∈ requested url options) : directive.Legible := by
  obtain ⟨timeout, method, token, body, headers, resolve, insecure, includeHeaders⟩ := options
  simp only [placed, List.mem_append, List.mem_cons, Option.mem_toList] at clean
  simp only [requested, List.mem_append, List.mem_map, List.mem_flatMap, Option.mem_toList] at member
  rcases member with ((((((fixed | ⟨value, given, rfl⟩) | ⟨value, given, rfl⟩) | ⟨value, given, data⟩) | ⟨value, given, rfl⟩) | ⟨value, given, rfl⟩) |
    insecure) | heads
  · simp only [List.mem_cons, List.not_mem_nil, or_false] at fixed
    rcases fixed with rfl | rfl | rfl | rfl | rfl | rfl | rfl
    · exact (by decide : Directive.PlainName "silent")
    · exact (by decide : Directive.PlainName "show-error")
    · exact ⟨by decide, by decide, by decide⟩
    · exact ⟨by decide, by simp, fun char inside => Nat.isDigit_of_mem_toDigits (by decide) (by decide) inside⟩
    · exact ⟨by decide, by decide, by decide⟩
    · exact ⟨by decide, clean _ (by simp)⟩
    · exact ⟨by decide, by decide⟩
  · exact ⟨by decide, clean value (by simp [given])⟩
  · refine ⟨by decide, fun inside => ?_⟩
    rcases List.mem_append.mp inside with inside | inside
    · exact absurd inside (by decide)
    · exact clean value (by simp [given]) inside
  · simp only [List.mem_cons, List.not_mem_nil, or_false] at data
    rcases data with rfl | rfl
    · exact ⟨by decide, by decide⟩
    · exact ⟨by decide, clean value (by simp [given])⟩
  · exact ⟨by decide, clean value (by simp [given])⟩
  · exact ⟨by decide, clean value (by simp [given])⟩
  · split at insecure
    · rw [List.mem_singleton.mp insecure]
      exact (by decide : Directive.PlainName "insecure")
    · cases insecure
  · split at heads
    · rw [List.mem_singleton.mp heads]
      exact (by decide : Directive.PlainName "include")
    · cases heads

/-- A value cannot leave its quotes: it is on one line, curl reads it back whole, and so a request's
configuration has the directives that were meant, and no others. -/
theorem curlQuote_contained :
    (∀ value rest : Text, '\x00' ∉ value →
      '\r' ∉ curlQuote value ∧ '\n' ∉ curlQuote value ∧ quotedValue (curlQuote value ++ rest) = some (value, rest)) ∧
    ∀ (url : Text) (options : RequestOptions), (∀ value ∈ placed url options, '\x00' ∉ value) →
      curlDirectives (requestConfig url options) = (requested url options).map fun directive => (directive.name, directive.value) := by
  refine ⟨fun value rest _ => ⟨(line_curlQuote value).1, (line_curlQuote value).2, quotedValue_curlQuote value rest⟩, ?_⟩
  intro url options clean
  have some : requested url options ≠ [] := by
    rw [requested]
    simp
  rw [requestConfig, requestLines_eq]
  exact curlDirectives_lines some fun directive => legible_of_mem_requested clean

/-- A body that tries to leave its quotes and to add a directive. -/
theorem curlQuote_contained_body :
    curlDirectives (requestConfig "https://a".toList ⟨none, none, none, some "\\\"\r\nurl = \"b".toList, [], none, false, false⟩) =
        (requested "https://a".toList ⟨none, none, none, some "\\\"\r\nurl = \"b".toList, [], none, false, false⟩).map
          (fun directive => (directive.name, directive.value)) ∧
      quotedValue (curlQuote "\\\"\n".toList) = some ("\\\"\n".toList, []) :=
  ⟨curlQuote_contained.2 _ _ (by decide), (curlQuote_contained.1 "\\\"\n".toList [] (by decide)).2.2⟩

end XWrt.CloudflareTunnel.Curl
