import Mathlib
import XWrt.Foundation.Double
import XWrt.Foundation.Numerals
import XWrt.Foundation.Text
import XWrt.Mwan3.IfaceChains
import XWrt.Mwan3.PolicyRules

/-!
# Reports on policies

`report_policies` of the rpcd service and `mwan3_report_policies`. Both read the
weights and the total back from the comments that `iptables -S` prints for the
chain of a policy: only a comment with blanks is printed in quotes, and comments
that begin with the word `out` are left out.
-/

namespace XWrt.Mwan3

open XWrt.Foundation
open XWrt.Foundation.Numerals

/-! ## What `iptables -S` prints for a chain -/

/-- A character that needs no quotes. -/
def plainChar (char : Char) : Bool := char.isAlphanum || char == '_' || char == '-'

/-- How iptables prints a text: in quotes unless all its characters are plain. -/
def saveString (text : String) : String :=
  if text ≠ "" ∧ text.toList.all plainChar then text
  else
    "\"" ++ String.ofList (text.toList.flatMap fun char =>
      if char ∈ ['"', '\\', '\''] then ['\\', char] else [char]) ++ "\""

def LastResort.text : LastResort → String
  | .blackhole => "blackhole"
  | .default => "default"
  | .unreachable => "unreachable"

def Comment.text : Comment → String
  | .member interface weight total => interface ++ " " ++ toString weight ++ " " ++ toString total
  | .lastResort action => action.text

/-- The line of a rule; a probability is printed with more digits, which nothing reads. -/
def Rule.print (chain : String) (rule : Rule) : String :=
  "-A " ++ chain ++ " -m mark --mark " ++ printMatch rule.mask ++
    rule.probability.elim "" (" -m statistic --mode random --probability " ++ ·) ++
    " -m comment --comment " ++ saveString rule.comment.text ++
    " -j MARK --set-xmark " ++ printHex rule.setMark ++ "/" ++ printHex rule.mask

/-- `iptables -S` of a chain. -/
def printChain (chain : String) (rules : List Rule) : List String :=
  ("-N " ++ chain) :: rules.map (Rule.print chain)

/-! ## The reports -/

/-- The comment begins with `out`; awk looks for `--comment "out ` in the line. -/
def saysOut (line : String) : Bool := "--comment \"out ".toList <:+: line.toList

/-- The words of `$2` with `-F'"'`, where there is more than one field. -/
def quotedWords (line : String) : Option (List String) :=
  match line.toList.splitOn '"' with
  | _ :: quoted :: _ =>
      some ((Text.words (fun char => !Text.isSpace char) quoted).map String.ofList)
  | _ => none

/-- What `split($2, a, " ")` gives for the lines that are not left out. -/
def commentWords (lines : List String) : List (List String) :=
  (lines.filter fun line => !saysOut line).filterMap quotedWords

/-- The number that a text begins with. -/
def awkNumber (text : String) : Nat := (readDigits 10 (text.toList.takeWhile Char.isDigit)).getD 0

/-- `%d` of `weight * 100 / total`; awk computes in doubles. -/
def percent (weight total : Nat) : Nat :=
  Double.divFloor (Double.round (Double.round weight * 100)) (Double.round total)

def percentText (weight total : String) : String := toString (percent (awkNumber weight) (awkNumber total))

namespace Rpcd

/-- `printf "%s=%d\n"` for an entry `a[1] "=" a[2]`. -/
def printEntry (total entry : String) : String :=
  let a := (entry.toList.splitOn '=').map String.ofList
  a.getD 0 "" ++ "=" ++ percentText (a.getD 1 "") total

/-- `${entry%%=*}` and `${entry#*=}` -/
def object (entry : String) : String × Nat :=
  (String.ofList (entry.toList.takeWhile (· ≠ '=')),
    awkNumber (String.ofList ((entry.toList.dropWhile (· ≠ '=')).drop 1)))

/-- `report_policies`: the interface and the percent of each object. -/
def reportPolicies (lines : List String) : List (String × Nat) :=
  let comments := commentWords lines
  let total := ((comments.map (·.getD 2 "")).find? (· ≠ "")).getD ""
  if total = "" then []
  -- awk stops at a division by zero.
  else if awkNumber total = 0 then []
  else comments.map fun a => object (printEntry total (a.getD 0 "" ++ "=" ++ a.getD 1 ""))

end Rpcd

/-- `mwan3_report_policies`: the lines it prints. -/
def reportPolicies (lines : List String) : List String :=
  let comments := commentWords lines
  let total := (comments.head?.map (·.getD 2 "")).getD ""
  if total ≠ "" then
    if awkNumber total = 0 then []
    else comments.map fun a => " " ++ a.getD 0 "" ++ " (" ++ percentText (a.getD 1 "") total ++ "%)"
  else [" " ++ (comments.head?.map (·.getD 0 "")).getD ""]

/-! ## Texts without quotes -/

/-- A section name as UCI accepts it. -/
def isIdentifier (name : String) : Prop :=
  name ≠ "" ∧ ∀ char ∈ name.toList, (char.isAlphanum || char == '_') = true

instance : DecidablePred isIdentifier := fun name =>
  decidable_of_iff (name ≠ "" ∧ (name.toList.all fun char => char.isAlphanum || char == '_') = true)
    (and_congr_right fun _ => List.all_eq_true)

/-- A text that has none of the characters that the reports cut at. -/
def Clean (text : List Char) : Prop := ∀ char ∈ text, char ≠ '"' ∧ char ≠ '=' ∧ Text.isSpace char = false

theorem alphanum_clean {char : Char} (plain : (char.isAlphanum || char == '_') = true) :
    char ≠ '"' ∧ char ≠ '=' ∧ Text.isSpace char = false := by
  refine ⟨?_, ?_, ?_⟩
  · rintro rfl
    cases plain
  · rintro rfl
    cases plain
  · rw [← Bool.not_eq_true]
    intro space
    rcases (Bool.or_eq_true _ _).mp space with blank | control
    · rw [eq_of_beq blank] at plain
      cases plain
    · have same : char.toNat = char.val.toNat := rfl
      simp only [Bool.and_eq_true, decide_eq_true_eq] at control
      rcases (Bool.or_eq_true _ _).mp plain with letter | underscore
      · simp only [Char.isAlphanum, Char.isAlpha, Char.isUpper, Char.isLower, Char.isDigit, Bool.or_eq_true,
          Bool.and_eq_true, decide_eq_true_eq, ge_iff_le, UInt32.le_iff_toNat_le] at letter
        have bounds : 'A'.val.toNat = 65 ∧ 'a'.val.toNat = 97 ∧ '0'.val.toNat = 48 := by decide
        omega
      · rw [eq_of_beq underscore] at control
        exact absurd control.2 (by decide)

theorem isIdentifier.clean {name : String} (identifier : isIdentifier name) : Clean name.toList :=
  fun char member => alphanum_clean (identifier.2 char member)

theorem digits_plain (n : Nat) : ∀ char ∈ (toString n).toList, (char.isAlphanum || char == '_') = true := by
  intro char member
  have digits : (toString n).toList = Nat.toDigits 10 n := Nat.toList_repr
  rw [digits] at member
  simp [Char.isAlphanum, Nat.isDigit_of_mem_toDigits (by decide) (by decide) member]

theorem digits_clean (n : Nat) : Clean (toString n).toList :=
  fun char member => alphanum_clean (digits_plain n char member)

theorem toString_ne_nil (n : Nat) : (toString n).toList ≠ [] := by
  have digits : (toString n).toList = Nat.toDigits 10 n := Nat.toList_repr
  rw [digits]
  exact Nat.toDigits_ne_nil

theorem readDigits_toDigits (n : Nat) : readDigits 10 (Nat.toDigits 10 n) = some n := by
  rw [readDigits, if_neg Nat.toDigits_ne_nil]
  induction n using Nat.strong_induction_on with
  | _ n ih =>
      rcases Nat.lt_or_ge n 10 with single | long
      · rw [Nat.toDigits_of_lt_base single]
        exact (foldlM_digits_concat [] single).trans (by simp)
      · rw [Nat.toDigits_of_base_le (by decide) long, foldlM_digits_concat _ (Nat.mod_lt _ (by decide)),
          ih _ (Nat.div_lt_self (by omega) (by decide)), Option.map_some]
        exact congrArg some (by omega)

theorem awkNumber_toString (n : Nat) : awkNumber (toString n) = n := by
  have digits : (toString n).toList = Nat.toDigits 10 n := Nat.toList_repr
  have all : (Nat.toDigits 10 n).takeWhile Char.isDigit = Nat.toDigits 10 n :=
    List.takeWhile_eq_self_iff.mpr fun char member => Nat.isDigit_of_mem_toDigits (by decide) (by decide) member
  rw [awkNumber, digits, all, readDigits_toDigits]
  rfl

theorem unquoted_append {first second : String} (ofFirst : '"' ∉ first.toList) (ofSecond : '"' ∉ second.toList) :
    '"' ∉ (first ++ second).toList := by
  rw [String.toList_append, List.mem_append]
  exact fun inside => inside.elim ofFirst ofSecond

theorem printHex_unquoted (n : Nat) : '"' ∉ (printHex n).toList := by
  have digit : ∀ digit < 16, '"' ≠ digit.digitChar := by decide
  refine unquoted_append (by decide) fun inside => ?_
  rw [String.toList_ofList] at inside
  obtain ⟨value, small, same⟩ := exists_of_mem_toDigits (show 1 < 16 by decide) inside
  exact digit value small same

theorem printMatch_unquoted (mask : Nat) : '"' ∉ (printMatch mask).toList := by
  unfold printMatch
  split
  · decide
  · exact unquoted_append (by decide) (printHex_unquoted mask)

theorem probabilityText_unquoted (probability : Nat) : '"' ∉ (probabilityText probability).toList := by
  have digits : '"' ∉ (toString probability).toList := fun inside => (digits_clean probability _ inside).1 rfl
  unfold probabilityText
  split
  · exact unquoted_append (by decide) digits
  split
  · exact unquoted_append (by decide) digits
  split
  · exact unquoted_append (by decide) digits
  · decide

/-! ## The line of a member -/

section Line

variable {env : Env} {chain interface : String} {rule : Rule} {weight total : Nat}

/-- What stands in a line ahead of the comment. -/
def Rule.front (chain : String) (rule : Rule) : String :=
  "-A " ++ chain ++ " -m mark --mark " ++ printMatch rule.mask ++
    rule.probability.elim "" (" -m statistic --mode random --probability " ++ ·) ++ " -m comment --comment "

/-- What stands in a line behind the comment. -/
def Rule.back (rule : Rule) : String := " -j MARK --set-xmark " ++ printHex rule.setMark ++ "/" ++ printHex rule.mask

theorem Rule.print_eq (chain : String) (rule : Rule) :
    rule.print chain = rule.front chain ++ saveString rule.comment.text ++ rule.back := by
  unfold Rule.print Rule.front Rule.back
  simp only [String.append_assoc]

/-- No quotes but those of the comment. -/
def Rule.Unquoted (rule : Rule) : Prop := '"' ∉ (rule.probability.getD "").toList

theorem statistic_unquoted {probability : Option String} (unquoted : '"' ∉ (probability.getD "").toList) :
    '"' ∉ (probability.elim "" (" -m statistic --mode random --probability " ++ ·)).toList := by
  cases probability with
  | none => decide
  | some text => exact unquoted_append (by decide) unquoted

theorem Rule.front_unquoted (plain : '"' ∉ chain.toList) (unquoted : rule.Unquoted) :
    '"' ∉ (rule.front chain).toList := by
  have fwmark : '"' ∉ ("-A " ++ chain ++ " -m mark --mark " ++ printMatch rule.mask).toList :=
    unquoted_append (unquoted_append (unquoted_append (by decide) plain) (by decide)) (printMatch_unquoted _)
  exact unquoted_append (unquoted_append fwmark (statistic_unquoted unquoted)) (by decide)

theorem Rule.back_unquoted (rule : Rule) : '"' ∉ rule.back.toList :=
  unquoted_append (unquoted_append (unquoted_append (by decide) (printHex_unquoted _)) (by decide)) (printHex_unquoted _)

theorem memberText_toList (interface : String) (weight total : Nat) :
    (Comment.member interface weight total).text.toList =
      [' '].intercalate [interface.toList, (toString weight).toList, (toString total).toList] := by
  simp [Comment.text]

/-- The comment of a member has blanks, so it is printed in quotes. -/
theorem saveString_member (identifier : isIdentifier interface) :
    (saveString (Comment.member interface weight total).text).toList =
      '"' :: (Comment.member interface weight total).text.toList ++ ['"'] := by
  have text := memberText_toList interface weight total
  have notPlain : ¬((Comment.member interface weight total).text ≠ "" ∧
      (Comment.member interface weight total).text.toList.all plainChar = true) := by
    rintro ⟨-, plain⟩
    rw [text, List.all_eq_true] at plain
    exact absurd (plain ' ' (by simp)) (by decide)
  have same : ((Comment.member interface weight total).text.toList.flatMap fun char =>
      if char ∈ ['"', '\\', '\''] then ['\\', char] else [char]) =
        (Comment.member interface weight total).text.toList := by
    have plain : ∀ char : Char, (char.isAlphanum || char == '_') = true → char ∉ ['"', '\\', '\''] := by
      intro char plain escaped
      simp only [List.mem_cons, List.not_mem_nil, or_false] at escaped
      rcases escaped with rfl | rfl | rfl <;> cases plain
    have escape : ∀ char ∈ (Comment.member interface weight total).text.toList, char ∉ ['"', '\\', '\''] := by
      rw [text]
      simp only [List.intercalate_cons_cons, List.intercalate_singleton, List.forall_mem_append, List.forall_mem_singleton]
      exact ⟨⟨fun char member => plain char (identifier.2 char member), by decide⟩,
        ⟨fun char member => plain char (digits_plain weight char member), by decide⟩,
        fun char member => plain char (digits_plain total char member)⟩
    rw [List.flatMap_congr fun char member => if_neg (escape char member)]
    exact List.flatMap_singleton' _
  rw [saveString, if_neg notPlain, same]
  simp

theorem memberText_unquoted (identifier : isIdentifier interface) :
    '"' ∉ (Comment.member interface weight total).text.toList := by
  rw [memberText_toList]
  simp only [List.intercalate_cons_cons, List.intercalate_singleton, List.mem_append, List.mem_singleton]
  rintro ((inside | blank) | (inside | blank) | inside)
  · exact (identifier.clean _ inside).1 rfl
  · cases blank
  · exact (digits_clean weight _ inside).1 rfl
  · cases blank
  · exact (digits_clean total _ inside).1 rfl

theorem print_member (comment : rule.comment = .member interface weight total) (identifier : isIdentifier interface) :
    (rule.print chain).toList = (rule.front chain).toList ++
      '"' :: ((Comment.member interface weight total).text.toList ++ '"' :: rule.back.toList) := by
  rw [Rule.print_eq, comment, String.toList_append, String.toList_append, saveString_member identifier]
  simp

theorem front_ends (chain : String) (rule : Rule) : "--comment ".toList <:+ (rule.front chain).toList := by
  have own : "--comment ".toList <:+ " -m comment --comment ".toList := by decide
  unfold Rule.front
  rw [String.toList_append]
  exact own.trans (List.suffix_append _ _)

/-- The text of a member ends with a digit. -/
theorem memberText_not_ends (interface : String) (weight total : Nat) :
    ¬ "--comment ".toList <:+ (Comment.member interface weight total).text.toList := by
  have blank : "--comment ".toList.getLast? = some ' ' := by decide
  rintro ⟨front, ends⟩
  have last := congrArg List.getLast? ends
  rw [List.getLast?_append_of_ne_nil _ (by decide), blank, memberText_toList, List.intercalate_cons_cons,
    List.intercalate_cons_cons, List.intercalate_singleton, List.getLast?_append_of_ne_nil _ (by simp),
    List.getLast?_append_of_ne_nil _ (toString_ne_nil total)] at last
  exact absurd (digits_clean total ' ' (List.mem_of_getLast? last.symm)).2.2 (by decide)

theorem memberText_starts (identifier : isIdentifier interface) (back : List Char) :
    "out ".toList <+: (Comment.member interface weight total).text.toList ++ back ↔ interface = "out" := by
  have blank : ' ' ∉ interface.toList := fun inside => absurd (identifier.clean _ inside).2.2 (by decide)
  have text : (Comment.member interface weight total).text.toList =
      interface.toList ++ ' ' :: ((toString weight).toList ++ ' ' :: (toString total).toList) := by
    rw [memberText_toList]
    simp
  have out : "out ".toList = "out".toList ++ ' ' :: [] := by decide
  rw [text, out, List.append_assoc, List.cons_append, Text.prefix_append_separator (by decide) blank,
    and_iff_left (List.nil_prefix), String.toList_inj, eq_comm]

/-- A line is left out when its interface is called `out`. -/
theorem saysOut_member (comment : rule.comment = .member interface weight total) (identifier : isIdentifier interface)
    (plain : '"' ∉ chain.toList) (unquoted : rule.Unquoted) : saysOut (rule.print chain) = true ↔ interface = "out" := by
  have pattern : "--comment \"out ".toList = "--comment ".toList ++ '"' :: "out ".toList := by decide
  have clean : '"' ∉ "--comment ".toList := by decide
  unfold saysOut
  rw [decide_eq_true_eq, pattern, print_member comment identifier,
    Text.infix_append_separator clean (Rule.front_unquoted plain unquoted),
    Text.infix_append_separator clean (memberText_unquoted identifier), and_iff_right (front_ends chain rule),
    memberText_starts identifier]
  constructor
  · rintro (own | (⟨ends, -⟩ | later))
    · exact own
    · exact absurd ends (memberText_not_ends interface weight total)
    · exact absurd later (Text.not_infix_of_notMem rule.back_unquoted)
  · exact Or.inl

theorem quotedWords_member (comment : rule.comment = .member interface weight total) (identifier : isIdentifier interface)
    (plain : '"' ∉ chain.toList) (unquoted : rule.Unquoted) :
    quotedWords (rule.print chain) = some [interface, toString weight, toString total] := by
  have split : (rule.print chain).toList.splitOn '"' =
      [(rule.front chain).toList, (Comment.member interface weight total).text.toList, rule.back.toList] := by
    have pieces : (rule.print chain).toList = ['"'].intercalate
        [(rule.front chain).toList, (Comment.member interface weight total).text.toList, rule.back.toList] := by
      rw [print_member comment identifier]
      simp
    rw [pieces]
    refine List.splitOn_intercalate _ ?_ (by simp)
    simp only [List.forall_mem_cons]
    exact ⟨Rule.front_unquoted plain unquoted, memberText_unquoted identifier, rule.back_unquoted, List.forall_mem_nil _⟩
  have words : Text.words (fun char => !Text.isSpace char) (Comment.member interface weight total).text.toList =
      [interface.toList, (toString weight).toList, (toString total).toList] := by
    rw [memberText_toList]
    refine Text.words_intercalate (by decide) ?_ ?_
    · simp only [List.forall_mem_cons, Bool.not_eq_true']
      exact ⟨fun char member => (identifier.clean char member).2.2,
        fun char member => (digits_clean weight char member).2.2,
        fun char member => (digits_clean total char member).2.2, List.forall_mem_nil _⟩
    · simp only [List.forall_mem_cons]
      exact ⟨fun none => identifier.1 (String.toList_eq_nil_iff.mp none), toString_ne_nil weight, toString_ne_nil total,
        List.forall_mem_nil _⟩
  rw [quotedWords, split]
  simp only [words, List.map_cons, List.map_nil, String.ofList_toList]

/-- The comment of a last resort is printed without quotes, so the line has one field. -/
theorem quotedWords_lastResort (env : Env) (lastResort : LastResort) (plain : '"' ∉ chain.toList) :
    quotedWords ((env.lastResortRule lastResort).print chain) = none := by
  have text : '"' ∉ (saveString (Comment.lastResort lastResort).text).toList := by
    cases lastResort <;> decide
  have line : '"' ∉ ((env.lastResortRule lastResort).print chain).toList := by
    rw [Rule.print_eq]
    exact unquoted_append (unquoted_append (Rule.front_unquoted plain (show '"' ∉ "".toList by decide)) text) (Rule.back_unquoted _)
  rw [quotedWords, List.splitOn_eq_singleton line]

end Line

/-! ## The lines of a chain -/

section Chain

variable {env : Env} {chain : String} {members : List Member}

/-- The words of the comments of members, the latest first. -/
def memberEntries : List Member → List (List String)
  | [] => []
  | m :: earlier =>
      [m.interface, toString m.weight, toString (m.weight + ChanceRule.totalWeight Member.weight earlier)] ::
        memberEntries earlier

theorem commentWords_cons (line : String) (lines : List String) :
    commentWords (line :: lines) = (if saysOut line then [] else (quotedWords line).toList) ++ commentWords lines := by
  unfold commentWords
  cases said : saysOut line with
  | true => simp [said]
  | false =>
      cases words : quotedWords line with
      | none => simp [said, words]
      | some words' => simp [said, words]

theorem commentWords_append (first second : List String) :
    commentWords (first ++ second) = commentWords first ++ commentWords second := by
  simp [commentWords]

theorem commentWords_none {line : String} (unquoted : quotedWords line = none) : commentWords [line] = [] := by
  rw [commentWords_cons, unquoted]
  cases saysOut line <;> rfl

theorem commentWords_written (flushed : Bool) (plain : '"' ∉ chain.toList)
    (identifiers : ∀ m ∈ members, isIdentifier m.interface) :
    commentWords ((env.writtenRules flushed members).map (Rule.print chain)) =
      (memberEntries members).filter fun a => a.getD 0 "" ≠ "out" := by
  induction members with
  | nil => rfl
  | cons m earlier ih =>
      rw [List.forall_mem_cons] at identifiers
      let total := m.weight + ChanceRule.totalWeight Member.weight earlier
      let rule := env.memberRule m ((env.ifaceId m.interface).getD 0) total
        (if flushed ∧ earlier = [] then none else some (probabilityText (m.weight * 1000 / total)))
      have unquoted : rule.Unquoted := by
        show '"' ∉ ((if flushed ∧ earlier = [] then none
          else some (probabilityText (m.weight * 1000 / total))).getD "").toList
        split
        · exact (show '"' ∉ "".toList by decide)
        · exact probabilityText_unquoted _
      have words := @quotedWords_member chain m.interface rule m.weight total rfl identifiers.1 plain unquoted
      have out := @saysOut_member chain m.interface rule m.weight total rfl identifiers.1 plain unquoted
      rw [Env.writtenRules, List.map_cons, commentWords_cons, ih identifiers.2, words, memberEntries]
      by_cases called : m.interface = "out"
      · rw [if_pos (out.mpr called), List.filter_cons_of_neg (by simp [called])]
        rfl
      · rw [if_neg (out.not.mpr called), List.filter_cons_of_pos (by simp [called])]
        rfl

theorem policyChain_plain {policy : Policy} (identifier : isIdentifier policy.name) :
    '"' ∉ (policyChain policy.name).toList :=
  unquoted_append (by decide) fun inside => (identifier.clean _ inside).1 rfl

/-- What the reports read from the chain of a policy. -/
theorem commentWords_printChain {policy : Policy} (family : Family) (identifier : isIdentifier policy.name)
    (identifiers : ∀ m ∈ env.offered family policy.members, isIdentifier m.interface) :
    commentWords (printChain (policyChain policy.name) (env.policyRules policy family)) =
      (memberEntries (env.offered family policy.members).reverse).filter fun a => a.getD 0 "" ≠ "out" := by
  have plain := policyChain_plain identifier
  have declared : quotedWords ("-N " ++ policyChain policy.name) = none := by
    rw [quotedWords, List.splitOn_eq_singleton (unquoted_append (by decide) plain)]
  obtain ⟨flushed, rules⟩ : ∃ flushed : Bool, env.policyRules policy family =
      env.writtenRules flushed (env.offered family policy.members).reverse ++
        if flushed then [] else [env.lastResortRule policy.lastResort] := ⟨_, rfl⟩
  have rest : commentWords ((if flushed then [] else [env.lastResortRule policy.lastResort]).map
      (Rule.print (policyChain policy.name))) = [] := by
    split
    · rfl
    · exact commentWords_none (quotedWords_lastResort env policy.lastResort plain)
  rw [printChain, ← List.singleton_append, commentWords_append, commentWords_none declared, rules, List.map_append,
    commentWords_append, rest, List.append_nil, List.nil_append]
  exact commentWords_written flushed plain fun m member => identifiers m (List.mem_reverse.mp member)

end Chain

/-! ## The balance that is reported -/

section Reports

variable {members : List Member}

/-- What awk's doubles lose does not change the whole percent. -/
def PercentExact (total weight : Nat) : Prop := percent weight total = 100 * weight / total

theorem percentExact_of_small {total weight : Nat} (positive : 0 < total) (part : weight ≤ total)
    (small : total ≤ 2 ^ 46) : PercentExact total weight := by
  have most : weight * 100 / total ≤ 100 := by
    rw [Nat.mul_comm]
    exact Nat.div_le_of_le_mul (by rw [Nat.mul_comm]; exact Nat.mul_le_mul_right _ part)
  have own : Double.round weight = weight := Double.round_exact (by omega)
  have whole : Double.round total = total := Double.round_exact (by omega)
  unfold PercentExact percent
  rw [own, whole, Double.round_exact (by omega), Nat.mul_comm 100]
  exact Double.divFloor_exact positive small (by omega)

/-- A hundredfold weight that is one short of 99 totals. -/
example : percent 139330113471845 (139330113471845 + 1407374883554) = 99 ∧
    100 * 139330113471845 / (139330113471845 + 1407374883554) = 98 := by decide +kernel

theorem percentText_eq (weight total : Nat) :
    percentText (toString weight) (toString total) = toString (percent weight total) := by
  rw [percentText, awkNumber_toString, awkNumber_toString]

theorem object_printEntry {interface : String} (identifier : isIdentifier interface) (weight : Nat) (total : String) :
    Rpcd.object (Rpcd.printEntry total (interface ++ "=" ++ toString weight)) =
      (interface, percent weight (awkNumber total)) := by
  have free : '=' ∉ interface.toList := fun inside => (identifier.clean _ inside).2.1 rfl
  have free' : ∀ n : Nat, '=' ∉ (toString n).toList := fun n inside => (digits_clean n _ inside).2.1 rfl
  have equals : "=".toList = ['='] := by decide
  have joined : ∀ n : Nat, (interface ++ "=" ++ toString n).toList =
      interface.toList ++ '=' :: (toString n).toList := by
    intro n
    rw [String.toList_append, String.toList_append, equals]
    simp
  have split : (interface ++ "=" ++ toString weight).toList.splitOn '=' =
      [interface.toList, (toString weight).toList] := by
    have pieces : (interface ++ "=" ++ toString weight).toList =
        ['='].intercalate [interface.toList, (toString weight).toList] := by
      rw [joined]
      simp
    rw [pieces]
    refine List.splitOn_intercalate _ ?_ (by simp)
    exact List.forall_mem_cons.mpr ⟨free, List.forall_mem_singleton.mpr (free' weight)⟩
  have entry : Rpcd.printEntry total (interface ++ "=" ++ toString weight) =
      interface ++ "=" ++ toString (percent weight (awkNumber total)) := by
    simp only [Rpcd.printEntry, split, List.map_cons, List.map_nil, List.getD_cons_zero, List.getD_cons_succ,
      String.ofList_toList, percentText, awkNumber_toString]
  have apart : ∀ char ∈ interface.toList, decide (char ≠ '=') = true :=
    fun char member => decide_eq_true fun same => free (same ▸ member)
  rw [entry, Rpcd.object, joined, List.takeWhile_append_of_pos apart, List.dropWhile_append_of_pos apart,
    List.takeWhile_cons_of_neg (by simp), List.dropWhile_cons_of_neg (by simp), List.append_nil, List.drop_one,
    List.tail_cons, String.ofList_toList, String.ofList_toList, awkNumber_toString]

/-- The weight of all members. -/
abbrev totalOf (members : List Member) : Nat := (members.map Member.weight).sum

theorem rpcd_entries (total : String) (identifiers : ∀ m ∈ members, isIdentifier m.interface) :
    ((memberEntries members).map fun a => Rpcd.object (Rpcd.printEntry total (a.getD 0 "" ++ "=" ++ a.getD 1 ""))) =
      members.map fun m => (m.interface, percent m.weight (awkNumber total)) := by
  induction members with
  | nil => rfl
  | cons m earlier ih =>
      rw [List.forall_mem_cons] at identifiers
      rw [memberEntries, List.map_cons, List.map_cons, ih identifiers.2]
      exact congrArg (· :: _) (object_printEntry identifiers.1 m.weight total)

theorem command_entries (total : Nat) (members : List Member) :
    ((memberEntries members).map fun a => " " ++ a.getD 0 "" ++ " (" ++ percentText (a.getD 1 "") (toString total) ++ "%)") =
      members.map fun m => " " ++ m.interface ++ " (" ++ toString (percent m.weight total) ++ "%)" := by
  induction members with
  | nil => rfl
  | cons m earlier ih =>
      rw [memberEntries, List.map_cons, List.map_cons, ih, List.getD_cons_zero, List.getD_cons_succ,
        List.getD_cons_zero, percentText_eq]

theorem memberEntries_all (called : ∀ m ∈ members, m.interface ≠ "out") :
    (memberEntries members).filter (fun a => a.getD 0 "" ≠ "out") = memberEntries members := by
  induction members with
  | nil => rfl
  | cons m earlier ih =>
      rw [List.forall_mem_cons] at called
      rw [memberEntries, List.filter_cons_of_pos (by simpa using called.1), ih called.2]

theorem exists_of_mem_memberEntries {a : List String} (inside : a ∈ memberEntries members) :
    ∃ m ∈ members, a.getD 0 "" = m.interface ∧ a.getD 1 "" = toString m.weight := by
  induction members with
  | nil => cases inside
  | cons m earlier ih =>
      rcases List.mem_cons.mp inside with rfl | later
      · exact ⟨m, List.mem_cons_self, rfl, rfl⟩
      · obtain ⟨other, member, words⟩ := ih later
        exact ⟨other, List.mem_cons_of_mem _ member, words⟩

/-- No object is called `out`. -/
theorem rpcd_names {lines : List String} (identifiers : ∀ m ∈ members, isIdentifier m.interface)
    (read : commentWords lines = (memberEntries members).filter fun a => a.getD 0 "" ≠ "out") :
    ∀ object ∈ Rpcd.reportPolicies lines, object.1 ≠ "out" := by
  intro object listed
  simp only [Rpcd.reportPolicies] at listed
  split at listed
  · cases listed
  split at listed
  · cases listed
  · obtain ⟨a, inside, rfl⟩ := List.mem_map.mp listed
    rw [read] at inside
    obtain ⟨entry, called⟩ := List.mem_filter.mp inside
    obtain ⟨m, member, interface, weight⟩ := exists_of_mem_memberEntries entry
    rw [interface, weight, object_printEntry (identifiers m member), ← interface]
    exact of_decide_eq_true called

/-- The reports on comments that are all there. -/
theorem reports_of_entries {lines : List String} (identifiers : ∀ m ∈ members, isIdentifier m.interface)
    (positive : ∀ m ∈ members, 0 < m.weight) (read : commentWords lines = memberEntries members) :
    Rpcd.reportPolicies lines = (members.map fun m => (m.interface, percent m.weight (totalOf members))) ∧
      reportPolicies lines =
        if members = [] then [" "]
        else members.map fun m => " " ++ m.interface ++ " (" ++ toString (percent m.weight (totalOf members)) ++ "%)" := by
  unfold Rpcd.reportPolicies reportPolicies
  rw [read]
  by_cases none : members = []
  · subst none
    exact ⟨rfl, rfl⟩
  · obtain ⟨m, earlier, rfl⟩ := List.exists_cons_of_ne_nil none
    have total : ((memberEntries (m :: earlier)).head?.map (·.getD 2 "")).getD "" = toString (totalOf (m :: earlier)) := rfl
    have written : toString (totalOf (m :: earlier)) ≠ "" :=
      fun empty => toString_ne_nil _ (String.toList_eq_nil_iff.mpr empty)
    have first : (((memberEntries (m :: earlier)).map (·.getD 2 "")).find? (· ≠ "")).getD "" =
        toString (totalOf (m :: earlier)) := by
      have some : (decide (toString (totalOf (m :: earlier)) ≠ "")) = true := decide_eq_true written
      exact congrArg (·.getD "") (@List.find?_cons_of_pos _ (· ≠ "") _ _ some)
    have some : totalOf (m :: earlier) ≠ 0 := by
      have := positive m List.mem_cons_self
      rw [totalOf, List.map_cons, List.sum_cons]
      omega
    simp only [total, first, if_neg written, if_pos written, if_neg none, rpcd_entries _ identifiers, command_entries,
      awkNumber_toString, if_neg some, and_self]

/-- A member that counts has an interface section. -/
theorem isIdentifier_of_offered {env : Env} {family : Family} (identifiers : ∀ iface ∈ env.ifaces, isIdentifier iface.name) :
    ∀ m ∈ env.offered family members, isIdentifier m.interface := by
  intro m member
  have counts := of_decide_eq_true (List.mem_filter.mp (List.mem_of_mem_filter member)).2
  obtain ⟨id, found⟩ := Option.isSome_iff_exists.mp counts.2.2
  obtain ⟨index, place, -⟩ := ifaceId_eq_some.mp found
  rw [List.findIdx?_eq_some_iff_getElem] at place
  obtain ⟨inside, same, -⟩ := place
  rw [← of_decide_eq_true same]
  exact identifiers _ (List.getElem_mem inside)

end Reports

/-- Both reports list the members that the chain balances over, with the percent of their weight. -/
theorem reports_exact_iff (env : Env) (policy : Policy) (tables : Family → Table) (family : Family)
    (needed : env.need family = true) (short : policy.name.length ≤ 15) (identifier : isIdentifier policy.name)
    (identifiers : ∀ iface ∈ env.ifaces, isIdentifier iface.name) (weights : ∀ m ∈ policy.members, 0 < m.weight) :
    let offered := env.offered family policy.members
    let total := (offered.map Member.weight).sum
    ∃ chain, createPoliciesIptables env policy tables family (policyChain policy.name) = some chain ∧
      ((Rpcd.reportPolicies (printChain (policyChain policy.name) chain) =
          (offered.reverse.map fun m => (m.interface, 100 * m.weight / total)) ∧
        reportPolicies (printChain (policyChain policy.name) chain) =
          if offered = [] then [" "]
          else offered.reverse.map fun m =>
            " " ++ m.interface ++ " (" ++ toString (100 * m.weight / total) ++ "%)") ↔
        ∀ m ∈ offered, m.interface ≠ "out" ∧ PercentExact total m.weight) := by
  simp only
  refine ⟨env.policyRules policy family, ?_, ?_⟩
  · rw [createPoliciesIptables_eq policy tables needed short]
    exact Table.set_self _ _ _
  · have names := @isIdentifier_of_offered policy.members env family identifiers
    have read := commentWords_printChain family identifier names
    have positive : ∀ m ∈ env.offered family policy.members, 0 < m.weight :=
      fun m member => weights m (List.mem_of_mem_filter (List.mem_of_mem_filter member))
    generalize env.offered family policy.members = offered at names read positive ⊢
    have reversed : ∀ m ∈ offered.reverse, isIdentifier m.interface :=
      fun m member => names m (List.mem_reverse.mp member)
    have total : totalOf offered.reverse = (offered.map Member.weight).sum := by
      simp [totalOf, List.sum_reverse]
    -- What the reports print when no member is left out.
    have printed : (∀ m ∈ offered, m.interface ≠ "out") → _ := fun called =>
      reports_of_entries reversed (fun m member => positive m (List.mem_reverse.mp member))
        (read.trans (memberEntries_all fun m member => called m (List.mem_reverse.mp member)))
    rw [total] at printed
    constructor
    · rintro ⟨objects, -⟩
      have called : ∀ m ∈ offered, m.interface ≠ "out" := by
        intro m member
        refine rpcd_names reversed read (m.interface, 100 * m.weight / (offered.map Member.weight).sum) ?_
        rw [objects]
        exact List.mem_map.mpr ⟨m, List.mem_reverse.mpr member, rfl⟩
      rw [(printed called).1, List.map_inj_left] at objects
      intro m member
      exact ⟨called m member, (Prod.mk.inj (objects m (List.mem_reverse.mpr member))).2⟩
    · intro fine
      obtain ⟨objects, lines⟩ := printed fun m member => (fine m member).1
      have exact : ∀ m ∈ offered.reverse,
          percent m.weight (offered.map Member.weight).sum = 100 * m.weight / (offered.map Member.weight).sum :=
        fun m member => (fine m (List.mem_reverse.mp member)).2
      constructor
      · rw [objects]
        exact List.map_congr_left fun m member => congrArg (m.interface, ·) (exact m member)
      · rw [lines]
        simp only [List.reverse_eq_nil_iff]
        split
        · rfl
        · refine List.map_congr_left fun m member => ?_
          rw [exact m member]

theorem reports_exact_two_wans :
    ∃ chain, createPoliciesIptables twoWans balancedPolicy (fun _ _ => none) .ipv4 (policyChain "balanced") = some chain ∧
      Rpcd.reportPolicies (printChain (policyChain "balanced") chain) = [("wan", 60), ("wanb", 40)] ∧
      reportPolicies (printChain (policyChain "balanced") chain) = [" wan (60%)", " wanb (40%)"] := by
  obtain ⟨chain, present, reports⟩ := reports_exact_iff twoWans balancedPolicy (fun _ _ => none) .ipv4
    (by decide) (by decide) (by decide +kernel) (by decide +kernel) (by decide)
  have offers : twoWans.offered .ipv4 balancedPolicy.members = balancedPolicy.members := by decide +kernel
  have fine : ∀ m ∈ balancedPolicy.members, m.interface ≠ "out" ∧
      PercentExact (balancedPolicy.members.map Member.weight).sum m.weight := by
    refine fun m member => ⟨?_, percentExact_of_small (by decide) ?_ (by decide)⟩
    · revert m
      decide
    · revert m
      decide
  obtain ⟨objects, lines⟩ := reports.mpr (by rw [offers]; exact fine)
  rw [offers] at objects lines
  exact ⟨chain, present, objects, lines⟩

/-- Two interfaces, the second called `out`. -/
def wanAndOut : Env where
  mask := 0x3F00
  need _ := true
  ifaces := [⟨"wan", .any⟩, ⟨"out", .any⟩]
  ifaceState _ _ := some "online"

def outPolicy : Policy := ⟨"balanced", .unreachable, [⟨"wan", 1, 1⟩, ⟨"out", 1, 1⟩], by decide⟩

theorem out_not_reported :
    (∀ m ∈ outPolicy.members, wanAndOut.Online .ipv4 m) ∧
      ∃ chain, createPoliciesIptables wanAndOut outPolicy (fun _ _ => none) .ipv4 (policyChain "balanced") = some chain ∧
        Rpcd.reportPolicies (printChain (policyChain "balanced") chain) = [("wan", 100)] ∧
        reportPolicies (printChain (policyChain "balanced") chain) = [" wan (100%)"] := by
  refine ⟨by decide, wanAndOut.policyRules outPolicy .ipv4, ?_, by decide +kernel, by decide +kernel⟩
  rw [createPoliciesIptables_eq outPolicy _ (by decide) (by decide)]
  exact Table.set_self _ _ _

end XWrt.Mwan3
