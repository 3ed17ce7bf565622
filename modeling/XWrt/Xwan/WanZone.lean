import Mathlib.Data.List.Flatten
import XWrt.Foundation.Numerals
import XWrt.Foundation.UciCommands

/-!
# Interfaces by number, and the wan zone

What `xwan` and `pptpxwan` have in common. Interfaces are numbered with leading
zeros, with two digits here and three there. The networks of the first zone of
the firewall that is named `wan` are a text or a list; a script adds its
interfaces to it, and at the end takes out those from a number on.
-/

namespace XWrt.Xwan

open Foundation
open Foundation.Text
open Foundation.Shell
open Foundation.Uci

/-! ## Numbers -/

/-- `printf %02u` or `printf %03u` -/
def printf (width n : ℕ) : Text := (Nat.toDigits 10 n).leftpad width '0'

/-- `xwan$idx` -/
def xwanName (width n : ℕ) : Text := "xwan".toList ++ printf width n

/-- `device$idx` -/
def deviceName (width n : ℕ) : Text := "device".toList ++ printf width n

/-- The number that `test` reads. -/
def testNumber : Text → Option ℤ
  | '-' :: digits => if digits ≠ [] ∧ digits.all Char.isDigit then some (-(Nat.ofDigitChars 10 digits 0 : ℤ)) else none
  | '+' :: digits => if digits ≠ [] ∧ digits.all Char.isDigit then some (Nat.ofDigitChars 10 digits 0) else none
  | digits => if digits ≠ [] ∧ digits.all Char.isDigit then some (Nat.ofDigitChars 10 digits 0) else none

/-- `[ $num -ge $id ]`, which fails when there is no number -/
def testGe (num : Text) (id : ℕ) : Bool := (testNumber num).any fun n => (id : ℤ) ≤ n

/-! ## The zone -/

def zoneType : SectionType := ⟨"zone".toList, by decide⟩

/-- The zone that both loops look for. -/
def isWanZone (s : Section) : Bool := s.type = zoneType && s.options.got "name" = "wan".toList

section Zone

-- `glob` gives the names that a word stands for.
variable (glob : Text → List Text)

/-- `$networks` in a loop -/
def networks (s : Section) : List Text := (fields (s.options.got "network")).flatMap glob

/-- `add_to_zone_wan` and `cache_add_to_zone_wan`, for the zone -/
def addToZoneWan (intf : Text) (s : Section) : Section :=
  if intf ∈ networks glob s then s else s.set "network" ([' '].intercalate (networks glob s ++ [intf]))

/-- The interfaces that the clean-up leaves out. -/
def isExcess (width id : ℕ) (nw : Text) : Bool := nw.take 4 = "xwan".toList && (nw.drop 4).length = width && testGe (nw.drop 4) id

/-- `#clean up firewall`, for the zone -/
def cleanZoneWan (width id : ℕ) (s : Section) : Section :=
  (s.delete "network").addAll "network" ((networks glob s).filter fun nw => !isExcess width id nw)

end Zone

/-! ## Names -/

/-- A name of UCI. -/
def IsName (text : Text) : Prop := text ≠ [] ∧ ∀ char ∈ text, char.isAlphanum = true ∨ char = '_'

/-- A name stands for itself. -/
def KeepsNames (glob : Text → List Text) : Prop := ∀ name, IsName name → glob name = [name]

theorem isBlank_of_isName {text : Text} (name : IsName text) : ∀ char ∈ text, isBlank char = false := by
  intro char inside
  have other : ∀ blank : Char, blank.isAlphanum = false → blank ≠ '_' → (char == blank) = false := by
    intro blank letter line
    refine beq_eq_false_iff_ne.mpr ?_
    rintro rfl
    rcases name.2 _ inside with alphanum | same
    · exact Bool.false_ne_true (letter.symm.trans alphanum)
    · exact line same
  rw [isBlank, other ' ' (by decide) (by decide), other '\t' (by decide) (by decide), other '\n' (by decide) (by decide)]
  rfl

theorem ofDigitChars_printf (width n : ℕ) : Nat.ofDigitChars 10 (printf width n) 0 = n := by
  rw [printf, List.leftpad, Nat.ofDigitChars_append, Nat.ofDigitChars_replicate_zero, Nat.mul_zero, Nat.ofDigitChars_ten_toDigits]

theorem printf_injective (width : ℕ) : Function.Injective (printf width) := fun first second same => by
  rw [← ofDigitChars_printf width first, same, ofDigitChars_printf]

theorem digit_of_mem_printf {width n : ℕ} {char : Char} (inside : char ∈ printf width n) : char.isDigit = true := by
  rcases List.mem_append.mp inside with zero | digit
  · rw [List.eq_of_mem_replicate zero]
    rfl
  · exact Nat.isDigit_of_mem_toDigits (by decide) (by decide) digit

theorem printf_ne_nil (width n : ℕ) : printf width n ≠ [] := List.append_ne_nil_of_right_ne_nil _ Nat.toDigits_ne_nil

theorem length_printf {width n : ℕ} (short : n < 10 ^ width) (positive : 0 < width) : (printf width n).length = width := by
  have digits : (Nat.toDigits 10 n).length ≤ width := (Nat.length_toDigits_le_iff (by decide) positive).mpr short
  rw [printf, List.length_leftpad]
  omega

theorem xwanName_injective (width : ℕ) : Function.Injective (xwanName width) :=
  fun _ _ same => printf_injective width (List.append_cancel_left same)

theorem isName_xwanName (width n : ℕ) : IsName (xwanName width n) := by
  refine ⟨List.append_ne_nil_of_right_ne_nil _ (printf_ne_nil width n), fun char inside => .inl ?_⟩
  rcases List.mem_append.mp inside with letter | digit
  · exact (show ∀ char ∈ "xwan".toList, char.isAlphanum = true by decide) char letter
  · rw [Char.isAlphanum, digit_of_mem_printf digit, Bool.or_true]

/-- The number of an interface is read back. -/
theorem testNumber_printf (width n : ℕ) : testNumber (printf width n) = some (n : ℤ) := by
  have digits : printf width n ≠ [] ∧ (printf width n).all Char.isDigit = true :=
    ⟨printf_ne_nil width n, List.all_eq_true.mpr fun _ inside => digit_of_mem_printf inside⟩
  have sign : ∀ char rest, printf width n = char :: rest → char ≠ '-' ∧ char ≠ '+' := by
    intro char rest cons
    have digit := @digit_of_mem_printf width n char (cons ▸ .head _)
    refine ⟨?_, ?_⟩
    · rintro rfl
      exact absurd digit (by decide)
    · rintro rfl
      exact absurd digit (by decide)
  rw [testNumber]
  · rw [if_pos digits, ofDigitChars_printf]
  · exact fun rest cons => (sign _ rest cons).1 rfl
  · exact fun rest cons => (sign _ rest cons).2 rfl

theorem testGe_printf (width n id : ℕ) : testGe (printf width n) id = decide (id ≤ n) := by
  rw [testGe, testNumber_printf, Option.any_some]
  exact decide_eq_decide.mpr Int.ofNat_le

theorem isExcess_append (width id : ℕ) (num : Text) : isExcess width id ("xwan".toList ++ num) = (decide (num.length = width) && testGe num id) := by
  have front : ("xwan".toList ++ num).take 4 = "xwan".toList := List.take_left' rfl
  have back : ("xwan".toList ++ num).drop 4 = num := List.drop_left' rfl
  rw [isExcess, front, back, decide_eq_true rfl, Bool.true_and]

/-- The interfaces are left out from the number on. -/
theorem isExcess_xwanName {width n : ℕ} (short : n < 10 ^ width) (positive : 0 < width) (id : ℕ) : isExcess width id (xwanName width n) = decide (id ≤ n) := by
  rw [xwanName, isExcess_append, decide_eq_true (length_printf short positive), testGe_printf, Bool.true_and]

/-- No interface below the number is left out. -/
theorem isExcess_of_lt (width : ℕ) {id n : ℕ} (below : n < id) : isExcess width id (xwanName width n) = false := by
  rw [xwanName, isExcess_append, testGe_printf, decide_eq_false (not_le.mpr below), Bool.and_false]

theorem printf_ofDigitChars {width : ℕ} {num : Text} (length : num.length = width + 1) (digits : ∀ char ∈ num, char.isDigit = true) :
    printf (width + 1) (Nat.ofDigitChars 10 num 0) = num := by
  obtain ⟨small, same⟩ := Numerals.fixedDigits_ofDigitChars digits
  rw [length] at small same
  rw [printf, Numerals.leftpad_toDigits (by decide) width small, same]

/-- Other names are not left out. -/
theorem isExcess_of_other {width id : ℕ} {nw : Text} (name : IsName nw) (other : ∀ n, nw ≠ xwanName (width + 1) n) : isExcess (width + 1) id nw = false := by
  by_contra excess
  rw [isExcess, Bool.not_eq_false, Bool.and_eq_true, Bool.and_eq_true, decide_eq_true_eq, decide_eq_true_eq] at excess
  obtain ⟨⟨front, length⟩, number⟩ := excess
  have letters : ∀ char ∈ nw.drop 4, char.isAlphanum = true ∨ char = '_' := fun char inside => name.2 char (List.mem_of_mem_drop inside)
  have digits : (nw.drop 4).all Char.isDigit = true := by
    rw [testGe, testNumber] at number
    · split at number
      next all => exact all.2
      next => cases number
    · exact fun digits cons => absurd (letters '-' (cons ▸ .head _)) (by decide)
    · exact fun digits cons => absurd (letters '+' (cons ▸ .head _)) (by decide)
  refine other (Nat.ofDigitChars 10 (nw.drop 4) 0) ?_
  rw [xwanName, printf_ofDigitChars length (List.all_eq_true.mp digits), ← front, List.take_append_drop]

/-! ## The networks of the zone -/

section Zone

variable {glob : Text → List Text}

/-- A word that loops and `echo` leave as it is. -/
def IsPlain (glob : Text → List Text) (nw : Text) : Prop :=
  nw ≠ [] ∧ (∀ char ∈ nw, isBlank char = false) ∧ nw.head? ≠ some '-' ∧ glob nw = [nw]

theorem isPlain_of_isName (keeps : KeepsNames glob) {nw : Text} (name : IsName nw) : IsPlain glob nw := by
  refine ⟨name.1, isBlank_of_isName name, fun dash => ?_, keeps nw name⟩
  rcases name.2 '-' (List.mem_of_head? dash) with letter | line
  · cases letter
  · cases line

/-- Words that are written with blanks between them are read back. -/
theorem fields_intercalate {names : List Text} (all : ∀ name ∈ names, IsPlain glob name) : fields ([' '].intercalate names) = names := by
  rw [fields, words_join rfl]
  induction names with
  | nil => rfl
  | cons name names ih =>
      rw [List.forall_mem_cons] at all
      rw [List.flatMap_cons, ih all.2]
      exact congrArg (· ++ names) (fields_word all.1.2.1 all.1.1)

theorem flatMap_glob {names : List Text} (all : ∀ name ∈ names, IsPlain glob name) : names.flatMap glob = names := by
  induction names with
  | nil => rfl
  | cons name names ih =>
      rw [List.forall_mem_cons] at all
      rw [List.flatMap_cons, all.1.2.2.2, ih all.2, List.singleton_append]

/-- What is read of an option that prints as words with blanks between them. -/
theorem networks_of_printed {names : List Text} (all : ∀ name ∈ names, IsPlain glob name) {s : Section} {value : Uci.Value}
    (here : s.options.lookup "network" = some value) (printed : value.printed = [' '].intercalate names) : networks glob s = names := by
  rw [networks, Options.got, here, Option.map_some, Option.getD_some, Value.got, printed, fields_substitution, fields_intercalate all,
    flatMap_glob all]

theorem networks_of_missing {s : Section} (missing : s.options.lookup "network" = none) : networks glob s = [] := by
  rw [networks, Options.got, missing]
  rfl

/-- The zone with other networks. -/
def withNetworks (s : Section) (names : List Text) : Section :=
  { s with options := Keyed.remove "network" s.options ++ if names = [] then [] else [("network", .list names)] }

theorem cleanZoneWan_eq (width id : ℕ) (s : Section) :
    cleanZoneWan glob width id s = withNetworks s ((networks glob s).filter fun nw => !isExcess width id nw) := by
  rw [cleanZoneWan, withNetworks]
  split
  next empty =>
    rw [empty, List.append_nil]
    rfl
  next some => exact Section.addAll_missing (Keyed.lookup_remove_self ..) some

theorem networks_withNetworks {names : List Text} (all : ∀ name ∈ names, IsPlain glob name) (s : Section) :
    networks glob (withNetworks s names) = names := by
  have missing := Keyed.lookup_remove_self "network" s.options
  cases names with
  | nil =>
      refine networks_of_missing ?_
      rw [withNetworks, if_pos rfl, List.append_nil, missing]
  | cons name names => exact networks_of_printed all (Keyed.lookup_concat_of_missing missing) rfl

theorem withNetworks_withNetworks (s : Section) (names later : List Text) : withNetworks (withNetworks s names) later = withNetworks s later := by
  have removed : Keyed.remove "network" (withNetworks s names).options = Keyed.remove "network" s.options := by
    rw [withNetworks]
    split
    · rw [List.append_nil, Keyed.remove_remove]
    · rw [← Keyed.put_of_missing (Keyed.lookup_remove_self ..), Keyed.remove_put, Keyed.remove_remove]
  rw [withNetworks, removed]
  rfl

theorem withNetworks_addToZoneWan (intf : Text) (s : Section) (names : List Text) : withNetworks (addToZoneWan glob intf s) names = withNetworks s names := by
  rw [addToZoneWan]
  split
  · rfl
  · rw [withNetworks, Section.set]
    split
    · rw [Keyed.remove_remove]
      rfl
    · rw [Keyed.remove_put]
      rfl

theorem withNetworks_foldl (intfs : List Text) (s : Section) (nws : List Text) :
    withNetworks (intfs.foldl (fun s intf => addToZoneWan glob intf s) s) nws = withNetworks s nws := by
  induction intfs generalizing s with
  | nil => rfl
  | cons intf intfs ih => exact (ih _).trans (withNetworks_addToZoneWan ..)

theorem networks_addToZoneWan {intf : Text} (name : IsPlain glob intf) {s : Section} (all : ∀ nw ∈ networks glob s, IsPlain glob nw) :
    networks glob (addToZoneWan glob intf s) = if intf ∈ networks glob s then networks glob s else networks glob s ++ [intf] := by
  have more : ∀ nw ∈ networks glob s ++ [intf], IsPlain glob nw := List.forall_mem_append.mpr ⟨all, List.forall_mem_singleton.mpr name⟩
  have text : [' '].intercalate (networks glob s ++ [intf]) ≠ [] := by
    intro empty
    have read := fields_intercalate more
    rw [empty] at read
    exact List.append_ne_nil_of_right_ne_nil _ (List.cons_ne_nil intf []) read.symm
  rw [addToZoneWan]
  split
  · rfl
  · have here : (s.set "network" ([' '].intercalate (networks glob s ++ [intf]))).options.lookup "network" =
        some (.option ([' '].intercalate (networks glob s ++ [intf]))) := by rw [Section.set, if_neg text, Keyed.lookup_put_self]
    exact networks_of_printed more here rfl

/-- Interfaces that are not there yet are added to the networks. -/
def withInterfaces (intfs networks : List Text) : List Text := intfs.foldl (fun nws intf => if intf ∈ nws then nws else nws ++ [intf]) networks

theorem mem_withInterfaces {intfs nws : List Text} {nw : Text} : nw ∈ withInterfaces intfs nws ↔ nw ∈ nws ∨ nw ∈ intfs := by
  induction intfs generalizing nws with
  | nil => simp [withInterfaces]
  | cons intf rest ih =>
      rw [withInterfaces, List.foldl_cons, ← withInterfaces, ih, List.mem_cons]
      split
      next known => exact ⟨fun either => either.imp_right .inr, fun either => either.elim .inl fun more => more.elim (fun same => .inl (same ▸ known)) .inr⟩
      next => rw [List.mem_append, List.mem_singleton, or_assoc]

theorem withInterfaces_of_mem {intfs nws : List Text} (all : ∀ intf ∈ intfs, intf ∈ nws) : withInterfaces intfs nws = nws := by
  induction intfs with
  | nil => rfl
  | cons intf rest ih =>
      rw [List.forall_mem_cons] at all
      rw [withInterfaces, List.foldl_cons, if_pos all.1, ← withInterfaces, ih all.2]

theorem networks_foldl {intfs : List Text} (names : ∀ intf ∈ intfs, IsPlain glob intf) {s : Section} (plain : ∀ nw ∈ networks glob s, IsPlain glob nw) :
    networks glob (intfs.foldl (fun s intf => addToZoneWan glob intf s) s) = withInterfaces intfs (networks glob s) := by
  induction intfs generalizing s with
  | nil => rfl
  | cons intf rest ih =>
      rw [List.forall_mem_cons] at names
      have first := @networks_addToZoneWan glob intf names.1 s plain
      have later : ∀ nw ∈ networks glob (addToZoneWan glob intf s), IsPlain glob nw := by
        intro nw member
        rw [first] at member
        split at member
        · exact plain nw member
        · rcases List.mem_append.mp member with known | new
          · exact plain nw known
          · exact List.mem_singleton.mp new ▸ names.1
      rw [List.foldl_cons, ih names.2 later, first]
      rfl

theorem isWanZone_of_lookup {s other : Section} (type : other.type = s.type) (name : other.options.lookup "name" = s.options.lookup "name") :
    isWanZone other = isWanZone s := by
  rw [isWanZone, isWanZone, type, Options.got, Options.got, name]

/-- The zone stays the one that is looked for. -/
theorem isWanZone_addToZoneWan (intf : Text) (s : Section) : isWanZone (addToZoneWan glob intf s) = isWanZone s := by
  rw [addToZoneWan]
  split
  · rfl
  · exact isWanZone_of_lookup (Section.set_type ..) (Section.lookup_set_of_ne (by decide) _)

theorem isWanZone_foldl (intfs : List Text) (s : Section) : isWanZone (intfs.foldl (fun s intf => addToZoneWan glob intf s) s) = isWanZone s := by
  induction intfs generalizing s with
  | nil => rfl
  | cons intf rest ih => exact (ih _).trans (isWanZone_addToZoneWan ..)

theorem isWanZone_withNetworks (s : Section) (names : List Text) : isWanZone (withNetworks s names) = isWanZone s := by
  refine isWanZone_of_lookup rfl ?_
  have kept : (Keyed.remove "network" s.options).lookup "name" = s.options.lookup "name" := Keyed.lookup_remove_of_ne _ (by decide)
  rw [withNetworks, List.lookup_append, kept]
  split
  · exact Option.or_none
  · exact Option.or_none

end Zone

end XWrt.Xwan
