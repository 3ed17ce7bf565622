import Mathlib.Data.List.AList
import Mathlib.Data.List.Infix
import XWrt.Mwan3.Policy

/-!
# Interface chains

`mwan3_create_iface_iptables` and `mwan3_delete_iface_iptables` of
`lib/mwan3/mwan3.sh`. Both decide what to do by looking for text in the output
of `iptables -S`, where the mask is printed from its value while the text they
look for holds the mask as it is spelled in the file `mmx_mask`.
-/

namespace XWrt.Mwan3

/-! ## Spellings of the mask -/

/-- The value of a digit in bases up to 16. -/
def digitValue (char : Char) : Option Nat :=
  if char.isDigit then some (char.toNat - '0'.toNat)
  else
    match char with
    | 'a' | 'A' => some 10
    | 'b' | 'B' => some 11
    | 'c' | 'C' => some 12
    | 'd' | 'D' => some 13
    | 'e' | 'E' => some 14
    | 'f' | 'F' => some 15
    | _ => none

/-- The number that digits of a base make. -/
def readDigits (base : Nat) (digits : List Char) : Option Nat :=
  if digits = [] then none
  else
    digits.foldlM (fun n char =>
      (digitValue char).bind fun digit => if digit < base then some (n * base + digit) else none) 0

/-- The value of a mask for shell arithmetic and for iptables: hexadecimal, octal or decimal. -/
def readMask (text : String) : Option Nat :=
  match text.toList with
  | first :: second :: digits =>
      if first = '0' then
        if second = 'x' ∨ second = 'X' then readDigits 16 digits
        else readDigits 8 (second :: digits)
      else readDigits 10 (first :: second :: digits)
  | digits => readDigits 10 digits

/-- The default of `globals.mmx_mask`. -/
theorem readMask_default : readMask "0x3F00" = some 0x3F00 := by decide

theorem defaultMask_lt : 0x3F00 < 2 ^ 32 := by decide

/-- One character of `tr 'A-F' 'a-f'`. -/
def lowerHex : Char → Char
  | 'A' => 'a'
  | 'B' => 'b'
  | 'C' => 'c'
  | 'D' => 'd'
  | 'E' => 'e'
  | 'F' => 'f'
  | char => char

/-- `tr 'A-F' 'a-f'` -/
def trHex (text : String) : String := String.ofList (text.toList.map lowerHex)

/-- `0x%x` -/
def printHex (n : Nat) : String := "0x" ++ String.ofList (Nat.toDigits 16 n)

/-- What `iptables -S` prints for `--mark 0x0/mask`; the mark extension leaves out a full
mask. -/
def printMatch (mask : Nat) : String := if mask = 2 ^ 32 - 1 then "0x0" else "0x0/" ++ printHex mask

/-- One more decimal digit. -/
theorem foldlM_digits_concat (text : List Char) {digit : Nat} (small : digit < 10) :
    (text ++ [digit.digitChar]).foldlM (fun n char =>
      (digitValue char).bind fun digit => if digit < 10 then some (n * 10 + digit) else none) 0 =
      (text.foldlM (fun n char =>
        (digitValue char).bind fun digit => if digit < 10 then some (n * 10 + digit) else none) 0).map
          (· * 10 + digit) := by
  have value : ∀ digit < 10, digitValue digit.digitChar = some digit := by decide
  rw [List.foldlM_append]
  simp only [List.foldlM_cons, List.foldlM_nil, value digit small, Option.bind_some, if_pos small]
  exact bind_pure_comp _ _

theorem digitValue_lowerHex (char : Char) : digitValue (lowerHex char) = digitValue char := by
  unfold lowerHex
  split <;> rfl

theorem readDigits_map_lowerHex (base : Nat) (digits : List Char) :
    readDigits base (digits.map lowerHex) = readDigits base digits := by
  simp only [readDigits, List.map_eq_nil_iff, List.foldlM_map, digitValue_lowerHex]

theorem lowerHex_eq_iff {char : Char} (other : Char) (outside : other ∉ "abcdefABCDEF".toList) :
    lowerHex char = other ↔ char = other := by
  unfold lowerHex
  split
  all_goals first
    | exact Iff.rfl
    | (constructor <;> rintro rfl <;> exact absurd (by decide) outside)

/-- The handlers compute with the value of the mask in the configuration. -/
theorem readMask_trHex (text : String) : readMask (trHex text) = readMask text := by
  have digits := readDigits_map_lowerHex
  unfold readMask trHex
  rw [String.toList_ofList]
  rcases text.toList with - | ⟨first, - | ⟨second, rest⟩⟩
  · rfl
  · exact digits 10 [first]
  · simp only [List.map_cons, lowerHex_eq_iff '0' (by decide), lowerHex_eq_iff 'x' (by decide),
      lowerHex_eq_iff 'X' (by decide)]
    split
    · split
      · exact digits 16 rest
      · exact digits 8 (second :: rest)
    · exact digits 10 (first :: second :: rest)

/-! ## The mangle table -/

/-- A rule of the chains below. -/
inductive IfaceRule where
  /-- `-m mark --mark 0x0/mask -j target` -/
  | jump (mask : Nat) (target : String)
  /-- `-i device -m mark --mark 0x0/mask -m comment --comment comment -j MARK --set-xmark value/mask` -/
  | mark (device : String) (mask : Nat) (comment : String) (value : Nat)
  deriving DecidableEq, Repr

/-- The chain `mwan3_ifaces_in` and the chains of the interfaces. The other chains of the
table are not touched, and none of the texts looked for below occurs in them. -/
abbrev IfaceChains := AList fun _ : String => List IfaceRule

/-- The lines of an update. -/
inductive IfaceCommand where
  | new (chain : String)
  | flush (chain : String)
  | append (chain : String) (rule : IfaceRule)
  | delete (chain : String) (rule : IfaceRule)
  | drop (chain : String)
  deriving DecidableEq, Repr

def IfaceRule.jumpsTo (target : String) : IfaceRule → Bool
  | .jump _ chain => chain = target
  | .mark .. => false

/-- Some rule jumps to the chain. -/
def referenced (chains : IfaceChains) (target : String) : Bool :=
  chains.entries.any fun entry => entry.2.any (IfaceRule.jumpsTo target)

/-- The target of a rule is there. -/
def IfaceRule.known (chains : IfaceChains) : IfaceRule → Bool
  | .jump _ target => target ∈ chains
  | .mark .. => true

def IfaceCommand.run (chains : IfaceChains) : IfaceCommand → Option IfaceChains
  | .new chain => if chain ∈ chains then none else some (chains.insert chain [])
  | .flush chain => (chains.lookup chain).map fun _ => chains.insert chain []
  | .append chain rule =>
      (chains.lookup chain).bind fun rules =>
        if rule.known chains then some (chains.insert chain (rules ++ [rule])) else none
  | .delete chain rule =>
      (chains.lookup chain).bind fun rules =>
        if rule ∈ rules then some (chains.insert chain (rules.erase rule)) else none
  | .drop chain =>
      (chains.lookup chain).bind fun rules =>
        if rules = [] ∧ ¬referenced chains chain then some (chains.erase chain) else none

/-- `iptables-restore`: all commands or, on an error, none. -/
def restoreChains (chains : IfaceChains) (update : List IfaceCommand) : IfaceChains :=
  (update.foldlM IfaceCommand.run chains).getD chains

/-! ## What `iptables -S` prints -/

/-- A printed line, as its words. -/
abbrev Line := List String

def IfaceRule.print (chain : String) : IfaceRule → Line
  | .jump mask target => ["-A", chain, "-m", "mark", "--mark", printMatch mask, "-j", target]
  | .mark device mask comment value =>
      ["-A", chain, "-i", device, "-m", "mark", "--mark", printMatch mask, "-m", "comment",
        "--comment", comment, "-j", "MARK", "--set-xmark", printHex value ++ "/" ++ printHex mask]

def IfaceChains.print (chains : IfaceChains) : List Line :=
  chains.entries.map (fun entry => ["-N", entry.1]) ++
    chains.entries.flatMap fun entry => entry.2.map (IfaceRule.print entry.1)

/-- The pattern `*words$'\n'*`. -/
def endsLine (words : Line) (current : List Line) : Bool := current.any words.isSuffixOf

/-- The pattern `*-N mwan3_ifaces_in*`. -/
def declaresIfacesIn (current : List Line) : Bool :=
  current.any fun line =>
    match line with
    | "-N" :: chain :: _ => "mwan3_ifaces_in".toList.isPrefixOf chain.toList
    | _ => false

/-- The pattern `*-A mwan3_ifaces_in *-j target$'\n'*`, whose second star may run over lines. -/
def reachesJump (target : String) (current : List Line) : Bool :=
  endsLine ["-j", target] (current.dropWhile fun line => !(["-A", "mwan3_ifaces_in"].isPrefixOf line))

/-! ## The functions -/

def ifacesIn : String := "mwan3_ifaces_in"

def ifaceChain (name : String) : String := "mwan3_iface_in_" ++ name

/-- The rule of an interface chain. -/
def Env.ifaceRule (env : Env) (name device : String) (id : Nat) : IfaceRule :=
  .mark device env.mask name (id2mask id env.mask)

/-- `mwan3_create_iface_iptables`; `text` is `$MMX_MASK`. -/
def createIfaceIptables (env : Env) (text name device : String) (family : Family)
    (chains : IfaceChains) : IfaceChains :=
  match env.ifaceId name with
  | none => chains
  | some id =>
      if family ∈ env.familyList name ∧ env.need family then
        let current := chains.print
        restoreChains chains
          ((if declaresIfacesIn current then [] else [.new ifacesIn]) ++
            [if endsLine ["-N", ifaceChain name] current then .flush (ifaceChain name)
              else .new (ifaceChain name),
              .append (ifaceChain name) (env.ifaceRule name device id)] ++
            if endsLine ["-A", ifacesIn, "-m", "mark", "--mark", "0x0/" ++ text, "-j", ifaceChain name]
                current then []
            else [.append ifacesIn (.jump env.mask (ifaceChain name))])
      else chains

/-- `mwan3_delete_iface_iptables` -/
def deleteIfaceIptables (env : Env) (name : String) (family : Family) (chains : IfaceChains) :
    IfaceChains :=
  if family ∈ env.familyList name ∧ env.need family then
    let current := chains.print
    restoreChains chains
      ((if reachesJump (ifaceChain name) current then
          [.delete ifacesIn (.jump env.mask (ifaceChain name))] else []) ++
        if endsLine ["-N", ifaceChain name] current then
          [.flush (ifaceChain name), .drop (ifaceChain name)]
        else [])
  else chains

/-! ## Reading the printed lines -/

section Printed

variable {chains : IfaceChains} {words : Line} {current : List Line}

theorem endsLine_iff : endsLine words current = true ↔ ∃ line ∈ current, words <:+ line := by
  simp [endsLine]

theorem mem_print {line : Line} :
    line ∈ chains.print ↔ (∃ chain ∈ chains, line = ["-N", chain]) ∨
      ∃ chain rules, chains.lookup chain = some rules ∧ ∃ rule ∈ rules, line = rule.print chain := by
  unfold IfaceChains.print
  rw [List.mem_append, List.mem_map, List.mem_flatMap]
  refine or_congr ⟨?_, ?_⟩ ⟨?_, ?_⟩
  · rintro ⟨⟨chain, rules⟩, member, rfl⟩
    exact ⟨chain, AList.lookup_isSome.mp (Option.isSome_of_mem (AList.mem_lookup_iff.mpr member)), rfl⟩
  · rintro ⟨chain, member, rfl⟩
    obtain ⟨rules, found⟩ := Option.isSome_iff_exists.mp (AList.lookup_isSome.mpr member)
    exact ⟨⟨chain, rules⟩, AList.mem_lookup_iff.mp found, rfl⟩
  · rintro ⟨⟨chain, rules⟩, member, inside⟩
    obtain ⟨rule, isRule, rfl⟩ := List.mem_map.mp inside
    exact ⟨chain, rules, AList.mem_lookup_iff.mpr member, rule, isRule, rfl⟩
  · rintro ⟨chain, rules, found, rule, isRule, rfl⟩
    exact ⟨⟨chain, rules⟩, AList.mem_lookup_iff.mp found, List.mem_map_of_mem isRule⟩

/-- The line `-N chain` is printed for the chains that are there. -/
theorem endsLine_declared (chain : String) :
    endsLine ["-N", chain] chains.print = true ↔ chain ∈ chains := by
  rw [endsLine_iff]
  constructor
  · rintro ⟨line, printed, suffix⟩
    rcases mem_print.mp printed with ⟨other, member, rfl⟩ | ⟨other, rules, -, rule, -, rfl⟩
    · simp [List.suffix_cons_iff] at suffix
      exact suffix ▸ member
    · cases rule <;> simp [IfaceRule.print, List.suffix_cons_iff] at suffix
  · intro member
    exact ⟨_, mem_print.mpr (Or.inl ⟨chain, member, rfl⟩), List.suffix_rfl⟩

/-- The line of a jump is printed with the mask as iptables spells it. -/
theorem endsLine_jump (text target : String) :
    endsLine ["-A", ifacesIn, "-m", "mark", "--mark", text, "-j", target] chains.print = true ↔
      ∃ rules, chains.lookup ifacesIn = some rules ∧
        ∃ mask, .jump mask target ∈ rules ∧ text = printMatch mask := by
  rw [endsLine_iff]
  constructor
  · rintro ⟨line, printed, suffix⟩
    rcases mem_print.mp printed with ⟨other, member, rfl⟩ | ⟨other, rules, found, rule, isRule, rfl⟩
    · simp [List.suffix_cons_iff] at suffix
    · cases rule with
      | jump mask target' =>
          simp [IfaceRule.print, List.suffix_cons_iff] at suffix
          obtain ⟨rfl, spelled, rfl⟩ := suffix
          exact ⟨rules, found, mask, isRule, spelled⟩
      | mark device mask comment value =>
          simp [IfaceRule.print, List.suffix_cons_iff] at suffix
  · rintro ⟨rules, found, mask, isRule, rfl⟩
    exact ⟨_, mem_print.mpr (Or.inr ⟨_, rules, found, _, isRule, rfl⟩), List.suffix_rfl⟩

theorem ifaceChain_ne (name : String) : ifaceChain name ≠ ifacesIn := by
  intro same
  have texts := congrArg String.toList same
  simp [ifaceChain, ifacesIn] at texts

theorem ifaceChain_injective : Function.Injective ifaceChain := by
  intro first second same
  have texts := congrArg String.toList same
  exact String.toList_inj.mp (by simpa [ifaceChain] using texts)

end Printed

/-! ## What the chains hold -/

/-- `mwan3_ifaces_in` holds the jumps to the chains of some interfaces, and the chain of an
interface is there with one rule or not at all. -/
structure Holds (mask : Nat) (chains : IfaceChains) (jumps : List String)
    (held : String → Option IfaceRule) : Prop where
  hook : chains.lookup ifacesIn = some (jumps.map fun name => .jump mask (ifaceChain name))
  chain : ∀ name, chains.lookup (ifaceChain name) = (held name).map fun rule => [rule]
  keys : ∀ chain ∈ chains, chain = ifacesIn ∨ ∃ name, chain = ifaceChain name
  marks : ∀ name, ∀ rule ∈ held name, ∀ target, rule.jumpsTo target = false

namespace Holds

variable {mask : Nat} {chains : IfaceChains} {jumps : List String}
  {held : String → Option IfaceRule} {name : String}

theorem mem_hook (holds : Holds mask chains jumps held) : ifacesIn ∈ chains :=
  AList.lookup_isSome.mp (by rw [holds.hook]; rfl)

theorem mem_chain (holds : Holds mask chains jumps held) :
    ifaceChain name ∈ chains ↔ (held name).isSome := by
  rw [← AList.lookup_isSome, holds.chain, Option.isSome_map]

theorem declaresIfacesIn (holds : Holds mask chains jumps held) :
    declaresIfacesIn chains.print = true := by
  refine List.any_eq_true.mpr ⟨["-N", ifacesIn], ?_, by decide⟩
  exact mem_print.mpr (Or.inl ⟨ifacesIn, holds.mem_hook, rfl⟩)

theorem jump_mem (holds : Holds mask chains jumps held) {rules : List IfaceRule}
    (found : chains.lookup ifacesIn = some rules) {mask' : Nat} :
    .jump mask' (ifaceChain name) ∈ rules ↔ mask' = mask ∧ name ∈ jumps := by
  obtain rfl := Option.some.inj (holds.hook.symm.trans found)
  rw [List.mem_map]
  constructor
  · rintro ⟨other, member, same⟩
    injection same with masks chains
    exact ⟨masks.symm, ifaceChain_injective chains ▸ member⟩
  · rintro ⟨rfl, member⟩
    exact ⟨name, member, rfl⟩

theorem endsLine_jump (holds : Holds mask chains jumps held) (text : String) :
    endsLine ["-A", ifacesIn, "-m", "mark", "--mark", text, "-j", ifaceChain name] chains.print =
      true ↔ name ∈ jumps ∧ text = printMatch mask := by
  rw [Mwan3.endsLine_jump]
  constructor
  · rintro ⟨rules, found, mask', member, rfl⟩
    obtain ⟨rfl, inside⟩ := (holds.jump_mem found).mp member
    exact ⟨inside, rfl⟩
  · rintro ⟨inside, rfl⟩
    exact ⟨_, holds.hook, mask, (holds.jump_mem holds.hook).mpr ⟨rfl, inside⟩, rfl⟩

/-- A rule that jumps to an interface chain stands in `mwan3_ifaces_in`. -/
theorem jumpsTo_mem (holds : Holds mask chains jumps held) {chain target : String}
    {rules : List IfaceRule} (found : chains.lookup chain = some rules) {rule : IfaceRule}
    (member : rule ∈ rules) (jumps' : rule.jumpsTo target = true) :
    chain = ifacesIn ∧ ∃ name ∈ jumps, target = ifaceChain name := by
  rcases holds.keys chain (AList.lookup_isSome.mp (by rw [found]; rfl)) with rfl | ⟨name, rfl⟩
  · obtain rfl := Option.some.inj (holds.hook.symm.trans found)
    obtain ⟨name, inside, rfl⟩ := List.mem_map.mp member
    exact ⟨rfl, name, inside, (of_decide_eq_true jumps').symm⟩
  · rw [holds.chain, Option.map_eq_some_iff] at found
    obtain ⟨only, isHeld, rfl⟩ := found
    obtain rfl := List.mem_singleton.mp member
    rw [holds.marks name _ isHeld target] at jumps'
    cases jumps'

theorem mem_dropWhile_of_not {α : Type*} {drop : α → Bool} {items : List α} {item : α}
    (member : item ∈ items) (kept : drop item = false) : item ∈ items.dropWhile drop := by
  induction items with
  | nil => cases member
  | cons first rest ih =>
      rw [List.dropWhile_cons]
      split
      · rename_i dropped
        rcases List.mem_cons.mp member with rfl | later
        · rw [kept] at dropped
          cases dropped
        · exact ih later
      · exact member

/-- The two-part pattern matches exactly when there is a jump to the chain. -/
theorem reachesJump_iff (holds : Holds mask chains jumps held) :
    reachesJump (ifaceChain name) chains.print = true ↔ name ∈ jumps := by
  unfold reachesJump
  rw [endsLine_iff]
  constructor
  · rintro ⟨line, printed, suffix⟩
    have printed := (List.dropWhile_suffix _).subset printed
    rcases mem_print.mp printed with ⟨other, member, rfl⟩ | ⟨other, rules, found, rule, isRule, rfl⟩
    · simp [List.suffix_cons_iff] at suffix
    · cases rule with
      | jump mask' target =>
          simp [IfaceRule.print, List.suffix_cons_iff] at suffix
          subst suffix
          obtain ⟨-, other, inside, same⟩ := holds.jumpsTo_mem found isRule (decide_eq_true rfl)
          exact ifaceChain_injective same ▸ inside
      | mark device mask' comment value =>
          simp [IfaceRule.print, List.suffix_cons_iff] at suffix
  · intro inside
    refine ⟨_, mem_dropWhile_of_not (mem_print.mpr (Or.inr ⟨ifacesIn, _, holds.hook, _,
      List.mem_map_of_mem inside, rfl⟩)) rfl, ?_⟩
    simp [IfaceRule.print, List.suffix_cons_iff]

/-- Setting the rule of an interface chain. -/
theorem setRule (holds : Holds mask chains jumps held) {rule : IfaceRule}
    (isMark : ∀ target, rule.jumpsTo target = false) :
    Holds mask (chains.insert (ifaceChain name) [rule]) jumps
      (Function.update held name (some rule)) where
  hook := by
    rw [AList.lookup_insert_ne (ifaceChain_ne name).symm]
    exact holds.hook
  chain other := by
    by_cases same : other = name
    · rw [same, AList.lookup_insert, Function.update_self]
      rfl
    · rw [AList.lookup_insert_ne (ifaceChain_injective.ne same), Function.update_of_ne same]
      exact holds.chain other
  keys chain member := by
    rcases (AList.mem_insert _).mp member with rfl | old
    · exact Or.inr ⟨name, rfl⟩
    · exact holds.keys chain old
  marks other only isHeld := by
    by_cases same : other = name
    · rw [same, Function.update_self] at isHeld
      exact Option.some.inj isHeld ▸ isMark
    · rw [Function.update_of_ne same] at isHeld
      exact holds.marks other only isHeld

/-- Writing `mwan3_ifaces_in` anew. -/
theorem setHook (holds : Holds mask chains jumps held) (jumps' : List String) :
    Holds mask (chains.insert ifacesIn (jumps'.map fun name => .jump mask (ifaceChain name))) jumps'
      held where
  hook := AList.lookup_insert _
  chain name := by
    rw [AList.lookup_insert_ne (ifaceChain_ne name)]
    exact holds.chain name
  keys chain member := by
    rcases (AList.mem_insert _).mp member with rfl | old
    · exact Or.inl rfl
    · exact holds.keys chain old
  marks := holds.marks

/-- Removing an interface chain. -/
theorem eraseRule (holds : Holds mask chains jumps held) :
    Holds mask (chains.erase (ifaceChain name)) jumps (Function.update held name none) where
  hook := by
    rw [AList.lookup_erase_ne (ifaceChain_ne name).symm]
    exact holds.hook
  chain other := by
    by_cases same : other = name
    · rw [same, AList.lookup_erase, Function.update_self]
      rfl
    · rw [AList.lookup_erase_ne (ifaceChain_injective.ne same), Function.update_of_ne same]
      exact holds.chain other
  keys chain member := holds.keys chain (AList.mem_erase.mp member).2
  marks other only isHeld := by
    by_cases same : other = name
    · rw [same, Function.update_self] at isHeld
      cases isHeld
    · rw [Function.update_of_ne same] at isHeld
      exact holds.marks other only isHeld

theorem map_jump_erase (jumps : List String) :
    (jumps.map fun name => IfaceRule.jump mask (ifaceChain name)).erase (.jump mask (ifaceChain name)) =
      (jumps.erase name).map fun name => .jump mask (ifaceChain name) := by
  have injective : Function.Injective fun name => IfaceRule.jump mask (ifaceChain name) :=
    fun first second same => ifaceChain_injective (IfaceRule.jump.inj same).2
  exact (List.map_erase injective jumps).symm

/-- After its jump is gone, the flushed chain can be dropped. -/
theorem not_referenced (holds : Holds mask chains jumps held) (gone : name ∉ jumps) :
    referenced (chains.insert (ifaceChain name) []) (ifaceChain name) = false := by
  rw [← Bool.not_eq_true]
  intro found
  obtain ⟨⟨chain, rules⟩, entry, inside⟩ := List.any_eq_true.mp found
  obtain ⟨rule, member, isJump⟩ := List.any_eq_true.mp inside
  have lookup := AList.mem_lookup_iff.mpr entry
  by_cases own : chain = ifaceChain name
  · subst own
    rw [AList.lookup_insert] at lookup
    obtain rfl := Option.some.inj lookup
    cases member
  · rw [AList.lookup_insert_ne own] at lookup
    obtain ⟨-, other, target, same⟩ := holds.jumpsTo_mem lookup member isJump
    exact gone (ifaceChain_injective same ▸ target)

end Holds

section Functions

variable {env : Env} {chains : IfaceChains} {jumps : List String} {held : String → Option IfaceRule}
  {name : String} {family : Family}

theorem erase_insert_self (chains : IfaceChains) (chain : String) (rules : List IfaceRule) :
    (chains.insert chain rules).erase chain = chains.erase chain := by
  apply AList.ext
  show List.kerase chain (AList.insert chain rules chains).entries = List.kerase chain chains.entries
  rw [AList.entries_insert]
  exact List.kerase_cons_eq rfl

/-- The first command leaves the chain of the interface empty, whether it was there or not. -/
theorem run_open (chains : IfaceChains) (chain : String) :
    (if endsLine ["-N", chain] chains.print then IfaceCommand.flush chain else .new chain).run
      chains = some (chains.insert chain []) := by
  by_cases present : chain ∈ chains
  · obtain ⟨rules, found⟩ := Option.isSome_iff_exists.mp (AList.lookup_isSome.mpr present)
    rw [if_pos ((endsLine_declared chain).mpr present), IfaceCommand.run, found]
    rfl
  · have absent : ¬endsLine ["-N", chain] chains.print = true :=
      fun printed => present ((endsLine_declared chain).mp printed)
    rw [if_neg absent, IfaceCommand.run, if_neg present]

/-- The update of `mwan3_create_iface_iptables` sets the rule of the interface, and adds a jump
unless it finds one that is printed as the mask is spelled. -/
theorem createIfaceIptables_holds (holds : Holds env.mask chains jumps held) {id : Nat}
    (found : env.ifaceId name = some id) (applies : family ∈ env.familyList name ∧ env.need family = true)
    (text device : String) :
    Holds env.mask (createIfaceIptables env text name device family chains)
      (if name ∈ jumps ∧ "0x0/" ++ text = printMatch env.mask then jumps else jumps ++ [name])
      (Function.update held name (some (env.ifaceRule name device id))) := by
  have marked : Holds env.mask (chains.insert (ifaceChain name) [env.ifaceRule name device id]) jumps
      (Function.update held name (some (env.ifaceRule name device id))) := holds.setRule fun _ => rfl
  have second : (IfaceCommand.append (ifaceChain name) (env.ifaceRule name device id)).run
      (chains.insert (ifaceChain name) []) =
        some (chains.insert (ifaceChain name) [env.ifaceRule name device id]) := by
    rw [IfaceCommand.run, AList.lookup_insert, Option.bind_some, AList.insert_insert]
    rfl
  unfold createIfaceIptables
  rw [found]
  simp only [if_pos applies, if_pos holds.declaresIfacesIn, List.nil_append, restoreChains,
    List.foldlM_append, List.foldlM_cons, List.foldlM_nil, run_open, Option.bind_eq_bind,
    Option.bind_some, second, pure, holds.endsLine_jump]
  split
  · exact marked
  · have third : (IfaceCommand.append ifacesIn (.jump env.mask (ifaceChain name))).run
        (chains.insert (ifaceChain name) [env.ifaceRule name device id]) =
          some ((chains.insert (ifaceChain name) [env.ifaceRule name device id]).insert ifacesIn
            ((jumps ++ [name]).map fun name => .jump env.mask (ifaceChain name))) := by
      have known : (IfaceRule.jump env.mask (ifaceChain name)).known
          (chains.insert (ifaceChain name) [env.ifaceRule name device id]) = true :=
        decide_eq_true ((AList.mem_insert _).mpr (Or.inl rfl))
      rw [IfaceCommand.run, marked.hook, Option.bind_some, if_pos known, List.map_append]
      rfl
    simp only [List.foldlM_cons, List.foldlM_nil, third]
    exact marked.setHook (jumps ++ [name])

/-- Where no interface jumps twice and every chain has its jump, the update of
`mwan3_delete_iface_iptables` removes both. -/
theorem deleteIfaceIptables_holds (holds : Holds env.mask chains jumps held)
    (applies : family ∈ env.familyList name ∧ env.need family = true) (once : jumps.Nodup)
    (paired : name ∈ jumps ↔ (held name).isSome) :
    Holds env.mask (deleteIfaceIptables env name family chains) (jumps.erase name)
      (Function.update held name none) := by
  unfold deleteIfaceIptables
  simp only [if_pos applies, holds.reachesJump_iff, endsLine_declared, holds.mem_chain, ← paired]
  by_cases inside : name ∈ jumps
  · have unhooked := holds.setHook (jumps.erase name)
    have first : (IfaceCommand.delete ifacesIn (.jump env.mask (ifaceChain name))).run chains =
        some (chains.insert ifacesIn
          ((jumps.erase name).map fun name => .jump env.mask (ifaceChain name))) := by
      have listed : .jump env.mask (ifaceChain name) ∈ jumps.map fun name => IfaceRule.jump env.mask (ifaceChain name) :=
        (holds.jump_mem holds.hook).mpr ⟨rfl, inside⟩
      rw [IfaceCommand.run, holds.hook, Option.bind_some, if_pos listed, Holds.map_jump_erase]
    generalize chains.insert ifacesIn _ = rest at unhooked first
    have second : (IfaceCommand.flush (ifaceChain name)).run rest =
        some (rest.insert (ifaceChain name) []) := by
      obtain ⟨rule, isHeld⟩ := Option.isSome_iff_exists.mp (paired.mp inside)
      rw [IfaceCommand.run, unhooked.chain, isHeld]
      rfl
    have third : (IfaceCommand.drop (ifaceChain name)).run (rest.insert (ifaceChain name) []) =
        some (rest.erase (ifaceChain name)) := by
      have free := unhooked.not_referenced (once.not_mem_erase)
      rw [IfaceCommand.run, AList.lookup_insert, Option.bind_some, free, erase_insert_self]
      rfl
    simp only [if_pos inside, restoreChains, List.cons_append, List.nil_append, List.foldlM_cons,
      List.foldlM_nil, first, second, third, Option.bind_eq_bind, Option.bind_some, pure]
    exact unhooked.eraseRule
  · have absent : held name = none := by
      rw [← Option.not_isSome_iff_eq_none, ← paired]
      exact inside
    rw [if_neg inside, if_neg inside, List.erase_of_not_mem inside]
    have same : Function.update held name none = held := by
      rw [← absent, Function.update_eq_self]
    rw [same]
    exact holds

end Functions

end XWrt.Mwan3
