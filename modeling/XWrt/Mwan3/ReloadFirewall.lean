import Mathlib.Data.List.Nodup
import XWrt.Foundation.Uci

/-!
# The firewall include

`uci-defaults/mwan3-reload-firewall`: what the script sets and deletes depends
on what `uci get` prints, saved or pending, and it commits when a pending change
is its own. A run stops at the first step that fails; the next run goes on from
there. `uci get` prints a list of one item like the item, so an option that is
such a list is taken for the value that is wanted.
-/

namespace XWrt.Mwan3

open XWrt.Foundation
open Uci Keyed Shell

/-! ## The script -/

/-- The change would make a difference, as far as `uci get` shows. -/
def needed (config : Config) : Change → Bool
  | .setType name type => config.gotType name ≠ type.text
  | .setOption name option text => (config.options name).got option ≠ text
  | .deleteSection name => (config.lookup name).isSome
  | .deleteOption name option => ((config.options name).lookup option).isSome

/-- What the script calls `uci` for, besides `get` and `changes`. -/
inductive UciCall where
  | change (change : Change)
  | commit
  deriving DecidableEq

/-- What a step did to the store, whether it succeeded, and its calls of `uci`. -/
structure Step where
  store : Store
  ok : Bool
  calls : List UciCall

/-- `set_firewall_option` and `delete_firewall_option`; `fails` says that the `uci -q set` or `uci -q delete` does. -/
def firewallOption (fails : Bool) (change : Change) (store : Store) : Step :=
  if needed store.current change then
    let (store, ok) := store.change fails change
    ⟨store, ok, [.change change]⟩
  else ⟨store, true, []⟩

def includeType : SectionType := ⟨"include".toList, by decide⟩

/-- The options of the section `mwan3` with their values, in the order of the script; `none` where the option is deleted. -/
def wanted (fw4 : Bool) : List (String × Option Text) :=
  [("type", some "script".toList), ("path", some "/usr/share/mwan3/mwan3-reload.sh".toList), ("enabled", some "1".toList)] ++
    if fw4 then [("fw4_compatible", some "1".toList), ("reload", none)] else [("reload", some "0".toList), ("fw4_compatible", none)]

def wantedChange : String × Option Text → Change
  | (option, some text) => .setOption "mwan3" option text
  | (option, none) => .deleteOption "mwan3" option

/-- The calls of `set_firewall_option` and `delete_firewall_option`. -/
def registrations (fw4 : Bool) : List Change :=
  [.deleteSection "mwan3_ipv6_masq", .setType "mwan3" includeType] ++ (wanted fw4).map wantedChange

/-- `name([.=]|$)` -/
def namesSection (name line : List Char) : Bool :=
  name <+: line && (line.drop name.length).head?.all fun char => char == '.' || char == '='

/-- `^-?firewall\.(mwan3([.=]|$)|mwan3_ipv6_masq([.=]|$))` -/
def ownLine (line : List Char) : Bool :=
  let line := if line.head? = some '-' then line.tail else line
  let start := "firewall.".toList
  start <+: line && (namesSection "mwan3".toList (line.drop start.length) ||
    namesSection "mwan3_ipv6_masq".toList (line.drop start.length))

/-- One run: the version of the firewall, and which steps fail. -/
structure FirewallRun where
  fw4 : Bool
  /-- the `uci set` or `uci delete` with this number, if it is called -/
  fails : ℕ → Bool
  changesFails : Bool
  commitFails : Bool

/-- The script from a call on. -/
def registerFrom (fails : ℕ → Bool) : ℕ → List Change → Store → Step
  | _, [], store => ⟨store, true, []⟩
  | n, change :: rest, store =>
      let first := firewallOption (fails n) change store
      if first.ok then
        let last := registerFrom fails (n + 1) rest first.store
        ⟨last.store, last.ok, first.calls ++ last.calls⟩
      else first

/-- The end of the script. -/
def commitOwn (run : FirewallRun) (store : Store) : Step :=
  if run.changesFails then ⟨store, false, []⟩
  else if store.pending.any fun change => ownLine (change.line "firewall".toList) then
    ⟨(store.commit run.commitFails).1, (store.commit run.commitFails).2, [.commit]⟩
  else ⟨store, true, []⟩

/-- The script. -/
def mwan3ReloadFirewall (run : FirewallRun) (store : Store) : Step :=
  let first := registerFrom run.fails 0 (registrations run.fw4) store
  if first.ok then
    let last := commitOwn run first.store
    ⟨last.store, last.ok, first.calls ++ last.calls⟩
  else first

/-- One run after another, from a saved configuration without pending changes. -/
def afterRuns (saved : Config) (runs : List FirewallRun) : Store :=
  runs.foldl (fun store run => (mwan3ReloadFirewall run store).store) ⟨saved, []⟩

/-! ## What is meant -/

/-- The options of the section `mwan3` that the script has nothing to do with. -/
def foreignOption (option : String) : Bool := option ∉ ["type", "path", "enabled", "fw4_compatible", "reload"]

def foreignSection (name : String) : Bool := name ∉ ["mwan3", "mwan3_ipv6_masq"]

/-- Every other section and option, in order. -/
def foreign (config : Config) : Config × Options :=
  (config.filter fun entry => foreignSection entry.1, (config.options "mwan3").filter fun entry => foreignOption entry.1)

/-- The include is there with the options for this version, the old section is not, and the rest is as it was. -/
structure Registered (fw4 : Bool) (original config : Config) : Prop where
  noMasq : config.lookup "mwan3_ipv6_masq" = none
  type : (config.lookup "mwan3").map Section.type = some includeType
  options : ∀ entry ∈ wanted fw4, (config.options "mwan3").lookup entry.1 = entry.2.map Value.option
  others : foreign config = foreign original

/-- An option that `uci get` prints like the value that is wanted, and that is something else. -/
def Disguised (fw4 : Bool) (config : Config) : Prop :=
  ∃ option text value, (option, some text) ∈ wanted fw4 ∧ (config.options "mwan3").lookup option = some value ∧
    value.got = text ∧ value ≠ .option text

/-! ## One step -/

/-- The configuration after a step that succeeds. -/
def settle (config : Config) (change : Change) : Config := if needed config change then change.apply config else config

/-- What a step or a run leaves: it got as far as some of the changes, all of them if it succeeds. -/
structure Advances (before : Store) (changes : List Change) (after : Step) : Prop where
  current : ∃ taken rest, changes = taken ++ rest ∧ after.store.current = taken.foldl settle before.current ∧
    (after.ok = true → rest = [])
  pending : ∀ change ∈ after.store.pending, change ∈ before.pending ∨ change ∈ changes

theorem firewallOption_advances (fails : Bool) (change : Change) (store : Store) :
    Advances store [change] (firewallOption fails change store) := by
  rw [firewallOption]
  split
  next useful =>
    cases ok : (store.change fails change).2 with
    | true =>
        refine ⟨⟨[change], [], rfl, ?_, fun _ => rfl⟩, ?_⟩
        · simp only [List.foldl_cons, List.foldl_nil, settle, if_pos useful]
          exact Store.current_change ok
        · simp only [Store.change] at ok ⊢
          split at ok
          next => cases ok
          next succeeds =>
            rw [if_neg succeeds]
            exact fun c member => List.mem_append.mp member
    | false =>
        have same := Store.change_failed ok
        refine ⟨⟨[], [change], rfl, ?_, fun succeeds => ?_⟩, ?_⟩
        · exact congrArg Store.current same
        · exact absurd (ok.symm.trans succeeds) (by decide)
        · intro c member
          exact .inl (same ▸ member)
  next useless =>
    refine ⟨⟨[change], [], rfl, ?_, fun _ => rfl⟩, fun c member => .inl member⟩
    simp only [List.foldl_cons, List.foldl_nil, settle, if_neg useless]

theorem registerFrom_advances (fails : ℕ → Bool) (n : ℕ) (changes : List Change) (store : Store) :
    Advances store changes (registerFrom fails n changes store) := by
  induction changes generalizing n store with
  | nil => exact ⟨⟨[], [], rfl, rfl, fun _ => rfl⟩, fun c member => .inl member⟩
  | cons change changes ih =>
      have first := firewallOption_advances (fails n) change store
      obtain ⟨taken, rest, split, current, whole⟩ := first.current
      rw [registerFrom]
      split
      next ok =>
        obtain ⟨taken', rest', split', current', whole'⟩ := (ih (n + 1) (firewallOption (fails n) change store).store).current
        rw [whole ok, List.append_nil] at split
        refine ⟨⟨change :: taken', rest', by rw [split', List.cons_append], ?_, whole'⟩, fun c member => ?_⟩
        · rw [← split] at current
          exact current'.trans (congrArg (taken'.foldl settle) current)
        · rcases (ih (n + 1) _).pending c member with early | late
          · rcases first.pending c early with before | here
            · exact .inl before
            · exact .inr (List.mem_cons.mpr (.inl (List.mem_singleton.mp here)))
          · exact .inr (List.mem_cons_of_mem _ late)
      next stopped =>
        refine ⟨⟨taken, rest ++ changes, ?_, current, fun ok => absurd ok stopped⟩, fun c member => ?_⟩
        · rw [← List.append_assoc, ← split, List.singleton_append]
        · exact (first.pending c member).imp_right fun here => List.mem_cons.mpr (.inl (List.mem_singleton.mp here))

/-! ## The section `mwan3` -/

/-- The options after the step for one of them. -/
def settleOption (options : Options) : String × Option Text → Options
  | (option, some text) => if options.got option ≠ text then put option (.option text) options else options
  | (option, none) => remove option options

/-- The value that an option has then. -/
def settledValue (old : Option Uci.Value) : Option Text → Option Uci.Value
  | some text => if (old.map Value.got).getD [] ≠ text then some (.option text) else old
  | none => none

theorem lookup_settleOption_self (options : Options) (option : String) (text : Option Text) :
    (settleOption options (option, text)).lookup option = settledValue (options.lookup option) text := by
  cases text with
  | none => exact lookup_remove_self option options
  | some text =>
      change (if options.got option ≠ text then _ else options).lookup option = if options.got option ≠ text then _ else _
      split
      next => exact lookup_put_self option _ options
      next => rfl

theorem lookup_settleOption_of_ne {options : Options} {entry : String × Option Text} {other : String} (apart : other ≠ entry.1) :
    (settleOption options entry).lookup other = options.lookup other := by
  obtain ⟨option, text⟩ := entry
  cases text with
  | none => exact lookup_remove_of_ne options apart
  | some text =>
      rw [settleOption]
      split
      next => exact lookup_put_of_ne _ options apart
      next => rfl

theorem filter_settleOption {options : Options} {entry : String × Option Text} {selects : String → Bool}
    (outside : selects entry.1 = false) :
    (settleOption options entry).filter (fun entry => selects entry.1) = options.filter fun entry => selects entry.1 := by
  obtain ⟨option, text⟩ := entry
  cases text with
  | none => exact filter_remove options outside
  | some text =>
      rw [settleOption]
      split
      next => exact filter_put outside
      next => rfl

/-- Every option has its value, from what it was before. -/
theorem lookup_foldl_settleOption {entries : List (String × Option Text)} (distinct : (entries.map Prod.fst).Nodup)
    (options : Options) {entry : String × Option Text} (listed : entry ∈ entries) :
    (entries.foldl settleOption options).lookup entry.1 = settledValue (options.lookup entry.1) entry.2 := by
  induction entries generalizing options with
  | nil => cases listed
  | cons first rest ih =>
      rw [List.map_cons, List.nodup_cons] at distinct
      rw [List.foldl_cons]
      rcases List.mem_cons.mp listed with rfl | later
      · have outside : ∀ (rest : List (String × Option Text)) (options : Options), entry.1 ∉ rest.map Prod.fst →
            (rest.foldl settleOption options).lookup entry.1 = options.lookup entry.1 := by
          intro rest
          induction rest with
          | nil => exact fun _ _ => rfl
          | cons second rest ih =>
              intro options absent
              rw [List.map_cons, List.mem_cons, not_or] at absent
              rw [List.foldl_cons, ih _ absent.2, lookup_settleOption_of_ne absent.1]
        rw [outside rest _ distinct.1, lookup_settleOption_self]
      · have apart : entry.1 ≠ first.1 := fun same => distinct.1 (same ▸ List.mem_map_of_mem later)
        rw [ih distinct.2 _ later, lookup_settleOption_of_ne apart]

section Settle

variable {config : Config}

theorem settle_wantedChange {s : Section} (here : config.lookup "mwan3" = some s) (entry : String × Option Text) :
    settle config (wantedChange entry) = put "mwan3" { s with options := settleOption s.options entry } config := by
  obtain ⟨option, text⟩ := entry
  have options := options_of_lookup here
  cases text with
  | none =>
      simp only [settle, wantedChange, needed, options, settleOption]
      cases found : s.options.lookup option with
      | none =>
          rw [Option.isSome_none, if_neg (by decide), remove_of_lookup found]
          exact (put_of_lookup here).symm
      | some value =>
          rw [Option.isSome_some, if_pos rfl]
          exact apply_deleteOption here
  | some text =>
      simp only [settle, wantedChange, needed, options, settleOption, decide_eq_true_eq]
      split
      next => exact apply_setOption here
      next => exact (put_of_lookup here).symm

theorem foldl_settle_wanted (entries : List (String × Option Text)) {s : Section} (here : config.lookup "mwan3" = some s) :
    (entries.map wantedChange).foldl settle config = put "mwan3" { s with options := entries.foldl settleOption s.options } config := by
  induction entries generalizing config s with
  | nil => exact (put_of_lookup here).symm
  | cons entry entries ih =>
      rw [List.map_cons, List.foldl_cons, settle_wantedChange here, ih (lookup_put_self "mwan3" _ config), put_put, List.foldl_cons]

/-- The section itself, with the options it had. -/
theorem settle_setType (config : Config) :
    (settle config (.setType "mwan3" includeType)).lookup "mwan3" = some ⟨includeType, config.options "mwan3"⟩ := by
  simp only [settle, needed, decide_eq_true_eq]
  split
  next => exact lookup_put_self "mwan3" _ config
  next already =>
    rw [not_not, Config.gotType] at already
    cases found : config.lookup "mwan3" with
    | none =>
        rw [found] at already
        exact absurd already (by decide)
    | some s =>
        rw [found, Option.map_some, Option.getD_some, substitution_type] at already
        have type : s.type = includeType := SectionType.ext already
        rw [options_of_lookup found, ← type]

theorem options_setType (config : Config) : (settle config (.setType "mwan3" includeType)).options "mwan3" = config.options "mwan3" :=
  options_of_lookup (settle_setType config)

theorem lookup_deleteSection_self (config : Config) (name : String) : (settle config (.deleteSection name)).lookup name = none := by
  rw [settle, needed]
  cases found : config.lookup name with
  | none => exact found
  | some s => exact lookup_remove_self name config

theorem lookup_deleteSection_of_ne {config : Config} {name other : String} (apart : other ≠ name) :
    (settle config (.deleteSection name)).lookup other = config.lookup other := by
  rw [settle]
  split
  next => exact lookup_remove_of_ne config apart
  next => rfl

theorem foreignOption_of_wanted {fw4 : Bool} {entry : String × Option Text} (listed : entry ∈ wanted fw4) : foreignOption entry.1 = false := by
  cases fw4 <;>
    · simp only [wanted, List.cons_append, List.nil_append, Bool.false_eq_true, if_true, if_false, List.mem_cons, List.not_mem_nil,
        or_false] at listed
      rcases listed with rfl | rfl | rfl | rfl | rfl <;> simp [foreignOption]

theorem foreignSection_own : foreignSection "mwan3" = false ∧ foreignSection "mwan3_ipv6_masq" = false := by simp [foreignSection]

/-- Nothing else changes. -/
theorem foreign_settle {fw4 : Bool} {change : Change} (own : change ∈ registrations fw4) (config : Config) :
    foreign (settle config change) = foreign config := by
  simp only [registrations, List.cons_append, List.nil_append, List.mem_cons, List.mem_map] at own
  rcases own with rfl | rfl | ⟨entry, listed, rfl⟩
  · have same : (settle config (.deleteSection "mwan3_ipv6_masq")).options "mwan3" = config.options "mwan3" := by
      rw [Config.options, lookup_deleteSection_of_ne (by decide)]
      rfl
    rw [foreign, foreign, same, settle]
    split
    next => exact congrArg₂ Prod.mk (filter_remove config foreignSection_own.2) rfl
    next => rfl
  · rw [foreign, foreign, options_setType, settle]
    split
    next => exact congrArg₂ Prod.mk (filter_put foreignSection_own.1) rfl
    next => rfl
  · cases found : config.lookup "mwan3" with
    | none =>
        have same : settle config (wantedChange entry) = config := by
          obtain ⟨option, _ | text⟩ := entry
          · rw [wantedChange, settle, if_neg]
            rw [needed, Config.options, found]
            exact Bool.false_ne_true
          · rw [wantedChange, settle, Change.apply, found]
            exact ite_self config
        rw [same]
    | some s =>
        rw [settle_wantedChange found, foreign, foreign, options_of_lookup (lookup_put_self "mwan3" _ config), options_of_lookup found]
        exact congrArg₂ Prod.mk (filter_put foreignSection_own.1) (filter_settleOption (foreignOption_of_wanted listed))

/-! ## The configuration after all changes -/

/-- The configuration after all changes of a version. -/
def settled (fw4 : Bool) (config : Config) : Config := (registrations fw4).foldl settle config

theorem lookup_settled (fw4 : Bool) (config : Config) :
    (settled fw4 config).lookup "mwan3" = some ⟨includeType, (wanted fw4).foldl settleOption (config.options "mwan3")⟩ ∧
      (settled fw4 config).lookup "mwan3_ipv6_masq" = none := by
  have before : (settle config (.deleteSection "mwan3_ipv6_masq")).options "mwan3" = config.options "mwan3" := by
    rw [Config.options, lookup_deleteSection_of_ne (by decide)]
    rfl
  have typed := settle_setType (settle config (.deleteSection "mwan3_ipv6_masq"))
  rw [before] at typed
  rw [settled, registrations, List.foldl_append, List.foldl_cons, List.foldl_cons, List.foldl_nil, foldl_settle_wanted (wanted fw4) typed]
  refine ⟨lookup_put_self "mwan3" _ _, ?_⟩
  rw [lookup_put_of_ne _ _ (by decide), settle]
  split
  next => rw [Change.apply, lookup_put_of_ne _ _ (by decide), lookup_deleteSection_self]
  next => exact lookup_deleteSection_self config _

theorem wanted_distinct : ∀ fw4, ((wanted fw4).map Prod.fst).Nodup := by decide

theorem lookup_settled_option {fw4 : Bool} {entry : String × Option Text} (listed : entry ∈ wanted fw4) (config : Config) :
    ((settled fw4 config).options "mwan3").lookup entry.1 = settledValue ((config.options "mwan3").lookup entry.1) entry.2 := by
  rw [options_of_lookup (lookup_settled fw4 config).1]
  exact lookup_foldl_settleOption (wanted_distinct fw4) _ listed

/-- No value that is wanted is empty or ends with a newline. -/
theorem wanted_text {fw4 : Bool} {option : String} {text : Text} (listed : (option, some text) ∈ wanted fw4) :
    text ≠ [] ∧ text.getLast? ≠ some '\n' := by
  have all : ∀ fw4, ∀ entry ∈ wanted fw4, ∀ text ∈ entry.2, text ≠ [] ∧ text.getLast? ≠ some '\n' := by decide
  exact all fw4 (option, some text) listed text rfl

/-- The value is the one that is wanted, unless another was taken for it. -/
theorem settledValue_eq_iff (old : Option Uci.Value) {text : Text} (filled : text ≠ []) :
    settledValue old (some text) = some (.option text) ↔ ∀ value, old = some value → value.got = text → value = .option text := by
  cases old with
  | none =>
      have other : ((none : Option Uci.Value).map Value.got).getD [] ≠ text := filled.symm
      rw [settledValue, if_pos other]
      simp
  | some value =>
      rw [settledValue, Option.map_some, Option.getD_some]
      split
      next other => simp [other]
      next same =>
        rw [not_not] at same
        simp [same]

/-- The options are those of the version, unless one is disguised. -/
theorem settled_options_iff (fw4 : Bool) (config : Config) :
    (∀ entry ∈ wanted fw4, ((settled fw4 config).options "mwan3").lookup entry.1 = entry.2.map Value.option) ↔
      ¬Disguised fw4 config := by
  constructor
  · rintro all ⟨option, text, value, listed, found, got, other⟩
    have settled := all (option, some text) listed
    rw [lookup_settled_option listed] at settled
    exact other ((settledValue_eq_iff _ (wanted_text listed).1).mp settled value found got)
  · rintro plain ⟨option, _ | text⟩ listed
    · exact lookup_settled_option listed config
    · rw [lookup_settled_option listed]
      refine (settledValue_eq_iff _ (wanted_text listed).1).mpr fun value found got => ?_
      by_contra other
      exact plain ⟨option, text, value, listed, found, got, other⟩

/-- Once they are made, no change of the version makes a difference any more. -/
theorem not_needed_settled {fw4 : Bool} {change : Change} (own : change ∈ registrations fw4) (config : Config) :
    needed (settled fw4 config) change = false := by
  have sections := lookup_settled fw4 config
  simp only [registrations, List.cons_append, List.nil_append, List.mem_cons, List.mem_map] at own
  rcases own with rfl | rfl | ⟨⟨option, text⟩, listed, rfl⟩
  · rw [needed, sections.2, Option.isSome_none]
  · rw [needed, Config.gotType, sections.1, Option.map_some, Option.getD_some, substitution_type]
    exact decide_eq_false (not_not_intro rfl)
  · have value := lookup_settled_option listed config
    cases text with
    | none =>
        rw [wantedChange, needed, value]
        rfl
    | some text =>
        rw [wantedChange, needed, Options.got, value, settledValue]
        refine decide_eq_false (not_not_intro ?_)
        split
        next => exact Value.got_option (wanted_text listed).2
        next same => exact not_not.mp same

/-- A step leaves an option as it is or gives it a value that it did not have. -/
theorem lookup_settle_option {fw4 : Bool} {change : Change} (own : change ∈ registrations fw4) (config : Config) (option : String) :
    ((settle config change).options "mwan3").lookup option = (config.options "mwan3").lookup option ∨
      ∃ text, (option, text) ∈ wanted fw4 ∧ ((settle config change).options "mwan3").lookup option = text.map Value.option ∧
        text ≠ some ((config.options "mwan3").got option) := by
  simp only [registrations, List.cons_append, List.nil_append, List.mem_cons, List.mem_map] at own
  rcases own with rfl | rfl | ⟨⟨name, text⟩, listed, rfl⟩
  · rw [Config.options, lookup_deleteSection_of_ne (by decide)]
    exact .inl rfl
  · rw [options_setType]
    exact .inl rfl
  · cases found : config.lookup "mwan3" with
    | none =>
        have same : settle config (wantedChange (name, text)) = config := by
          cases text with
          | none =>
              rw [wantedChange, settle, needed, Config.options, found]
              rfl
          | some text =>
              rw [wantedChange, settle, Change.apply, found]
              exact ite_self config
        rw [same]
        exact .inl rfl
    | some s =>
        rw [settle_wantedChange found, options_of_lookup (lookup_put_self "mwan3" _ config), options_of_lookup found]
        by_cases other : option = name
        · subst other
          rw [lookup_settleOption_self]
          cases text with
          | none => exact .inr ⟨none, listed, rfl, (Option.some_ne_none _).symm⟩
          | some text =>
              rw [settledValue]
              split
              next apart => exact .inr ⟨some text, listed, rfl, fun same => apart (Option.some.inj same).symm⟩
              next => exact .inl rfl
        · exact .inl (lookup_settleOption_of_ne other)

/-- No step disguises an option. -/
theorem disguised_of_settle {fw4 version : Bool} {change : Change} (own : change ∈ registrations version)
    (disguised : Disguised fw4 (settle config change)) : Disguised fw4 config := by
  obtain ⟨option, text, value, listed, found, got, other⟩ := disguised
  rcases lookup_settle_option own config option with same | ⟨_ | plain, wanted, new, -⟩
  · exact ⟨option, text, value, listed, same ▸ found, got, other⟩
  · rw [new] at found
    cases found
  · rw [new] at found
    cases found
    rw [Value.got_option (wanted_text wanted).2] at got
    exact absurd (congrArg Value.option got) other

/-- A step of the version leaves a disguise as it is. -/
theorem disguised_settle_iff {fw4 : Bool} {change : Change} (own : change ∈ registrations fw4) :
    Disguised fw4 (settle config change) ↔ Disguised fw4 config := by
  refine ⟨disguised_of_settle own, ?_⟩
  rintro ⟨option, text, value, listed, found, got, other⟩
  rcases lookup_settle_option own config option with same | ⟨plain, wanted, -, new⟩
  · exact ⟨option, text, value, listed, same.trans found, got, other⟩
  · have unique : plain = some text := by
      have inj := List.inj_on_of_nodup_map (wanted_distinct fw4) wanted listed rfl
      exact congrArg Prod.snd inj
    rw [unique, Options.got, found, Option.map_some, Option.getD_some, got] at new
    exact absurd rfl new

end Settle

/-! ## One run -/

/-- What holds of the store between runs. -/
structure Underway (original : Config) (store : Store) : Prop where
  others : foreign store.current = foreign original
  own : ∀ change ∈ store.pending, ∃ fw4, change ∈ registrations fw4

section Run

variable {original : Config} {store : Store}

theorem foreign_foldl_settle {fw4 : Bool} {changes : List Change} (own : ∀ change ∈ changes, change ∈ registrations fw4) (config : Config) :
    foreign (changes.foldl settle config) = foreign config := by
  induction changes generalizing config with
  | nil => rfl
  | cons change changes ih =>
      rw [List.forall_mem_cons] at own
      rw [List.foldl_cons, ih own.2, foreign_settle own.1]

theorem ownLine_of_registrations {fw4 : Bool} {change : Change} (own : change ∈ registrations fw4) :
    ownLine (change.line "firewall".toList) = true := by
  have all : ∀ fw4, ∀ change ∈ registrations fw4, ownLine (change.line "firewall".toList) = true := by decide
  exact all fw4 change own

theorem commitOwn_current (run : FirewallRun) (store : Store) : (commitOwn run store).store.current = store.current := by
  rw [commitOwn]
  split
  next => rfl
  next =>
    split
    next =>
      rw [Store.commit]
      split
      next => rfl
      next => exact Store.current_of_nothing rfl
    next => rfl

theorem commitOwn_pending (run : FirewallRun) {store : Store} {change : Change} (left : change ∈ (commitOwn run store).store.pending) :
    change ∈ store.pending := by
  rw [commitOwn] at left
  split at left
  next => exact left
  next =>
    split at left
    next =>
      rw [Store.commit] at left
      split at left
      next => exact left
      next => cases left
    next => exact left

/-- If the script succeeds, nothing of its own is pending afterwards. -/
theorem commitOwn_ok {run : FirewallRun} (own : ∀ change ∈ store.pending, ∃ fw4, change ∈ registrations fw4)
    (ok : (commitOwn run store).ok = true) : (commitOwn run store).store = ⟨store.current, []⟩ := by
  rw [commitOwn] at ok ⊢
  split at ok
  next => cases ok
  next reads =>
    rw [if_neg reads]
    split at ok
    next waiting =>
      rw [if_pos waiting]
      rw [Store.commit] at ok ⊢
      split at ok
      next => cases ok
      next commits => rw [if_neg commits]
    next nothing =>
      have empty : store.pending = [] := by
        refine List.eq_nil_iff_forall_not_mem.mpr fun change member => nothing ?_
        obtain ⟨fw4, mine⟩ := own change member
        exact List.any_eq_true.mpr ⟨change, member, ownLine_of_registrations mine⟩
      rw [if_neg nothing, Store.current_of_nothing empty, ← empty]

/-- How far a run gets. -/
theorem mwan3ReloadFirewall_current (run : FirewallRun) (store : Store) :
    ∃ taken, (∀ change ∈ taken, change ∈ registrations run.fw4) ∧
      (mwan3ReloadFirewall run store).store.current = List.foldl settle store.current taken := by
  obtain ⟨taken, rest, split, current, -⟩ := (registerFrom_advances run.fails 0 (registrations run.fw4) store).current
  refine ⟨taken, fun change member => split ▸ List.mem_append_left rest member, ?_⟩
  rw [mwan3ReloadFirewall]
  split
  next => exact (commitOwn_current run _).trans current
  next => exact current

theorem underway_run (underway : Underway original store) (run : FirewallRun) :
    Underway original (mwan3ReloadFirewall run store).store := by
  obtain ⟨taken, own, current⟩ := mwan3ReloadFirewall_current run store
  refine ⟨?_, fun change left => ?_⟩
  · rw [current, foreign_foldl_settle own, underway.others]
  · have registered : change ∈ (registerFrom run.fails 0 (registrations run.fw4) store).store.pending := by
      rw [mwan3ReloadFirewall] at left
      split at left
      next => exact commitOwn_pending run left
      next => exact left
    rcases (registerFrom_advances run.fails 0 (registrations run.fw4) store).pending change registered with early | mine
    · exact underway.own change early
    · exact ⟨run.fw4, mine⟩

/-- A run that succeeds leaves the configuration after all changes in the file. -/
theorem mwan3ReloadFirewall_ok {run : FirewallRun} (underway : Underway original store)
    (ok : (mwan3ReloadFirewall run store).ok = true) :
    (mwan3ReloadFirewall run store).store = ⟨settled run.fw4 store.current, []⟩ := by
  have advances := registerFrom_advances run.fails 0 (registrations run.fw4) store
  rw [mwan3ReloadFirewall] at ok ⊢
  split at ok
  next registered =>
    obtain ⟨taken, rest, split, current, whole⟩ := advances.current
    rw [whole registered, List.append_nil] at split
    rw [if_pos registered]
    rw [← split] at current
    refine (commitOwn_ok (fun change member => ?_) ok).trans ?_
    · rcases advances.pending change member with early | mine
      · exact underway.own change early
      · exact ⟨run.fw4, mine⟩
    · rw [current, settled]
  next stopped => exact absurd ok stopped

/-- A run that finds nothing to do calls nothing. -/
theorem registerFrom_idle (fails : ℕ → Bool) (n : ℕ) {changes : List Change} (idle : ∀ change ∈ changes, needed store.current change = false) :
    registerFrom fails n changes store = ⟨store, true, []⟩ := by
  induction changes generalizing n with
  | nil => rfl
  | cons change changes ih =>
      rw [List.forall_mem_cons] at idle
      have first : firewallOption (fails n) change store = ⟨store, true, []⟩ := by
        rw [firewallOption, idle.1]
        rfl
      rw [registerFrom, first]
      simp only [if_true, ih (n + 1) idle.2, List.nil_append]

theorem mwan3ReloadFirewall_idle {run : FirewallRun} {config : Config} (idle : ∀ change ∈ registrations run.fw4, needed config change = false) :
    (mwan3ReloadFirewall run ⟨config, []⟩).calls = [] ∧ (mwan3ReloadFirewall run ⟨config, []⟩).store = ⟨config, []⟩ := by
  have last : (commitOwn run ⟨config, []⟩).calls = [] ∧ (commitOwn run ⟨config, []⟩).store = ⟨config, []⟩ := by
    rw [commitOwn]
    split <;> exact ⟨rfl, rfl⟩
  rw [mwan3ReloadFirewall, registerFrom_idle run.fails 0 idle, if_pos rfl]
  exact last

end Run

/-! ## All runs -/

/-- What every run keeps holds after all of them. -/
theorem afterRuns_keeps {holds : Store → Prop} (saved : Config) (start : holds ⟨saved, []⟩)
    {runs : List FirewallRun} (keeps : ∀ run ∈ runs, ∀ store, holds store → holds (mwan3ReloadFirewall run store).store) :
    holds (afterRuns saved runs) := by
  rw [afterRuns]
  induction runs using List.reverseRecOn with
  | nil => exact start
  | append_singleton runs last ih =>
      rw [List.foldl_append]
      refine keeps last (by simp) _ (ih fun run member => ?_)
      exact keeps run (List.mem_append_left [last] member)

theorem registered_settled_iff {fw4 : Bool} {original config : Config} (others : foreign config = foreign original) :
    Registered fw4 original (settled fw4 config) ↔ ¬Disguised fw4 config := by
  have sections := lookup_settled fw4 config
  rw [← settled_options_iff fw4 config]
  refine ⟨fun registered => registered.options, fun options => ⟨sections.2, ?_, options, ?_⟩⟩
  · rw [sections.1, Option.map_some]
  · exact (foreign_foldl_settle (fun _ => id) config).trans others

theorem underway_afterRuns (saved : Config) (runs : List FirewallRun) : Underway saved (afterRuns saved runs) :=
  afterRuns_keeps saved ⟨rfl, fun _ member => absurd member List.not_mem_nil⟩ fun run _ _ underway => underway_run underway run

theorem disguised_of_foldl_settle {fw4 version : Bool} {changes : List Change} (own : ∀ change ∈ changes, change ∈ registrations version)
    {config : Config} (disguised : Disguised fw4 (changes.foldl settle config)) : Disguised fw4 config := by
  induction changes generalizing config with
  | nil => exact disguised
  | cons change changes ih =>
      rw [List.forall_mem_cons] at own
      exact disguised_of_settle own.1 (ih own.2 disguised)

theorem disguised_foldl_settle_iff {fw4 : Bool} {changes : List Change} (own : ∀ change ∈ changes, change ∈ registrations fw4)
    (config : Config) : Disguised fw4 (changes.foldl settle config) ↔ Disguised fw4 config := by
  induction changes generalizing config with
  | nil => rfl
  | cons change changes ih =>
      rw [List.forall_mem_cons] at own
      rw [List.foldl_cons, ih own.2, disguised_settle_iff own.1]

/-- Runs do not disguise anything. -/
theorem disguised_of_afterRuns {fw4 : Bool} {saved : Config} {runs : List FirewallRun}
    (disguised : Disguised fw4 (afterRuns saved runs).current) : Disguised fw4 saved := by
  have keeps : Disguised fw4 (afterRuns saved runs).current → Disguised fw4 saved := by
    refine @afterRuns_keeps (fun store => Disguised fw4 store.current → Disguised fw4 saved) saved id runs fun run _ store before => ?_
    obtain ⟨taken, own, current⟩ := mwan3ReloadFirewall_current run store
    rw [current]
    exact fun later => before (disguised_of_foldl_settle own later)
  exact keeps disguised

/-- Runs of the same version leave every disguise as it is. -/
theorem disguised_afterRuns_iff {fw4 : Bool} (saved : Config) {runs : List FirewallRun} (same : ∀ run ∈ runs, run.fw4 = fw4) :
    Disguised fw4 (afterRuns saved runs).current ↔ Disguised fw4 saved := by
  refine @afterRuns_keeps (fun store => Disguised fw4 store.current ↔ Disguised fw4 saved) saved Iff.rfl runs fun run member store before => ?_
  obtain ⟨taken, own, current⟩ := mwan3ReloadFirewall_current run store
  rw [current, ← before]
  exact disguised_foldl_settle_iff (same run member ▸ own) _

/-- When a run exits successfully, the include is registered if and only if no option was disguised before it, and a further run does
nothing. Earlier runs with the same version leave every disguise as it was in the file, and no run disguises anything. -/
theorem mwan3ReloadFirewall_registers_iff (saved : Config) (runs : List FirewallRun) (last : FirewallRun)
    (exits : (mwan3ReloadFirewall last (afterRuns saved runs)).ok = true) :
    (Registered last.fw4 saved (mwan3ReloadFirewall last (afterRuns saved runs)).store.saved ↔
        ¬Disguised last.fw4 (afterRuns saved runs).current) ∧
      ((∀ run ∈ runs, run.fw4 = last.fw4) →
        (Disguised last.fw4 (afterRuns saved runs).current ↔ Disguised last.fw4 saved)) ∧
      (Disguised last.fw4 (afterRuns saved runs).current → Disguised last.fw4 saved) ∧
      ∀ further : FirewallRun, further.fw4 = last.fw4 →
        (mwan3ReloadFirewall further (mwan3ReloadFirewall last (afterRuns saved runs)).store).calls = [] ∧
          (mwan3ReloadFirewall further (mwan3ReloadFirewall last (afterRuns saved runs)).store).store =
            (mwan3ReloadFirewall last (afterRuns saved runs)).store := by
  have underway := underway_afterRuns saved runs
  rw [mwan3ReloadFirewall_ok underway exits]
  dsimp only
  refine ⟨registered_settled_iff underway.others, disguised_afterRuns_iff saved, disguised_of_afterRuns, fun further same => ?_⟩
  refine mwan3ReloadFirewall_idle fun change own => ?_
  rw [same] at own
  exact not_needed_settled own (afterRuns saved runs).current

/-- A file with the old section; the commit of a first run fails. -/
def retriedFile : Config := [("mwan3_ipv6_masq", ⟨includeType, []⟩), ("mwan3", ⟨includeType, [("reload", .option "1".toList)]⟩)]

def failedCommit : FirewallRun := { fw4 := false, fails := fun _ => false, changesFails := false, commitFails := true }

def successfulRun : FirewallRun := { failedCommit with commitFails := false }

theorem mwan3ReloadFirewall_retry :
    (mwan3ReloadFirewall successfulRun (afterRuns retriedFile [failedCommit])).ok = true ∧
      (Registered false retriedFile (mwan3ReloadFirewall successfulRun (afterRuns retriedFile [failedCommit])).store.saved ↔
        ¬Disguised false (afterRuns retriedFile [failedCommit]).current) :=
  have exits : (mwan3ReloadFirewall successfulRun (afterRuns retriedFile [failedCommit])).ok = true := by decide +kernel
  ⟨exits, (mwan3ReloadFirewall_registers_iff retriedFile [failedCommit] successfulRun exits).1⟩

/-- The option `type` is a list of one item. -/
def listedType : Config := [("mwan3", ⟨includeType, [("type", .list ["script".toList])]⟩)]

/-- The run is successful and leaves the list. -/
theorem mwan3ReloadFirewall_leaves_list :
    (mwan3ReloadFirewall successfulRun (afterRuns listedType [])).ok = true ∧
      ¬Registered false listedType (mwan3ReloadFirewall successfulRun (afterRuns listedType [])).store.saved := by
  refine ⟨by decide +kernel, fun registered => ?_⟩
  have type := registered.options ("type", some "script".toList) (by decide +kernel)
  revert type
  decide +kernel

end XWrt.Mwan3
