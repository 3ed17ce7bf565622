import XWrt.Foundation.Keyed
import XWrt.Foundation.Shell

/-!
# UCI

A configuration is a list of sections with a type and options, saved in a file.
Changes are kept apart until they are committed; `uci get` sees both. An option
has one value or a list of values, and `uci get` prints them alike.
-/

namespace XWrt.Foundation.Uci

open Shell
open Keyed

abbrev Text := List Char

/-- `option name 'text'`, or `list name 'item'` for every item -/
inductive Value where
  | option (text : Text)
  | list (items : List Text)
  deriving DecidableEq, Repr

/-- What `uci get` prints in front of the newline. -/
def Value.printed : Value → Text
  | .option text => text
  | .list items => [' '].intercalate items

/-- `$(uci get …)` -/
def Value.got (value : Value) : Text := substitution value.printed

/-- The type of a section has no line breaks. -/
@[ext]
structure SectionType where
  text : Text
  line : '\n' ∉ text
  deriving DecidableEq

abbrev Options := List (String × Value)

structure Section where
  type : SectionType
  options : Options
  deriving DecidableEq

/-- The sections by their names, in the order of the file. -/
abbrev Config := List (String × Section)

/-- `$(uci -q get …)` of an option, which is empty where there is none -/
def Options.got (options : Options) (option : String) : Text := ((options.lookup option).map Value.got).getD []

namespace Config

/-- `$(uci -q get package.section)` -/
def gotType (config : Config) (name : String) : Text := ((config.lookup name).map fun s => substitution s.type.text).getD []

def options (config : Config) (name : String) : Options := ((config.lookup name).map Section.options).getD []

end Config

/-- `uci set` and `uci delete`, of a section or an option. -/
inductive Change where
  | setType (name : String) (type : SectionType)
  | setOption (name option : String) (text : Text)
  | deleteSection (name : String)
  | deleteOption (name option : String)
  deriving DecidableEq

namespace Change

/-- An option is set or deleted in a section that is there; what is deleted is there. -/
def possible (config : Config) : Change → Bool
  | .setType _ _ => true
  | .setOption name _ _ => (config.lookup name).isSome
  | .deleteSection name => (config.lookup name).isSome
  | .deleteOption name option => ((config.options name).lookup option).isSome

/-- The configuration with the change; an impossible one changes nothing. -/
def apply (config : Config) : Change → Config
  | .setType name type => put name ⟨type, config.options name⟩ config
  | .setOption name option text =>
      match config.lookup name with
      | some s => put name { s with options := put option (.option text) s.options } config
      | none => config
  | .deleteSection name => remove name config
  | .deleteOption name option =>
      match config.lookup name with
      | some s => put name { s with options := remove option s.options } config
      | none => config

/-- The line of `uci changes`. -/
def line (package : Text) : Change → Text
  | .setType name type => package ++ '.' :: name.toList ++ "='".toList ++ type.text ++ ['\'']
  | .setOption name option text => package ++ '.' :: name.toList ++ '.' :: option.toList ++ "='".toList ++ text ++ ['\'']
  | .deleteSection name => '-' :: package ++ '.' :: name.toList
  | .deleteOption name option => '-' :: package ++ '.' :: name.toList ++ '.' :: option.toList

end Change

/-- The file of a package and the changes that are not committed. -/
structure Store where
  saved : Config
  pending : List Change
  deriving DecidableEq

namespace Store

/-- What `uci get` reads. -/
def current (store : Store) : Config := store.pending.foldl Change.apply store.saved

/-- `uci set` or `uci delete`, and whether it succeeds -/
def change (store : Store) (fails : Bool) (change : Change) : Store × Bool :=
  if fails ∨ ¬change.possible store.current then (store, false)
  else ({ store with pending := store.pending ++ [change] }, true)

/-- `uci commit`, and whether it succeeds -/
def commit (store : Store) (fails : Bool) : Store × Bool :=
  if fails then (store, false) else (⟨store.current, []⟩, true)

end Store

/-! ## Reading -/

@[simp]
theorem Value.got_option {text : Text} (last : text.getLast? ≠ some '\n') : (Value.option text).got = text :=
  substitution_eq_self last

theorem substitution_type (type : SectionType) : substitution type.text = type.text := by
  refine substitution_eq_self fun last => type.line ?_
  exact List.mem_of_getLast? last

theorem options_of_lookup {config : Config} {name : String} {s : Section} (here : config.lookup name = some s) :
    config.options name = s.options := by
  rw [Config.options, here]
  rfl

/-! ## Changing -/

section Apply

variable {config : Config} {name option : String}

theorem apply_setOption {text : Text} {s : Section} (here : config.lookup name = some s) :
    Change.apply config (.setOption name option text) = put name { s with options := put option (.option text) s.options } config := by
  rw [Change.apply, here]

theorem apply_deleteOption {s : Section} (here : config.lookup name = some s) :
    Change.apply config (.deleteOption name option) = put name { s with options := remove option s.options } config := by
  rw [Change.apply, here]

end Apply

namespace Store

variable {store : Store} {fails : Bool}

theorem current_change {change : Change} (possible : (store.change fails change).2 = true) :
    (store.change fails change).1.current = change.apply store.current := by
  rw [Store.change] at possible ⊢
  split at possible
  next => cases possible
  next succeeds =>
    rw [if_neg succeeds, current, List.foldl_append]
    rfl

theorem change_failed {change : Change} (failed : (store.change fails change).2 = false) : (store.change fails change).1 = store := by
  rw [Store.change] at failed ⊢
  split at failed
  next fault => rw [if_pos fault]
  next => cases failed

theorem current_of_nothing (nothing : store.pending = []) : store.current = store.saved := by
  rw [current, nothing]
  rfl

end Store

end XWrt.Foundation.Uci
