import XWrt.Foundation.Uci

/-!
# Scripts of UCI commands

What `uci` commands leave in a configuration, saved or not. A section is built up
option by option, behind the others when it is new. Sections without a name are
found by their type, and by an option.
-/

namespace XWrt.Foundation.Uci

open Keyed

/-! ## One section -/

namespace Section

/-- `uci set`, which deletes the option for an empty text -/
def set (s : Section) (option : String) (text : Text) : Section :=
  { s with options := if text = [] then remove option s.options else put option (.option text) s.options }

/-- `uci delete` of an option -/
def delete (s : Section) (option : String) : Section := { s with options := remove option s.options }

/-- `uci add_list` -/
def addList (s : Section) (option : String) (item : Text) : Section :=
  match s.options.lookup option with
  | none => { s with options := put option (.list [item]) s.options }
  | some (.option text) => { s with options := put option (.list [text, item]) s.options }
  | some (.list items) => { s with options := put option (.list (items ++ [item])) s.options }

/-- `uci set`, one after the other -/
def setAll (s : Section) (entries : List (String × Text)) : Section := entries.foldl (fun s entry => s.set entry.1 entry.2) s

/-- `uci add_list`, one after the other -/
def addAll (s : Section) (option : String) (items : List Text) : Section := items.foldl (fun s item => s.addList option item) s

end Section

/-- The options that are there after `uci set` in a new section. -/
def stored (entries : List (String × Text)) : Options := (entries.filter fun entry => entry.2 ≠ []).map fun entry => (entry.1, .option entry.2)

/-! ## A configuration -/

namespace Config

variable (config : Config)

/-- `uci get package.name` succeeds. -/
def has (name : String) : Bool := (config.lookup name).isSome

/-- `uci set package.name=type` -/
def setType (name : String) (type : SectionType) : Config := Change.apply config (.setType name type)

/-- `uci delete package.name` -/
def deleteSection (name : String) : Config := remove name config

/-- Commands for the options of a section; they fail where there is no such section. -/
def edit (name : String) (change : Section → Section) : Config :=
  match config.lookup name with
  | some s => put name (change s) config
  | none => config

/-- `uci set package.name=type`, and commands for its options -/
def create (name : String) (type : SectionType) (change : Section → Section) : Config := (config.setType name type).edit name change

/-- `while uci delete package.@type[0]; do :; done` -/
def deleteType (type : SectionType) : Config := config.filter fun entry => entry.2.type ≠ type

/-- Commands for the first of the sections that are selected. -/
def editFirst (selects : Section → Bool) (change : Section → Section) : Config → Config
  | [] => []
  | (name, s) :: rest => if selects s then (name, change s) :: rest else (name, s) :: editFirst selects change rest

end Config

/-! ## Options -/

namespace Section

variable {s : Section}

theorem set_type (option : String) (text : Text) : (s.set option text).type = s.type := rfl

theorem addList_type (option : String) (item : Text) : (s.addList option item).type = s.type := by
  rw [addList]
  split
  · rfl
  · rfl
  · rfl

theorem setAll_type (entries : List (String × Text)) : (s.setAll entries).type = s.type := by
  induction entries generalizing s with
  | nil => rfl
  | cons entry rest ih => exact (@ih (s.set entry.1 entry.2)).trans (set_type ..)

theorem addAll_type (option : String) (items : List Text) : (s.addAll option items).type = s.type := by
  induction items generalizing s with
  | nil => rfl
  | cons item rest ih => exact (@ih (s.addList option item)).trans (addList_type ..)

/-- Commands for one option leave the others. -/
theorem lookup_set_of_ne {option other : String} (apart : other ≠ option) (text : Text) :
    (s.set option text).options.lookup other = s.options.lookup other := by
  rw [set]
  split
  · exact lookup_remove_of_ne _ apart
  · exact lookup_put_of_ne _ _ apart

theorem lookup_set_self (option : String) (text : Text) :
    (s.set option text).options.lookup option = if text = [] then none else some (.option text) := by
  rw [set]
  split
  · exact lookup_remove_self ..
  · exact lookup_put_self ..

theorem lookup_setAll_of_notMem {entries : List (String × Text)} {option : String} (outside : option ∉ entries.map Prod.fst) :
    (s.setAll entries).options.lookup option = s.options.lookup option := by
  induction entries generalizing s with
  | nil => rfl
  | cons entry rest ih =>
      rw [List.map_cons, List.mem_cons, not_or] at outside
      exact (@ih (s.set entry.1 entry.2) outside.2).trans (lookup_set_of_ne outside.1 _)

/-- What an option is set to does not depend on what it was. -/
theorem lookup_setAll_of_mem {entries : List (String × Text)} {option : String} (inside : option ∈ entries.map Prod.fst) (other : Section) :
    (s.setAll entries).options.lookup option = (other.setAll entries).options.lookup option := by
  induction entries generalizing s other with
  | nil => cases inside
  | cons entry rest ih =>
      by_cases later : option ∈ rest.map Prod.fst
      · exact @ih (s.set entry.1 entry.2) later (other.set entry.1 entry.2)
      · have here := (List.mem_cons.mp inside).resolve_right later
        have same : (s.set entry.1 entry.2).options.lookup option = (other.set entry.1 entry.2).options.lookup option := by
          rw [here, lookup_set_self, lookup_set_self]
        rw [setAll, setAll, List.foldl_cons, List.foldl_cons, ← setAll, ← setAll, lookup_setAll_of_notMem later, lookup_setAll_of_notMem later, same]

/-- Different options are set to their texts. -/
theorem lookup_setAll {entries : List (String × Text)} (distinct : (entries.map Prod.fst).Nodup) {option : String} {text : Text}
    (member : (option, text) ∈ entries) : (s.setAll entries).options.lookup option = if text = [] then none else some (.option text) := by
  induction entries generalizing s with
  | nil => cases member
  | cons entry rest ih =>
      rw [List.map_cons, List.nodup_cons] at distinct
      rcases List.mem_cons.mp member with rfl | later
      · exact (@lookup_setAll_of_notMem (s.set option text) rest option distinct.1).trans (lookup_set_self option text)
      · exact @ih (s.set entry.1 entry.2) distinct.2 later

/-- Items are added to a list. -/
theorem addAll_list {option : String} {front items : List Text} (here : s.options.lookup option = some (.list front)) :
    s.addAll option items = { s with options := put option (.list (front ++ items)) s.options } := by
  induction items generalizing s front with
  | nil => rw [addAll, List.foldl_nil, List.append_nil, put_of_lookup here]
  | cons item rest ih =>
      have first : s.addList option item = { s with options := put option (.list (front ++ [item])) s.options } := by rw [addList, here]
      rw [addAll, List.foldl_cons, first, ← addAll, ih (lookup_put_self ..)]
      rw [put_put, List.append_assoc, List.singleton_append]

/-- Items make a new list. -/
theorem addAll_missing {option : String} (missing : s.options.lookup option = none) {items : List Text} (some : items ≠ []) :
    s.addAll option items = { s with options := s.options ++ [(option, .list items)] } := by
  cases items with
  | nil => exact absurd rfl some
  | cons item rest =>
      have first : s.addList option item = { s with options := put option (.list [item]) s.options } := by rw [addList, missing]
      rw [addAll, List.foldl_cons, first, ← addAll, addAll_list (lookup_put_self ..)]
      simp only [put_put]
      rw [List.singleton_append, put_of_missing missing]

/-- Options that are not there are put behind the others, unless they are empty. -/
theorem setAll_missing {entries : List (String × Text)} (distinct : (entries.map Prod.fst).Nodup)
    (missing : ∀ entry ∈ entries, s.options.lookup entry.1 = none) : s.setAll entries = { s with options := s.options ++ stored entries } := by
  induction entries generalizing s with
  | nil => simp [setAll, stored]
  | cons entry rest ih =>
      obtain ⟨option, text⟩ := entry
      rw [List.map_cons, List.nodup_cons] at distinct
      rw [List.forall_mem_cons] at missing
      have apart : ∀ entry ∈ rest, entry.1 ≠ option := fun entry member same => distinct.1 (List.mem_map.mpr ⟨entry, member, same⟩)
      have later := @ih (s.set option text) distinct.2 fun entry member =>
        (lookup_set_of_ne (apart entry member) text).trans (missing.2 entry member)
      rw [setAll, List.foldl_cons, ← setAll, later, set, stored, stored]
      split
      next empty => rw [List.filter_cons_of_neg (by simp [empty]), remove_of_lookup missing.1]
      next some => rw [List.filter_cons_of_pos (by simpa using some), put_of_missing missing.1, List.map_cons, List.append_assoc, List.singleton_append]

/-- The options of a new section. -/
theorem setAll_new {entries : List (String × Text)} (distinct : (entries.map Prod.fst).Nodup) (type : SectionType) :
    setAll ⟨type, []⟩ entries = ⟨type, stored entries⟩ := setAll_missing distinct fun _ _ => rfl

end Section

/-! ## Sections -/

namespace Config

variable {config : Config} {name : String}

theorem setType_of_missing (missing : config.lookup name = none) (type : SectionType) : config.setType name type = config ++ [(name, ⟨type, []⟩)] := by
  rw [setType, Change.apply, put_of_missing missing, options, missing]
  rfl

theorem edit_put (s : Section) (change : Section → Section) : edit (put name s config) name change = put name (change s) config := by
  rw [edit, lookup_put_self]
  exact put_put ..

/-- The section at the end is the one that was put there. -/
theorem edit_concat (missing : config.lookup name = none) (s : Section) (change : Section → Section) :
    edit (config ++ [(name, s)]) name change = config ++ [(name, change s)] := by
  rw [← put_of_missing missing, edit_put, put_of_missing missing]

/-- The section takes the place of the one of its name. -/
theorem create_eq_put (type : SectionType) (change : Section → Section) :
    config.create name type change = put name (change ⟨type, config.options name⟩) config := edit_put ..

theorem create_of_missing (missing : config.lookup name = none) (type : SectionType) (change : Section → Section) :
    config.create name type change = config ++ [(name, change ⟨type, []⟩)] := by
  rw [create, setType_of_missing missing, edit_concat missing]

/-- New sections are put behind the others, one after the other. -/
theorem foldl_create_of_missing {news : List (String × SectionType × (Section → Section))} (distinct : (news.map Prod.fst).Nodup)
    (missing : ∀ new ∈ news, config.lookup new.1 = none) :
    news.foldl (fun config new => config.create new.1 new.2.1 new.2.2) config =
      config ++ news.map fun new => (new.1, new.2.2 ⟨new.2.1, []⟩) := by
  induction news generalizing config with
  | nil => exact (List.append_nil config).symm
  | cons new rest ih =>
      rw [List.map_cons, List.nodup_cons] at distinct
      rw [List.forall_mem_cons] at missing
      rw [List.foldl_cons, create_of_missing missing.1, ih distinct.2, List.map_cons, List.append_assoc, List.singleton_append]
      exact fun later member => lookup_concat_of_ne (missing.2 later member) fun same => distinct.1 (List.mem_map.mpr ⟨later, member, same⟩)

theorem lookup_edit_of_ne {other : String} (apart : other ≠ name) (change : Section → Section) :
    (config.edit name change).lookup other = config.lookup other := by
  rw [edit]
  split
  · exact lookup_put_of_ne _ _ apart
  · rfl

theorem lookup_edit_self (change : Section → Section) : (config.edit name change).lookup name = (config.lookup name).map change := by
  rw [edit]
  split
  next s here => rw [lookup_put_self, here, Option.map_some]
  next missing => rw [missing, Option.map_none]

theorem lookup_edit_of_lookup {s : Section} (here : config.lookup name = some s) (change : Section → Section) :
    (config.edit name change).lookup name = some (change s) := by
  rw [lookup_edit_self, here, Option.map_some]

theorem has_eq_false_iff : config.has name = false ↔ config.lookup name = none := by
  rw [has, Option.isSome_eq_false_iff, Option.isNone_iff_eq_none]

theorem lookup_setType_of_ne {other : String} (apart : other ≠ name) (type : SectionType) :
    (config.setType name type).lookup other = config.lookup other := lookup_put_of_ne _ _ apart

theorem lookup_setType_self (type : SectionType) : (config.setType name type).lookup name = some ⟨type, config.options name⟩ := lookup_put_self ..

theorem lookup_create_of_ne {other : String} (apart : other ≠ name) (type : SectionType) (change : Section → Section) :
    (config.create name type change).lookup other = config.lookup other := by
  rw [create, lookup_edit_of_ne apart, lookup_setType_of_ne apart]

theorem lookup_create_self (type : SectionType) (change : Section → Section) :
    (config.create name type change).lookup name = some (change ⟨type, config.options name⟩) := by
  rw [create, lookup_edit_self, lookup_setType_self, Option.map_some]

theorem edit_id (config : Config) (name : String) : config.edit name (fun s => s) = config := by
  rw [edit]
  split
  next s here => exact put_of_lookup here
  next => rfl

theorem edit_of_missing (missing : config.lookup name = none) (change : Section → Section) : config.edit name change = config := by
  rw [edit, missing]

/-! ## The first section that is selected -/

variable {selects : Section → Bool}

theorem editFirst_cons {s : Section} (selected : selects s = true) (name : String) (change : Section → Section) (rest : Config) :
    editFirst selects change ((name, s) :: rest) = (name, change s) :: rest := by
  rw [editFirst, if_pos selected]

theorem editFirst_id (config : Config) : editFirst selects (fun s => s) config = config := by
  induction config with
  | nil => rfl
  | cons entry rest ih => rw [editFirst, ih, ite_self]

theorem map_fst_editFirst (change : Section → Section) (config : Config) : (editFirst selects change config).map Prod.fst = config.map Prod.fst := by
  induction config with
  | nil => rfl
  | cons entry rest ih =>
      obtain ⟨name, s⟩ := entry
      rw [editFirst]
      split
      · rfl
      · rw [List.map_cons, List.map_cons, ih]

/-- The section is found again while it stays selected. -/
theorem find?_editFirst {change : Section → Section} (keeps : ∀ s, selects s = true → selects (change s) = true) (config : Config) :
    (editFirst selects change config).find? (fun entry => selects entry.2) =
      (config.find? fun entry => selects entry.2).map fun entry => (entry.1, change entry.2) := by
  induction config with
  | nil => rfl
  | cons entry rest ih =>
      obtain ⟨name, s⟩ := entry
      rw [editFirst]
      split
      next selected =>
        rw [List.find?_cons_of_pos (by simpa using keeps s selected), List.find?_cons_of_pos (by simpa using selected)]
        rfl
      next other => rw [List.find?_cons_of_neg (by simpa using other), List.find?_cons_of_neg (by simpa using other), ih]

/-- A section at the end that is not selected stays there. -/
theorem editFirst_concat {entry : String × Section} (other : selects entry.2 = false) (change : Section → Section) (config : Config) :
    editFirst selects change (config ++ [entry]) = editFirst selects change config ++ [entry] := by
  induction config with
  | nil =>
      obtain ⟨name, s⟩ := entry
      have edited : editFirst selects change [(name, s)] = [(name, s)] := by
        rw [editFirst, if_neg (ne_true_of_eq_false other)]
        rfl
      exact edited
  | cons first rest ih =>
      obtain ⟨name, s⟩ := first
      rw [List.cons_append, editFirst, editFirst, ih]
      split
      · rfl
      · rfl

/-- Commands for a section that stays selected are commands for one section. -/
theorem editFirst_editFirst {first : Section → Section} (keeps : ∀ s, selects s = true → selects (first s) = true) (second : Section → Section)
    (config : Config) : editFirst selects second (editFirst selects first config) = editFirst selects (second ∘ first) config := by
  induction config with
  | nil => rfl
  | cons entry rest ih =>
      obtain ⟨name, s⟩ := entry
      rw [editFirst, editFirst]
      split
      next selected => rw [editFirst_cons (keeps s selected)]; rfl
      next other => rw [editFirst, if_neg other, ih]

/-- Only what the commands do to the section counts. -/
theorem editFirst_congr {first second : Section → Section} {config : Config}
    (same : ∀ entry ∈ config.find? fun entry => selects entry.2, first entry.2 = second entry.2) :
    editFirst selects first config = editFirst selects second config := by
  induction config with
  | nil => rfl
  | cons entry rest ih =>
      obtain ⟨name, s⟩ := entry
      rw [editFirst, editFirst]
      split
      next selected =>
        have here := same (name, s) (by rw [List.find?_cons_of_pos (by simpa using selected)]; rfl)
        rw [here]
      next other =>
        rw [List.find?_cons_of_neg (by simpa using other)] at same
        rw [ih same]

end Config

end XWrt.Foundation.Uci
