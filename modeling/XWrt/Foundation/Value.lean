import Mathlib.Algebra.Order.Field.Rat
import XWrt.Foundation.Keyed

/-!
# Dynamically typed values

The values that come out of a text format or a dynamic language: booleans,
numbers, strings, and tables with an array part and named fields. A record of
optional texts, numbers and other values is written as a table; reading a field
gives back the entry of that name.
-/

namespace XWrt.Foundation

/-- A floating point number, up to rounding. -/
inductive Number where
  | finite (value : ℚ)
  | infinite
  | nan

/-- A value; absent fields are not stored. -/
inductive Value where
  | boolean (value : Bool)
  | number (value : Number)
  | string (value : String)
  | table (items : List Value) (fields : List (String × Value))

namespace Value

/-- A field of a table. -/
def get (value : Value) (name : String) : Option Value :=
  match value with
  | .table _ fields => fields.lookup name
  | _ => none

/-- The value is a table. -/
def isTable : Value → Bool
  | .table _ _ => true
  | _ => false

/-- The items of an array. -/
def items : Value → List Value
  | .table items _ => items
  | _ => []

/-- A field that holds a text. -/
def text (value : Value) (name : String) : Option String :=
  match value.get name with
  | some (.string content) => some content
  | _ => none

/-- A field that holds a finite number. -/
def rational (value : Value) (name : String) : Option ℚ :=
  match value.get name with
  | some (.number (.finite amount)) => some amount
  | _ => none

/-- An array. -/
def array (items : List Value) : Value := .table items []

/-- The entries that have a value. -/
def present {α : Type} (wrap : α → Value) (entries : List (String × Option α)) : List (String × Value) :=
  entries.filterMap fun entry => entry.2.map fun value => (entry.1, wrap value)

/-- A table of optional texts, numbers and other values. -/
def record (texts : List (String × Option String)) (numbers : List (String × Option ℚ)) (others : List (String × Option Value)) :
    Value :=
  .table [] (present .string texts ++ present (fun amount => .number (.finite amount)) numbers ++ present id others)

section Present

variable {α : Type} {wrap : α → Value} {entries : List (String × Option α)} {name : String}

theorem lookup_present_eq_some {value : Value} (found : (present wrap entries).lookup name = some value) :
    ∃ raw, (name, some raw) ∈ entries ∧ value = wrap raw := by
  obtain ⟨⟨key, content⟩, listed, kept⟩ := List.mem_filterMap.mp (Keyed.mem_of_lookup found)
  obtain ⟨raw, rfl, same⟩ := Option.map_eq_some_iff.mp kept
  cases same
  exact ⟨raw, listed, rfl⟩

theorem lookup_present_eq_none (missing : name ∉ entries.map Prod.fst) : (present wrap entries).lookup name = none := by
  cases found : (present wrap entries).lookup name with
  | none => rfl
  | some value =>
      obtain ⟨raw, listed, -⟩ := lookup_present_eq_some found
      exact absurd (List.mem_map.mpr ⟨_, listed, rfl⟩) missing

theorem lookup_present (distinct : (entries.map Prod.fst).Nodup) {content : Option α} (listed : (name, content) ∈ entries) :
    (present wrap entries).lookup name = content.map wrap := by
  induction entries with
  | nil => exact absurd listed List.not_mem_nil
  | cons entry rest ih =>
      obtain ⟨key, first⟩ := entry
      rw [List.map_cons, List.nodup_cons] at distinct
      rcases List.mem_cons.mp listed with here | later
      · cases here
        cases content with
        | none => exact (lookup_present_eq_none distinct.1 : (present wrap rest).lookup name = none)
        | some raw => exact List.lookup_cons_self
      · have other : name ≠ key := fun same => distinct.1 (same ▸ List.mem_map.mpr ⟨_, later, rfl⟩)
        rw [← ih distinct.2 later]
        cases first with
        | none => rfl
        | some raw =>
            have skipped : (name == key) = false := beq_eq_false_iff_ne.mpr other
            change List.lookup name ((key, wrap raw) :: present wrap rest) = _
            rw [List.lookup_cons, skipped]

end Present

section Record

variable {texts : List (String × Option String)} {numbers : List (String × Option ℚ)} {others : List (String × Option Value)}
  {name : String}

theorem get_record_eq_some {value : Value} (found : (record texts numbers others).get name = some value) :
    (name ∈ texts.map Prod.fst ∧ ∃ content, value = .string content) ∨
      (name ∈ numbers.map Prod.fst ∧ ∃ amount, value = .number (.finite amount)) ∨ name ∈ others.map Prod.fst := by
  rw [record, get, List.lookup_append, List.lookup_append, Option.or_eq_some_iff, Option.or_eq_some_iff] at found
  rcases found with (text | ⟨-, number⟩) | ⟨-, other⟩
  · obtain ⟨raw, listed, rfl⟩ := lookup_present_eq_some text
    exact Or.inl ⟨List.mem_map.mpr ⟨_, listed, rfl⟩, raw, rfl⟩
  · obtain ⟨raw, listed, rfl⟩ := lookup_present_eq_some number
    exact Or.inr (Or.inl ⟨List.mem_map.mpr ⟨_, listed, rfl⟩, raw, rfl⟩)
  · obtain ⟨raw, listed, -⟩ := lookup_present_eq_some other
    exact Or.inr (Or.inr (List.mem_map.mpr ⟨_, listed, rfl⟩))

theorem text_record (distinct : (texts.map Prod.fst).Nodup) {content : Option String} (listed : (name, content) ∈ texts)
    (notNumber : name ∉ numbers.map Prod.fst) (notOther : name ∉ others.map Prod.fst) :
    (record texts numbers others).text name = content := by
  have found : (record texts numbers others).get name = content.map .string := by
    rw [record, get, List.lookup_append, List.lookup_append, lookup_present distinct listed, lookup_present_eq_none notNumber,
      lookup_present_eq_none notOther, Option.or_none, Option.or_none]
  rw [text, found]
  cases content with
  | none => rfl
  | some content => rfl

theorem get_record_other (distinct : (others.map Prod.fst).Nodup) {content : Option Value} (listed : (name, content) ∈ others)
    (notText : name ∉ texts.map Prod.fst) (notNumber : name ∉ numbers.map Prod.fst) :
    (record texts numbers others).get name = content := by
  rw [record, get, List.lookup_append, List.lookup_append, lookup_present_eq_none notText, lookup_present_eq_none notNumber,
    lookup_present distinct listed, Option.none_or, Option.none_or, Option.map_id, id]

theorem get_record_none (notText : name ∉ texts.map Prod.fst) (notNumber : name ∉ numbers.map Prod.fst)
    (notOther : name ∉ others.map Prod.fst) : (record texts numbers others).get name = none := by
  rw [record, get, List.lookup_append, List.lookup_append, lookup_present_eq_none notText, lookup_present_eq_none notNumber,
    lookup_present_eq_none notOther, Option.or_none, Option.or_none]

end Record

end Value

end XWrt.Foundation
