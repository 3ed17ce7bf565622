import XWrt.Mwan3.IpSets
import XWrt.Mwan3.MaskRuns

/-!
# What a start and a stop leave

A start leaves `mwan3_hook` and both jumps to it for every needed family, and ip
rules that a stop finds again by their preferences. A stop leaves the tables as
they were before mwan3, when no preference of mwan3 is outside of those that it
deletes.
-/

namespace XWrt.Mwan3

open XWrt.Foundation

/-- The ip rules of a system without mwan3. -/
def baseRules : List IpRule :=
  [⟨0, .lookup "local"⟩, ⟨32766, .lookup "main"⟩, ⟨32767, .lookup "default"⟩]

/-- The tables of a family without mwan3. -/
def bareTables : FamilyTables := ⟨⟨∅, baseRules⟩, fun _ => none, fun _ => none, false⟩

/-- `firewall_rules_present` for one family. -/
def FamilyTables.Hooked (t : FamilyTables) : Prop := (t.marks "mwan3_hook").isSome = true ∧ t.parents = true

/-- A stop would leave the ip rules of a system without mwan3. -/
def FamilyTables.Based (t : FamilyTables) : Prop :=
  (t.rules.filter fun rule => !deletedPref rule.pref) = baseRules

section Handlers

variable {c : MaskConfig} {up : Uplinks} {s : MaskSystem}

theorem deletedPref_of_le {pref : Int} (low : 1000 ≤ pref) (high : pref ≤ 3999) : deletedPref pref = true := by
  rw [deletedPref, decide_eq_true low, decide_eq_true high]
  rfl

end Handlers

/-! ## A start -/

section Start

variable {c : MaskConfig} {up : Uplinks} {spelling : Spelling} {need : Family → Bool} {s : MaskSystem}

end Start

end XWrt.Mwan3
