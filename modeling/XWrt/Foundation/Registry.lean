import Mathlib.Data.List.Nodup
import Mathlib.Logic.Function.Basic

/-!
# Who holds what

A registry maps each key to its holder. A system that keeps the keys with their
holders, in any order and any grouping, tracks the registry when it has each key
once and with the right holder.
-/

namespace XWrt.Foundation.Registry

variable {κ ω : Type*} [DecidableEq κ] [DecidableEq ω]

def enter (registry : κ → Option ω) (key : κ) (holder : ω) : κ → Option ω :=
  Function.update registry key (some holder)

def strike (registry : κ → Option ω) (key : κ) : κ → Option ω := Function.update registry key none

/-- The holder is gone, and so are its keys. -/
def forget (registry : κ → Option ω) (holder : ω) : κ → Option ω := fun key =>
  if registry key = some holder then none else registry key

/-- The pairs are those of the registry, each key once. -/
structure Tracks (pairs : List (κ × ω)) (registry : κ → Option ω) : Prop where
  exact : ∀ key holder, registry key = some holder ↔ (key, holder) ∈ pairs
  single : (pairs.map Prod.fst).Nodup

variable {pairs others : List (κ × ω)} {registry : κ → Option ω} {key : κ} {holder : ω}

namespace Tracks

omit [DecidableEq κ] [DecidableEq ω] in
theorem nil : Tracks ([] : List (κ × ω)) fun _ => none := ⟨by simp, List.nodup_nil⟩

omit [DecidableEq κ] [DecidableEq ω] in
theorem perm (tracks : Tracks pairs registry) (same : pairs.Perm others) : Tracks others registry :=
  ⟨fun key holder => (tracks.exact key holder).trans same.mem_iff,
    (same.map Prod.fst).nodup_iff.mp tracks.single⟩

omit [DecidableEq ω] in
theorem enter (tracks : Tracks pairs registry) (fresh : key ∉ pairs.map Prod.fst) :
    Tracks ((key, holder) :: pairs) (enter registry key holder) := by
  refine ⟨fun other owner => ?_, List.nodup_cons.mpr ⟨fresh, tracks.single⟩⟩
  by_cases same : other = key
  · subst same
    have absent : (other, owner) ∉ pairs := fun member =>
      fresh (List.mem_map.mpr ⟨_, member, rfl⟩)
    simp [Registry.enter, absent, eq_comm]
  · simp [Registry.enter, same, tracks.exact]

omit [DecidableEq ω] in
theorem strike (tracks : Tracks ((key, holder) :: pairs) registry) :
    Tracks pairs (strike registry key) := by
  obtain ⟨absent, single⟩ := List.nodup_cons.mp tracks.single
  refine ⟨fun other owner => ?_, single⟩
  by_cases same : other = key
  · subst same
    have gone : (other, owner) ∉ pairs := fun member =>
      absent (List.mem_map.mpr ⟨_, member, rfl⟩)
    simp [Registry.strike, gone]
  · simp [Registry.strike, same, tracks.exact]

omit [DecidableEq κ] in
theorem forget (tracks : Tracks pairs registry) (holder : ω) :
    Tracks (pairs.filter fun pair => pair.2 ≠ holder) (forget registry holder) := by
  refine ⟨fun key owner => ?_, (List.filter_sublist.map Prod.fst).nodup tracks.single⟩
  rw [List.mem_filter, ← tracks.exact, Registry.forget]
  by_cases gone : registry key = some holder
  · rw [if_pos gone, gone]
    refine ⟨fun none => by simp at none, fun ⟨held, other⟩ => ?_⟩
    exact absurd (Option.some.inj held).symm (by simpa using other)
  · rw [if_neg gone]
    refine ⟨fun held => ⟨held, ?_⟩, And.left⟩
    simpa using fun same : owner = holder => gone (same ▸ held)

omit [DecidableEq ω] in
theorem remove (tracks : Tracks pairs registry) (key : κ) :
    Tracks (pairs.filter fun pair => pair.1 ≠ key) (Registry.strike registry key) := by
  refine ⟨fun other owner => ?_, (List.filter_sublist.map Prod.fst).nodup tracks.single⟩
  by_cases same : other = key
  · simp [Registry.strike, same]
  · simp [Registry.strike, same, tracks.exact]

omit [DecidableEq ω] in
/-- The pairs with one key are that of its holder. -/
theorem filter_key (tracks : Tracks pairs registry) (key : κ) :
    pairs.filter (fun pair => pair.1 = key) = (registry key).toList.map fun holder => (key, holder) := by
  obtain ⟨exact, single⟩ := tracks
  induction pairs generalizing registry with
  | nil =>
    have none : registry key = none := Option.eq_none_iff_forall_ne_some.mpr fun holder => by simp [exact]
    simp [none]
  | cons pair rest ih =>
    obtain ⟨first, owner⟩ := pair
    have behind := strike ⟨exact, single⟩
    have tail := ih behind.exact behind.single
    by_cases same : first = key
    · subst same
      have held : registry first = some owner := (exact first owner).mpr List.mem_cons_self
      simpa [held, Registry.strike] using tail
    · have kept : Registry.strike registry first key = registry key := Function.update_of_ne (Ne.symm same) _ _
      rw [List.filter_cons_of_neg (by simpa using same), tail, kept]

end Tracks

end XWrt.Foundation.Registry
