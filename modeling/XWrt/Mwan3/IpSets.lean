import Mathlib.Data.List.Infix
import XWrt.Mwan3.MarkedRules

/-!
# Sets

The ipsets of mwan3 and how `stop_locked` destroys them. A set cannot be
destroyed while a list of sets holds it or a rule of the nat table matches it,
so `stop_locked` passes twice over the names and `mwan3_ipv6_masq_cleanup` comes
back for the rest.
-/

namespace XWrt.Mwan3

/-- A set; only a `list:set` has members. -/
structure IpSet where
  name : String
  isList : Bool
  members : List String
  deriving DecidableEq, Repr

/-- The sets, and the interfaces that have a masquerade helper in the nat table. -/
structure SetState where
  sets : List IpSet
  helpers : List String
  deriving DecidableEq, Repr

/-- `mwan3_${INTERFACE}_ipv6_src_from` -/
def srcSet (interface : String) : String := "mwan3_" ++ interface ++ "_ipv6_src_from"

namespace SetState

/-- `ipset -! create` -/
def create (s : SetState) (name : String) (isList : Bool) : SetState :=
  if s.sets.any fun set => set.name = name then s
  else { s with sets := s.sets ++ [⟨name, isList, []⟩] }

/-- `ipset -! add` of a set to a list; a list takes no lists. -/
def add (s : SetState) (list member : String) : SetState :=
  if s.sets.any fun set => set.name = member && !set.isList then
    { s with
      sets := s.sets.map fun set =>
        if set.name = list ∧ set.isList then { set with members := member :: set.members } else set }
  else s

/-- `ipset flush` of a list. -/
def flush (s : SetState) (list : String) : SetState :=
  { s with sets := s.sets.map fun set => if set.name = list then { set with members := [] } else set }

def inUse (s : SetState) (name : String) : Bool :=
  (s.sets.any fun set => name ∈ set.members) || s.helpers.any fun interface => srcSet interface = name

/-- `ipset destroy` -/
def destroy (s : SetState) (name : String) : SetState :=
  if s.inUse name then s else { s with sets := s.sets.filter fun set => set.name ≠ name }

/-- The names that `ipset -n list` prints, as far as they match. -/
def names (s : SetState) (matching : String → Bool) : List String :=
  (s.sets.map IpSet.name).filter matching

end SetState

/-- The text occurs in the name. -/
def occursIn (text name : String) : Bool := text.toList <:+: name.toList

/-- `mwan3_set_local_ipv4` and `mwan3_set_local_ipv6` -/
def setLocal : Family → SetState → SetState
  | .ipv4, s => (s.create "mwan3_local_v4" false).add "mwan3_local" "mwan3_local_v4"
  | .ipv6, s => (s.create "mwan3_local_v6" false).add "mwan3_local" "mwan3_local_v6"

/-- `mwan3_set_connected_ipv4` and `mwan3_set_connected_ipv6` -/
def setConnected : Family → SetState → SetState
  | .ipv4, s => (s.create "mwan3_connected_v4" false).add "mwan3_connected" "mwan3_connected_v4"
  | .ipv6, s => (s.create "mwan3_connected_v6" false).add "mwan3_connected" "mwan3_connected_v6"

/-- `mwan3_ipv6_masq_help` for an interface that comes up. -/
def masqHelp (interface : String) (s : SetState) : SetState :=
  let s := ({ s with helpers := s.helpers.filter (· ≠ interface) }).destroy (srcSet interface)
  if s.sets.any fun set => set.name = srcSet interface then s
  else
    { s.create (srcSet interface) false with helpers := s.helpers ++ [interface] }

/-- The two passes of `stop_locked` over the sets. -/
def destroySets (s : SetState) : SetState :=
  let names := s.names (occursIn "mwan3_")
  let versioned := s.names fun name => occursIn "mwan3" name && (occursIn "_v4" name || occursIn "_v6" name)
  versioned.foldl SetState.destroy (names.foldl SetState.destroy s)

/-- The sets as the functions above make them: only lists have members, these are sets with a
version in their names, and what is in use is there. -/
structure SetState.Sound (s : SetState) : Prop where
  distinct : (s.sets.map IpSet.name).Nodup
  lists : ∀ set ∈ s.sets, set.members ≠ [] → set.isList = true
  members : ∀ set ∈ s.sets, ∀ name ∈ set.members,
    occursIn "mwan3" name = true ∧ (occursIn "_v4" name || occursIn "_v6" name) = true ∧
      ∃ other ∈ s.sets, other.name = name ∧ other.isList = false
  named : ∀ set ∈ s.sets, occursIn "mwan3_" set.name = true
  helpers : ∀ interface ∈ s.helpers, ∃ set ∈ s.sets, set.name = srcSet interface ∧ set.isList = false

namespace SetState

variable {s : SetState}

theorem inUse_iff {name : String} :
    s.inUse name = true ↔ (∃ set ∈ s.sets, name ∈ set.members) ∨ ∃ interface ∈ s.helpers, srcSet interface = name := by
  simp [inUse]

theorem mem_destroy {name : String} {set : IpSet} :
    set ∈ (s.destroy name).sets ↔ set ∈ s.sets ∧ (set.name = name → s.inUse name = true) := by
  unfold destroy
  split
  · rename_i used
    simp [used]
  · rename_i unused
    simp [unused]

theorem destroy_helpers (s : SetState) (name : String) : (s.destroy name).helpers = s.helpers := by
  unfold destroy
  split <;> rfl

end SetState

namespace SetState.Sound

variable {s : SetState}

theorem unique (sound : s.Sound) {first second : IpSet} (ofFirst : first ∈ s.sets)
    (ofSecond : second ∈ s.sets) (same : first.name = second.name) : first = second :=
  List.inj_on_of_nodup_map sound.distinct ofFirst ofSecond same

theorem create (sound : s.Sound) {name : String} (own : occursIn "mwan3_" name = true) (isList : Bool) :
    (s.create name isList).Sound := by
  unfold SetState.create
  split
  · exact sound
  · rename_i fresh
    have absent : ∀ set ∈ s.sets, set.name ≠ name := by
      intro set member same
      exact fresh (List.any_eq_true.mpr ⟨set, member, decide_eq_true same⟩)
    have grown : ∀ {set : IpSet}, set ∈ s.sets → set ∈ s.sets ++ [⟨name, isList, []⟩] :=
      List.mem_append_left _
    have cases_set : ∀ {good : IpSet → Prop}, (∀ set ∈ s.sets, good set) → good ⟨name, isList, []⟩ →
        ∀ set ∈ s.sets ++ [⟨name, isList, []⟩], good set :=
      fun old new => List.forall_mem_append.mpr ⟨old, List.forall_mem_singleton.mpr new⟩
    refine ⟨?_, cases_set sound.lists fun some => absurd rfl some, cases_set ?_ (fun _ none => nomatch none),
      cases_set sound.named own, ?_⟩
    · rw [List.map_append, List.nodup_append]
      refine ⟨sound.distinct, List.nodup_singleton _, ?_⟩
      rintro first ofFirst second ofSecond rfl
      obtain ⟨set, member, rfl⟩ := List.mem_map.mp ofFirst
      exact absent set member (List.mem_singleton.mp ofSecond)
    · intro set member held holds
      obtain ⟨named, version, other, there, rest⟩ := sound.members set member held holds
      exact ⟨named, version, other, grown there, rest⟩
    · intro interface helps
      obtain ⟨set, member, rest⟩ := sound.helpers interface helps
      exact ⟨set, grown member, rest⟩

/-- Changing the members of sets leaves the rest as it is. -/
theorem mapMembers (sound : s.Sound) {change : IpSet → IpSet}
    (same : ∀ set, (change set).name = set.name ∧ (change set).isList = set.isList)
    (lists : ∀ set ∈ s.sets, (change set).members ≠ [] → set.isList = true)
    (members : ∀ set ∈ s.sets, ∀ name ∈ (change set).members, name ∈ set.members ∨
      occursIn "mwan3" name = true ∧ (occursIn "_v4" name || occursIn "_v6" name) = true ∧
        ∃ other ∈ s.sets, other.name = name ∧ other.isList = false) :
    ({ s with sets := s.sets.map change } : SetState).Sound := by
  have carried : ∀ {name : String}, (∃ set ∈ s.sets, set.name = name ∧ set.isList = false) →
      ∃ set ∈ s.sets.map change, set.name = name ∧ set.isList = false := by
    rintro name ⟨set, member, own, notList⟩
    exact ⟨change set, List.mem_map_of_mem member, (same set).1.trans own, (same set).2.trans notList⟩
  refine ⟨?_, ?_, ?_, ?_, fun interface helps => carried (sound.helpers interface helps)⟩
  · have names : (s.sets.map change).map IpSet.name = s.sets.map IpSet.name := by
      rw [List.map_map]
      exact List.map_congr_left fun set _ => (same set).1
    rw [names]
    exact sound.distinct
  · intro set member some
    obtain ⟨old, there, rfl⟩ := List.mem_map.mp member
    exact (same old).2.trans (lists old there some)
  · intro set member name holds
    obtain ⟨old, there, rfl⟩ := List.mem_map.mp member
    rcases members old there name holds with before | ⟨named, version, other⟩
    · obtain ⟨named, version, other⟩ := sound.members old there name before
      exact ⟨named, version, carried other⟩
    · exact ⟨named, version, carried other⟩
  · intro set member
    obtain ⟨old, there, rfl⟩ := List.mem_map.mp member
    rw [(same old).1]
    exact sound.named old there

theorem add (sound : s.Sound) (list : String) {member : String} (own : occursIn "mwan3" member = true)
    (version : (occursIn "_v4" member || occursIn "_v6" member) = true) : (s.add list member).Sound := by
  unfold SetState.add
  split
  · rename_i there
    obtain ⟨other, inside, plain⟩ := List.any_eq_true.mp there
    simp only [Bool.and_eq_true, decide_eq_true_eq, Bool.not_eq_true'] at plain
    refine sound.mapMembers ?_ ?_ ?_
    · intro set
      split <;> exact ⟨rfl, rfl⟩
    · intro set inSets some
      split at some
      · rename_i target
        exact target.2
      · exact sound.lists set inSets some
    · intro set inSets name holds
      split at holds
      · rcases List.mem_cons.mp holds with rfl | before
        · exact Or.inr ⟨own, version, other, inside, plain⟩
        · exact Or.inl before
      · exact Or.inl holds
  · exact sound

theorem flush (sound : s.Sound) (list : String) : (s.flush list).Sound := by
  refine sound.mapMembers ?_ ?_ ?_
  · intro set
    split <;> exact ⟨rfl, rfl⟩
  · intro set inSets some
    split at some
    · exact absurd rfl some
    · exact sound.lists set inSets some
  · intro set inSets name holds
    split at holds
    · cases holds
    · exact Or.inl holds

theorem destroy (sound : s.Sound) (name : String) : (s.destroy name).Sound := by
  have stays : ∀ {used : String}, s.inUse used = true → (∃ set ∈ s.sets, set.name = used ∧ set.isList = false) →
      ∃ set ∈ (s.destroy name).sets, set.name = used ∧ set.isList = false := by
    rintro used inUse ⟨set, member, rfl, notList⟩
    exact ⟨set, SetState.mem_destroy.mpr ⟨member, fun same => same ▸ inUse⟩, rfl, notList⟩
  refine ⟨?_, ?_, ?_, ?_, ?_⟩
  · unfold SetState.destroy
    split
    · exact sound.distinct
    · exact sound.distinct.sublist (List.filter_sublist.map _)
  · exact fun set member => sound.lists set (SetState.mem_destroy.mp member).1
  · intro set member held holds
    have before := (SetState.mem_destroy.mp member).1
    obtain ⟨named, version, other⟩ := sound.members set before held holds
    exact ⟨named, version, stays (SetState.inUse_iff.mpr (Or.inl ⟨set, before, holds⟩)) other⟩
  · exact fun set member => sound.named set (SetState.mem_destroy.mp member).1
  · intro interface helps
    rw [SetState.destroy_helpers] at helps
    exact stays (SetState.inUse_iff.mpr (Or.inr ⟨interface, helps, rfl⟩)) (sound.helpers interface helps)

theorem foldl_destroy (sound : s.Sound) (names : List String) :
    (names.foldl SetState.destroy s).Sound :=
  List.foldlRecOn names SetState.destroy (motive := SetState.Sound) sound fun _ sound name _ => sound.destroy name

theorem destroySets (sound : s.Sound) : (destroySets s).Sound :=
  (sound.foldl_destroy _).foldl_destroy _

/-- Fewer helpers hold fewer sets. -/
theorem helpers_subset (sound : s.Sound) (helpers : List String) (fewer : helpers ⊆ s.helpers) :
    ({ s with helpers := helpers } : SetState).Sound :=
  ⟨sound.distinct, sound.lists, sound.members, sound.named, fun interface helps =>
    sound.helpers interface (fewer helps)⟩

theorem masqHelp (sound : s.Sound) (interface : String) : (masqHelp interface s).Sound := by
  have removed := (sound.helpers_subset (s.helpers.filter (· ≠ interface))
    (List.filter_subset_self _)).destroy (srcSet interface)
  have helpersEq := SetState.destroy_helpers
    ({ s with helpers := s.helpers.filter (· ≠ interface) } : SetState) (srcSet interface)
  unfold Mwan3.masqHelp
  simp only
  generalize ({ s with helpers := s.helpers.filter (· ≠ interface) } : SetState).destroy
    (srcSet interface) = s' at removed helpersEq
  split
  · exact removed
  · rename_i fresh
    have own : occursIn "mwan3_" (srcSet interface) = true := by
      simp only [occursIn, srcSet, decide_eq_true_eq, String.toList_append, List.append_assoc]
      exact (List.prefix_append _ _).isInfix
    obtain ⟨distinct, lists, members, named, helpers⟩ := removed.create own false
    have kept : (s'.create (srcSet interface) false).helpers = s'.helpers := by
      unfold SetState.create
      split <;> rfl
    refine ⟨distinct, lists, members, named, ?_⟩
    intro other helps
    rcases List.mem_append.mp helps with earlier | last
    · exact helpers other (kept ▸ earlier)
    · obtain rfl := List.mem_singleton.mp last
      refine ⟨⟨srcSet other, false, []⟩, ?_, rfl, rfl⟩
      unfold SetState.create
      rw [if_neg fresh]
      exact List.mem_append_right _ (List.mem_singleton_self _)

theorem setLocal (sound : s.Sound) (family : Family) : (setLocal family s).Sound := by
  cases family <;> exact (sound.create (by decide) false).add _ (by decide) (by decide)

theorem setConnected (sound : s.Sound) (family : Family) : (setConnected family s).Sound := by
  cases family <;> exact (sound.create (by decide) false).add _ (by decide) (by decide)

end SetState.Sound

end XWrt.Mwan3
