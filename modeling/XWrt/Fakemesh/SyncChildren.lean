import XWrt.Foundation.ChildList
import Mathlib.Data.List.AList

/-!
# Updating the mounted view

`syncChildren` of `view/fakemesh/topology.js` edits the children of a mounted
element until they equal those of a freshly drawn one. The node objects are trees
that carry the identity of their object. The drawn trees are HTML with inline
SVG: no attribute has a namespace, and a node name tells the element's kind.
-/

namespace XWrt.Fakemesh

open XWrt.Foundation

/-- The attributes of an element, at most one of each name; nothing reads their order. -/
abbrev Attributes := AList fun _ : String => String

/-- The nodes other than elements, by node type. -/
inductive CharacterKind where
  | text
  | cdataSection
  | comment
  | processingInstruction (target : String)
  deriving DecidableEq, Repr

/-- A node object with its identity. -/
inductive DomNode where
  | element (id : Nat) (nodeName : String) (attributes : Attributes) (childNodes : List DomNode)
  | character (id : Nat) (kind : CharacterKind) (nodeValue : String)

namespace DomNode

def id : DomNode → Nat
  | element id .. => id
  | character id .. => id

def nodeType : DomNode → Nat
  | element .. => 1
  | character _ .text _ => 3
  | character _ .cdataSection _ => 4
  | character _ (.processingInstruction _) _ => 7
  | character _ .comment _ => 8

def nodeName : DomNode → String
  | element _ name _ _ => name
  | character _ .text _ => "#text"
  | character _ .cdataSection _ => "#cdata-section"
  | character _ (.processingInstruction target) _ => target
  | character _ .comment _ => "#comment"

/-- `node.nodeType === 1 && node.getAttribute('data-fm-key')`, as far as it is truthy. -/
def key : DomNode → Option String
  | element _ _ attributes _ => (attributes.lookup "data-fm-key").filter (· ≠ "")
  | character .. => none

/-- `node.nodeType === 1 && node.hasAttribute('data-fm-key')` -/
def hasKey : DomNode → Bool
  | element _ _ attributes _ => (attributes.lookup "data-fm-key").isSome
  | character .. => false

end DomNode

/-- As many attributes, and each of the one list in the other. -/
def sameAttributes (a b : Attributes) : Bool :=
  a.entries.length = b.entries.length && a.entries.all (· ∈ b.entries)

mutual

def DomNode.isEqualNode : DomNode → DomNode → Bool
  | .element _ name attributes children, .element _ name' attributes' children' =>
      name = name' && sameAttributes attributes attributes' && isEqualNodes children children'
  | .character _ kind value, .character _ kind' value' => kind = kind' && value = value'
  | _, _ => false

/-- The node lists are equal one by one. -/
def isEqualNodes : List DomNode → List DomNode → Bool
  | [], [] => true
  | node :: nodes, node' :: nodes' => node.isEqualNode node' && isEqualNodes nodes nodes'
  | _, _ => false

end

/-- Make the attributes those of `next`: drop the ones it lacks, set the ones that differ. -/
def syncAttributes (current next : Attributes) : Attributes :=
  let kept := current.entries.foldl (fun a attr => if attr.1 ∈ next then a else a.erase attr.1) current
  next.entries.foldl (fun a attr => if a.lookup attr.1 = some attr.2 then a else a.insert attr.1 attr.2) kept

/-- The children of the target, the nodes replaced in it, and the cursor of the walk. -/
structure SyncState where
  children : List DomNode
  detached : List DomNode
  cursor : Option Nat

/-- The node object of an identity. -/
def SyncState.object (s : SyncState) (id : Nat) : Option DomNode :=
  (s.children ++ s.detached).find? fun n => n.id = id

/-- `keyed`: the child of a key, the last one if there are more. -/
def keyed (target : List DomNode) (key : String) : Option Nat :=
  ((target.filter fun child => child.key = some key).getLast?).map DomNode.id

/-- The node of the target that `next` is compared with. -/
def SyncState.current (s : SyncState) (keyed : String → Option Nat) (next : DomNode) : Option DomNode :=
  match next.key with
  | some key => (keyed key).bind s.object
  | none => (s.cursor.bind s.object).filter fun current => !current.hasKey

/-- One turn of the walk; `update` makes a node of the same name equal to `next`. -/
def syncNext (keyed : String → Option Nat) (update : DomNode → DomNode) (next : DomNode) (s : SyncState) : SyncState :=
  match s.current keyed next with
  | none => { s with children := ChildList.insertBefore DomNode.id s.children next s.cursor }
  | some current =>
      let children := if s.cursor = some current.id then s.children
        else ChildList.insertBefore DomNode.id s.children current s.cursor
      if current.nodeType ≠ next.nodeType ∨ current.nodeName ≠ next.nodeName then
        let children := ChildList.replaceChild DomNode.id children next current.id
        ⟨children, current :: s.detached, ChildList.nextSibling DomNode.id children next.id⟩
      else
        let children := ChildList.modify DomNode.id children current.id update
        ⟨children, s.detached, ChildList.nextSibling DomNode.id children current.id⟩

def syncStart (target : List DomNode) : SyncState := ⟨target, [], ChildList.firstChild DomNode.id target⟩

/-- What is left from the cursor on is removed. -/
def SyncState.finish (s : SyncState) : List DomNode := ChildList.removeFrom DomNode.id s.children s.cursor

mutual

/-- Make a mounted node of the same type and name equal to `next`. -/
def updated : DomNode → DomNode → DomNode
  | .element id' name' attributes' children', current =>
      if current.isEqualNode (.element id' name' attributes' children') then current
      else match current with
        | .element id name attributes children =>
            .element id name (syncAttributes attributes attributes')
              (syncSources (keyed children) children' (syncStart children)).finish
        | .character .. => current
  | .character id' kind' value', current =>
      if current.isEqualNode (.character id' kind' value') then current
      else match current with
        | .element .. => current
        | .character id kind _ => .character id kind value'

/-- The walk over the children of the source. -/
def syncSources (keyed : String → Option Nat) : List DomNode → SyncState → SyncState
  | [], s => s
  | next :: rest, s => syncSources keyed rest (syncNext keyed (updated next) next s)

end

/-- The children of the target after `syncChildren(target, source)`. -/
def syncChildren (target source : List DomNode) : List DomNode :=
  (syncSources (keyed target) source (syncStart target)).finish

section Nodes

/-- A property of nodes that passes from the children of an element to the element. -/
theorem DomNode.induct {P : DomNode → Prop}
    (element : ∀ id name attributes children, (∀ child ∈ children, P child) → P (.element id name attributes children))
    (character : ∀ id kind value, P (.character id kind value)) (node : DomNode) : P node := by
  refine @DomNode.rec P (fun children => ∀ child ∈ children, P child) element character ?_ ?_ node
  · intro child member
    cases member
  · intro head tail first others child member
    rcases List.mem_cons.mp member with rfl | member
    · exact first
    · exact others child member

theorem isEqualNodes_iff {nodes nodes' : List DomNode} :
    isEqualNodes nodes nodes' = true ↔ List.Forall₂ (fun a b => DomNode.isEqualNode a b = true) nodes nodes' := by
  induction nodes generalizing nodes' with
  | nil => cases nodes' <;> simp [isEqualNodes]
  | cons node nodes ih => cases nodes' <;> simp [isEqualNodes, ih]

theorem sameAttributes_refl (a : Attributes) : sameAttributes a a = true := by
  simp [sameAttributes]

theorem DomNode.isEqualNode_refl (node : DomNode) : node.isEqualNode node = true := by
  induction node using DomNode.induct with
  | element id name attributes children ih =>
      have below : isEqualNodes children children = true := isEqualNodes_iff.mpr (List.forall₂_same.mpr ih)
      simp [DomNode.isEqualNode, sameAttributes_refl, below]
  | character id kind value => simp [DomNode.isEqualNode]

theorem DomNode.key_eq_none {node : DomNode} (plain : node.hasKey = false) : node.key = none := by
  cases node with
  | element id name attributes children =>
      simp only [DomNode.hasKey, Option.isSome_eq_false_iff, Option.isNone_iff_eq_none] at plain
      simp [DomNode.key, plain]
  | character id kind value => rfl

theorem DomNode.nodeType_of_key {node : DomNode} {key : String} (named : node.key = some key) : node.nodeType = 1 := by
  cases node with
  | element id name attributes children => rfl
  | character id kind value => cases named

/-- Siblings with unique keys: a key names one node. -/
theorem eq_of_key {nodes : List DomNode} (unique : (nodes.filterMap DomNode.key).Nodup) {a b : DomNode}
    (left : a ∈ nodes) (right : b ∈ nodes) {key : String} (keyA : a.key = some key) (keyB : b.key = some key) :
    a = b := by
  induction nodes with
  | nil => cases left
  | cons node nodes ih =>
      have rest : (nodes.filterMap DomNode.key).Nodup :=
        unique.sublist ((List.sublist_cons_self node nodes).filterMap DomNode.key)
      have alone : ∀ c ∈ nodes, node.key = some key → c.key ≠ some key := by
        intro c member named same
        rw [List.filterMap_cons_some named] at unique
        exact (List.nodup_cons.mp unique).1 (List.mem_filterMap.mpr ⟨c, member, same⟩)
      rcases List.mem_cons.mp left with rfl | inside
      · rcases List.mem_cons.mp right with rfl | inside'
        · rfl
        · exact absurd keyB (alone b inside' keyA)
      · rcases List.mem_cons.mp right with rfl | inside'
        · exact absurd keyA (alone a inside keyB)
        · exact ih rest inside inside'

end Nodes

section AttributeLists

/-- What the first pass leaves: the attributes that `next` has too. -/
theorem lookup_kept (next : Attributes) (entries : List (Sigma fun _ : String => String)) (a : Attributes)
    (name : String) :
    (entries.foldl (fun a attr => if attr.1 ∈ next then a else a.erase attr.1) a).lookup name =
      if name ∈ entries.map Sigma.fst ∧ name ∉ next then none else a.lookup name := by
  induction entries generalizing a with
  | nil => simp
  | cons attr entries ih =>
      rw [List.foldl_cons, ih]
      by_cases here : attr.1 = name
      · subst here
        by_cases has : attr.1 ∈ next <;> simp [has]
      · have behind : name ∈ (attr :: entries).map Sigma.fst ↔ name ∈ entries.map Sigma.fst := by
          rw [List.map_cons, List.mem_cons, or_iff_right (Ne.symm here)]
        have same : (if attr.1 ∈ next then a else a.erase attr.1).lookup name = a.lookup name := by
          split
          · rfl
          · exact AList.lookup_erase_ne (Ne.symm here)
        simp only [behind, same]

/-- What the second pass leaves: the values of the list where it names an attribute. -/
theorem lookup_set (entries : List (Sigma fun _ : String => String)) (nodup : entries.NodupKeys) (a : Attributes)
    (name : String) :
    (entries.foldl (fun a attr => if a.lookup attr.1 = some attr.2 then a else a.insert attr.1 attr.2) a).lookup name =
      (entries.dlookup name).or (a.lookup name) := by
  induction entries generalizing a with
  | nil => simp
  | cons attr entries ih =>
      obtain ⟨fresh, nodup⟩ := List.nodupKeys_cons.mp nodup
      rw [List.foldl_cons, ih nodup]
      obtain ⟨n, value⟩ := attr
      by_cases here : n = name
      · subst here
        rw [List.dlookup_cons_eq, List.dlookup_eq_none.mpr fresh]
        split <;> simp_all
      · rw [List.dlookup_cons_ne _ _ (Ne.symm here)]
        split
        · rfl
        · rw [AList.lookup_insert_ne (Ne.symm here)]

theorem lookup_syncAttributes (current next : Attributes) (name : String) :
    (syncAttributes current next).lookup name = next.lookup name := by
  have set := lookup_set next.entries next.nodupKeys
  unfold syncAttributes
  rw [set, lookup_kept]
  show (next.lookup name).or _ = next.lookup name
  by_cases has : name ∈ next
  · obtain ⟨value, found⟩ := Option.isSome_iff_exists.mp (AList.lookup_isSome.mpr has)
    rw [found, Option.some_or]
  · have gone : next.lookup name = none := AList.lookup_eq_none.mpr has
    have dropped : name ∈ current.entries.map Sigma.fst ∨ current.lookup name = none := by
      by_cases own : name ∈ current
      · exact Or.inl own
      · exact Or.inr (AList.lookup_eq_none.mpr own)
    rcases dropped with dropped | dropped <;> simp [gone, has, dropped]

/-- The attributes end as those of `next`. -/
theorem sameAttributes_sync (current next : Attributes) : sameAttributes (syncAttributes current next) next = true := by
  have perm : (syncAttributes current next).entries.Perm next.entries := by
    refine List.lookup_ext (syncAttributes current next).nodupKeys next.nodupKeys fun name value => ?_
    have equal : List.dlookup name (syncAttributes current next).entries = List.dlookup name next.entries :=
      lookup_syncAttributes current next name
    rw [equal]
  simp only [sameAttributes, Bool.and_eq_true, decide_eq_true_eq, List.all_eq_true]
  exact ⟨perm.length_eq, fun attr member => perm.mem_iff.mp member⟩

end AttributeLists

section Views

mutual

/-- The identities of the objects of a tree. -/
def DomNode.objects : DomNode → List Nat
  | .element id _ _ children => id :: objectsOf children
  | .character id _ _ => [id]

def objectsOf : List DomNode → List Nat
  | [] => []
  | node :: nodes => node.objects ++ objectsOf nodes

end

def DomNode.childNodes : DomNode → List DomNode
  | .element _ _ _ children => children
  | .character .. => []

/-- Keyed siblings have unique keys, in every list of children. -/
inductive UniqueKeys : List DomNode → Prop
  | siblings {children : List DomNode} (unique : (children.filterMap DomNode.key).Nodup)
      (below : ∀ child ∈ children, UniqueKeys child.childNodes) : UniqueKeys children

/-- The children of a mounted element and of a drawn one: every object stands in one place. -/
structure ViewPair (target source : List DomNode) : Prop where
  distinct : (objectsOf target ++ objectsOf source).Nodup
  targetKeys : UniqueKeys target
  sourceKeys : UniqueKeys source

theorem ids_sublist (nodes : List DomNode) : (nodes.map DomNode.id).Sublist (objectsOf nodes) := by
  induction nodes with
  | nil => exact List.Sublist.slnil
  | cons node nodes ih =>
      rw [List.map_cons, objectsOf, ← List.singleton_append]
      refine List.Sublist.append ?_ ih
      cases node <;> simp [DomNode.id, DomNode.objects]

theorem objectsOf_childNodes {nodes : List DomNode} {node : DomNode} (member : node ∈ nodes) :
    (objectsOf node.childNodes).Sublist (objectsOf nodes) := by
  induction nodes with
  | nil => cases member
  | cons head nodes ih =>
      rw [objectsOf]
      rcases List.mem_cons.mp member with rfl | member
      · refine List.Sublist.trans ?_ (List.sublist_append_left _ _)
        cases node <;> simp [DomNode.childNodes, DomNode.objects, objectsOf]
      · exact (ih member).trans (List.sublist_append_right _ _)

namespace ViewPair

variable {target source : List DomNode}

theorem uniqueTarget (pair : ViewPair target source) : (target.filterMap DomNode.key).Nodup := by
  cases pair.targetKeys with
  | siblings unique below => exact unique

theorem uniqueSource (pair : ViewPair target source) : (source.filterMap DomNode.key).Nodup := by
  cases pair.sourceKeys with
  | siblings unique below => exact unique

/-- A node of each side has a pair of children of its own. -/
theorem below (pair : ViewPair target source) {current next : DomNode} (mounted : current ∈ target)
    (drawn : next ∈ source) : ViewPair current.childNodes next.childNodes where
  distinct := pair.distinct.sublist ((objectsOf_childNodes mounted).append (objectsOf_childNodes drawn))
  targetKeys := by
    cases pair.targetKeys with
    | siblings unique below => exact below current mounted
  sourceKeys := by
    cases pair.sourceKeys with
    | siblings unique below => exact below next drawn

end ViewPair

end Views

section Walks

/-- What stands in the end where `next` is in the source. -/
structure Stands (target : List DomNode) (next result : DomNode) : Prop where
  equal : result.isEqualNode next = true
  object : ∀ child ∈ target, ∀ key, child.key = some key → next.key = some key →
    result.id = if child.nodeName = next.nodeName then child.id else next.id

/--
The walk has placed some children; the cursor stands at the others. Those are
children of the target, and the ones whose keys are still to come are among them.
-/
structure Walk (target placed rest source : List DomNode) (s : SyncState) : Prop where
  children : s.children = placed ++ rest
  cursor : s.cursor = ChildList.firstChild DomNode.id rest
  distinct : ((placed ++ rest ++ source).map DomNode.id).Nodup
  within : rest.Sublist target
  kept : ∀ child ∈ target, ∀ next ∈ source, ∀ key, child.key = some key → next.key = some key → child ∈ rest

namespace Walk

variable {target placed rest source : List DomNode} {s : SyncState} {next : DomNode}

theorem mounted (walk : Walk target placed rest source s) : ((placed ++ rest).map DomNode.id).Nodup :=
  walk.distinct.sublist ((List.sublist_append_left (placed ++ rest) source).map DomNode.id)

/-- The state finds the nodes that are still to be placed. -/
theorem object_rest (walk : Walk target placed rest source s) {node : DomNode} (member : node ∈ rest) :
    s.object node.id = some node := by
  obtain ⟨before, after, rfl⟩ := List.append_of_mem member
  have found : ((placed ++ before) ++ node :: after).find? (fun n => n.id = node.id) = some node :=
    ChildList.find?_middle (by simpa using walk.mounted)
  rw [SyncState.object, walk.children, List.find?_append]
  rw [List.append_assoc] at found
  rw [found, Option.some_or]

/-- A child of the target with the key of `next` is the node that `next` is compared with. -/
theorem current_keyed (walk : Walk target placed rest (next :: source) s)
    (unique : (target.filterMap DomNode.key).Nodup) {child : DomNode} (member : child ∈ target) {key : String}
    (own : child.key = some key) (same : next.key = some key) : s.current (keyed target) next = some child := by
  have only : ∀ c ∈ target.filter (fun c => c.key = some key), c = child := fun c inside =>
    eq_of_key unique (List.mem_filter.mp inside).1 member (of_decide_eq_true (List.mem_filter.mp inside).2) own
  have some_ : target.filter (fun c => c.key = some key) ≠ [] :=
    List.ne_nil_of_mem (List.mem_filter.mpr ⟨member, decide_eq_true own⟩)
  have last : keyed target key = some child.id := by
    rw [keyed, List.getLast?_eq_some_getLast some_, only _ (List.getLast_mem some_)]
    rfl
  have ahead := walk.kept child member next List.mem_cons_self key own same
  simp only [SyncState.current, same, last, Option.bind_some, walk.object_rest ahead]

/-- The node that `next` is compared with is still to be placed, and has the key of `next`. -/
theorem current_rest (walk : Walk target placed rest (next :: source) s)
    (unique : (target.filterMap DomNode.key).Nodup) {current : DomNode}
    (found : s.current (keyed target) next = some current) : current ∈ rest ∧ current.key = next.key := by
  cases named : next.key with
  | some key =>
      simp only [SyncState.current, named] at found
      obtain ⟨i, named', _⟩ := Option.bind_eq_some_iff.mp found
      obtain ⟨child, last, _⟩ := Option.map_eq_some_iff.mp named'
      have inside := List.mem_filter.mp (List.mem_of_getLast? last)
      have own : child.key = some key := of_decide_eq_true inside.2
      have same : s.current (keyed target) next = some child := walk.current_keyed unique inside.1 own named
      simp only [SyncState.current, named, found, Option.some.injEq] at same
      subst same
      exact ⟨walk.kept current inside.1 next List.mem_cons_self key own named, own⟩
  | none =>
      simp only [SyncState.current, named, walk.cursor] at found
      obtain ⟨found, plain⟩ := Option.filter_eq_some_iff.mp found
      have keyless : current.key = none := DomNode.key_eq_none (by simpa using plain)
      refine ⟨?_, keyless⟩
      cases rest with
      | nil => cases found
      | cons head tail =>
          have first := walk.object_rest List.mem_cons_self
          simp only [ChildList.firstChild, List.head?_cons, Option.map_some, Option.bind_some, first,
            Option.some.injEq] at found
          exact found ▸ List.mem_cons_self

/-- The node that is compared with `next` comes to the cursor. -/
theorem moved {before after : List DomNode} {current : DomNode}
    (walk : Walk target placed (before ++ current :: after) source s) :
    (if s.cursor = some current.id then s.children
      else ChildList.insertBefore DomNode.id s.children current s.cursor) = placed ++ current :: (before ++ after) := by
  rw [walk.children, walk.cursor]
  cases before with
  | nil => exact if_pos rfl
  | cons head before =>
      have apart : head.id ≠ current.id := by
        have inside := (List.nodup_append.mp (List.map_append ▸ walk.mounted)).2.1
        simp only [List.cons_append, List.map_cons, List.map_append, List.nodup_cons, List.mem_append,
          List.mem_cons, not_or] at inside
        exact inside.1.2.1
      rw [if_neg (by simpa [ChildList.firstChild] using apart)]
      exact ChildList.insertBefore_move walk.mounted (List.cons_ne_nil head before)

/-- A result that is `next` itself, or the object of the node compared with it, stands in one place. -/
theorem distinct_onward {before after : List DomNode} {current result : DomNode}
    (walk : Walk target placed (before ++ current :: after) (next :: source) s)
    (object : result.id = current.id ∨ result.id = next.id) :
    ((placed ++ [result] ++ (before ++ after) ++ source).map DomNode.id).Nodup := by
  have distinct := walk.distinct
  rw [List.nodup_iff_count_le_one] at distinct ⊢
  intro i
  have once := distinct i
  simp only [List.map_append, List.map_cons, List.map_nil, List.count_append, List.count_cons, List.count_nil]
    at once ⊢
  rcases object with same | same <;> rw [same] <;> omega

/-- The walk goes on behind that result. -/
theorem onward {before after : List DomNode} {current result : DomNode} {s' : SyncState}
    (walk : Walk target placed (before ++ current :: after) (next :: source) s)
    (uniqueSource : ((next :: source).filterMap DomNode.key).Nodup) (sameKey : current.key = next.key)
    (object : result.id = current.id ∨ result.id = next.id)
    (children : s'.children = placed ++ result :: (before ++ after))
    (cursor : s'.cursor = ChildList.firstChild DomNode.id (before ++ after)) :
    Walk target (placed ++ [result]) (before ++ after) source s' where
  children := children.trans (List.append_cons placed result (before ++ after))
  cursor := cursor
  distinct := walk.distinct_onward object
  within := ((List.Sublist.refl before).append (List.sublist_cons_self current after)).trans walk.within
  kept := by
    intro child member later inside key own same
    have ahead := walk.kept child member later (List.mem_cons_of_mem next inside) key own same
    have other : child ≠ current := by
      rintro rfl
      rw [List.filterMap_cons_some (sameKey.symm.trans own)] at uniqueSource
      exact (List.nodup_cons.mp uniqueSource).1 (List.mem_filterMap.mpr ⟨later, inside, same⟩)
    simpa [other] using ahead

theorem fresh (walk : Walk target placed rest (next :: source) s) : next.id ∉ (placed ++ rest).map DomNode.id := by
  have apart := List.nodup_append.mp (List.map_append ▸ walk.distinct)
  exact fun member => apart.2.2 _ member _ List.mem_cons_self rfl

/-- A node without a counterpart is put in at the cursor. -/
theorem insert {update : DomNode → DomNode} (walk : Walk target placed rest (next :: source) s)
    (unique : (target.filterMap DomNode.key).Nodup) (found : s.current (keyed target) next = none) :
    Stands target next next ∧
      Walk target (placed ++ [next]) rest source (syncNext (keyed target) update next s) := by
  have unkeyed : ∀ child ∈ target, ∀ key, child.key = some key → next.key ≠ some key := by
    intro child member key own same
    rw [walk.current_keyed unique member own same] at found
    cases found
  refine ⟨⟨next.isEqualNode_refl, fun child member key own same =>
    absurd same (unkeyed child member key own)⟩, ?_⟩
  simp only [syncNext, found]
  exact {
    children := by
      rw [walk.children, walk.cursor, ChildList.insertBefore_fresh walk.mounted walk.fresh]
      exact List.append_cons placed next rest
    cursor := walk.cursor
    distinct := by
      have order : (placed ++ rest ++ next :: source).Perm (placed ++ [next] ++ rest ++ source) := by
        rw [List.append_assoc, List.append_assoc, List.append_assoc]
        exact List.Perm.append_left placed List.perm_middle
      exact (order.map DomNode.id).nodup_iff.mp walk.distinct
    within := walk.within
    kept := fun child member later inside =>
      walk.kept child member later (List.mem_cons_of_mem next inside) }

/-- A node with a counterpart is placed as that object made equal, or itself where the node names differ. -/
theorem compare {update : DomNode → DomNode} {current : DomNode}
    (walk : Walk target placed rest (next :: source) s) (unique : (target.filterMap DomNode.key).Nodup)
    (uniqueSource : ((next :: source).filterMap DomNode.key).Nodup)
    (found : s.current (keyed target) next = some current)
    (updates : current.nodeType = next.nodeType → current.nodeName = next.nodeName →
      (update current).isEqualNode next = true ∧ (update current).id = current.id) :
    ∃ result rest', Stands target next result ∧
      Walk target (placed ++ [result]) rest' source (syncNext (keyed target) update next s) := by
  obtain ⟨member, sameKey⟩ := walk.current_rest unique found
  have fresh := walk.fresh
  obtain ⟨before, after, rfl⟩ := List.append_of_mem member
  have only : ∀ child ∈ target, ∀ key, child.key = some key → next.key = some key → child = current :=
    fun child inside key own same =>
      eq_of_key unique inside (walk.within.subset member) own (sameKey.trans same)
  have distinct : ∀ result : DomNode, result.id = current.id ∨ result.id = next.id →
      ((placed ++ result :: (before ++ after)).map DomNode.id).Nodup := by
    intro result object
    rw [List.append_cons]
    exact (walk.distinct_onward object).sublist ((List.sublist_append_left _ source).map DomNode.id)
  simp only [syncNext, found, walk.moved]
  by_cases differ : current.nodeType ≠ next.nodeType ∨ current.nodeName ≠ next.nodeName
  · -- another kind of node: `next` itself takes the place
    have fresh' : next.id ∉ (placed ++ current :: (before ++ after)).map DomNode.id := by
      refine fun member => fresh ((List.Perm.mem_iff (List.Perm.map DomNode.id ?_)).mpr member)
      exact List.Perm.append_left placed List.perm_middle
    have replaced := ChildList.replaceChild_middle (distinct current (Or.inl rfl)) fresh'
    refine ⟨next, before ++ after, ⟨next.isEqualNode_refl, ?_⟩, ?_⟩
    · intro child inside key own same
      obtain rfl := only child inside key own same
      have elements : child.nodeType = next.nodeType :=
        (DomNode.nodeType_of_key own).trans (DomNode.nodeType_of_key same).symm
      rw [if_neg (differ.resolve_left (not_not.mpr elements))]
    · rw [if_pos differ, replaced]
      exact walk.onward uniqueSource sameKey (Or.inr rfl) rfl
        (ChildList.nextSibling_middle (distinct next (Or.inr rfl)))
  · obtain ⟨sameType, sameName⟩ := not_or.mp differ
    obtain ⟨equal, object⟩ := updates (not_not.mp sameType) (not_not.mp sameName)
    have changed := ChildList.modify_middle (f := update) (distinct current (Or.inl rfl))
    refine ⟨update current, before ++ after, ⟨equal, ?_⟩, ?_⟩
    · intro child inside key own same
      obtain rfl := only child inside key own same
      rw [object, if_pos (not_not.mp sameName)]
    · rw [if_neg differ, changed]
      exact walk.onward uniqueSource sameKey (Or.inl object) rfl
        (object ▸ ChildList.nextSibling_middle (distinct (update current) (Or.inl object)))

end Walk

/-- One turn: a child that equals `next` is placed, and the walk goes on behind it. -/
theorem syncNext_walk {target placed rest source : List DomNode} {s : SyncState} {next : DomNode}
    {update : DomNode → DomNode} (walk : Walk target placed rest (next :: source) s)
    (unique : (target.filterMap DomNode.key).Nodup) (uniqueSource : ((next :: source).filterMap DomNode.key).Nodup)
    (updates : ∀ current ∈ rest, current.nodeType = next.nodeType → current.nodeName = next.nodeName →
      (update current).isEqualNode next = true ∧ (update current).id = current.id) :
    ∃ result rest', Stands target next result ∧
      Walk target (placed ++ [result]) rest' source (syncNext (keyed target) update next s) := by
  cases found : s.current (keyed target) next with
  | none => exact ⟨next, rest, walk.insert unique found⟩
  | some current =>
      exact walk.compare unique uniqueSource found (updates current (walk.current_rest unique found).1)

/-- The whole walk places a child for every node of the source. -/
theorem syncSources_walk {target placed rest source : List DomNode} {s : SyncState}
    (walk : Walk target placed rest source s) (unique : (target.filterMap DomNode.key).Nodup)
    (uniqueSource : (source.filterMap DomNode.key).Nodup)
    (updates : ∀ next ∈ source, ∀ current ∈ target, current.nodeType = next.nodeType →
      current.nodeName = next.nodeName →
      (updated next current).isEqualNode next = true ∧ (updated next current).id = current.id) :
    ∃ results rest', List.Forall₂ (Stands target) source results ∧
      Walk target (placed ++ results) rest' [] (syncSources (keyed target) source s) := by
  induction source generalizing placed rest s with
  | nil =>
      rw [syncSources]
      exact ⟨[], rest, List.Forall₂.nil, (List.append_nil placed).symm ▸ walk⟩
  | cons next source ih =>
      obtain ⟨result, rest', stands, walk'⟩ := syncNext_walk walk unique uniqueSource fun current member =>
        updates next List.mem_cons_self current (walk.within.subset member)
      obtain ⟨results, rest'', others, walked⟩ := ih walk'
        (uniqueSource.sublist ((List.sublist_cons_self next source).filterMap DomNode.key))
        fun later member => updates later (List.mem_cons_of_mem next member)
      rw [syncSources]
      exact ⟨result :: results, rest'', List.Forall₂.cons stands others, by simpa using walked⟩

/-- The walk starts with nothing placed. -/
theorem ViewPair.start {target source : List DomNode} (pair : ViewPair target source) :
    Walk target [] target source (syncStart target) where
  children := rfl
  cursor := rfl
  distinct := by
    rw [List.nil_append, List.map_append]
    exact pair.distinct.sublist ((ids_sublist target).append (ids_sublist source))
  within := List.Sublist.refl target
  kept := fun _ member _ _ _ _ _ => member

/-- The children are made those of the source if the nodes that are compared are made equal. -/
theorem syncChildren_stands {target source : List DomNode} (pair : ViewPair target source)
    (updates : ∀ next ∈ source, ∀ current ∈ target, current.nodeType = next.nodeType →
      current.nodeName = next.nodeName →
      (updated next current).isEqualNode next = true ∧ (updated next current).id = current.id) :
    List.Forall₂ (Stands target) source (syncChildren target source) := by
  obtain ⟨results, rest, stands, walk⟩ := syncSources_walk pair.start pair.uniqueTarget pair.uniqueSource updates
  have done : syncChildren target source = results := by
    rw [syncChildren, SyncState.finish, walk.children, walk.cursor, ChildList.removeFrom_rest walk.mounted,
      List.nil_append]
  rw [done]
  exact stands

end Walks

/-- A mounted node of the same type and name becomes equal to `next` and stays the same object. -/
theorem updated_equal (next current : DomNode) (pair : ViewPair current.childNodes next.childNodes)
    (sameType : current.nodeType = next.nodeType) (sameName : current.nodeName = next.nodeName) :
    (updated next current).isEqualNode next = true ∧ (updated next current).id = current.id := by
  induction next using DomNode.induct generalizing current with
  | element id' name' attributes' children' ih =>
      unfold updated
      split
      · next equal => exact ⟨equal, rfl⟩
      · cases current with
        | element id name attributes children =>
            have below := syncChildren_stands pair fun next inside current mounted =>
              ih next inside current (pair.below mounted inside)
            have children_equal : isEqualNodes (syncChildren children children') children' = true :=
              isEqualNodes_iff.mpr (below.flip.imp fun _ _ stands => stands.equal)
            refine ⟨?_, rfl⟩
            show (decide (name = name') && sameAttributes (syncAttributes attributes attributes') attributes' &&
              isEqualNodes (syncChildren children children') children') = true
            have names : name = name' := sameName
            rw [children_equal, sameAttributes_sync, decide_eq_true names]
            rfl
        | character id kind value => cases kind <;> cases sameType
  | character id' kind' value' =>
      unfold updated
      split
      · next equal => exact ⟨equal, rfl⟩
      · cases current with
        | element id name attributes children => cases kind' <;> cases sameType
        | character id kind value =>
            have same : kind = kind' := by
              cases kind <;> cases kind' <;> first | rfl | cases sameType
              exact congrArg CharacterKind.processingInstruction sameName
            exact ⟨by simp [DomNode.isEqualNode, same], rfl⟩

/--
After `syncChildren` the children of the target equal those of the source one by
one. Where a child of the target has the key of a node of the source, the same
object stands there if the node names agree too, else the node of the source.
-/
theorem syncChildren_reuses (target source : List DomNode) (pair : ViewPair target source) :
    isEqualNodes (syncChildren target source) source = true ∧
      List.Forall₂ (fun next result => ∀ child ∈ target, ∀ key, child.key = some key → next.key = some key →
        result.id = if child.nodeName = next.nodeName then child.id else next.id)
        source (syncChildren target source) := by
  have stands := syncChildren_stands pair fun next drawn current mounted =>
    updated_equal next current (pair.below mounted drawn)
  exact ⟨isEqualNodes_iff.mpr (stands.flip.imp fun _ _ stands => stands.equal),
    stands.imp fun _ _ stands => stands.object⟩

/-- An element with the attribute `data-fm-key`. -/
def keyedElement (id : Nat) (nodeName key : String) (childNodes : List DomNode) : DomNode :=
  .element id nodeName ((∅ : Attributes).insert "data-fm-key" key) childNodes

/-- Two cards change places, and the text in the first one is another. -/
def cards : List DomNode :=
  [keyedElement 1 "DIV" "node:ac" [.character 2 .text "ac"], keyedElement 3 "DIV" "node:a" []]

def redrawnCards : List DomNode :=
  [keyedElement 4 "DIV" "node:a" [], keyedElement 5 "DIV" "node:ac" [.character 6 .text "gateway"]]

theorem uniqueKeys_leaf {node : DomNode} (leaf : node.childNodes = []) : UniqueKeys node.childNodes := by
  rw [leaf]
  exact .siblings List.nodup_nil fun child member => absurd member List.not_mem_nil

/-- A node without children has no sibling to share its key with. -/
theorem uniqueKeys_single {node : DomNode} (leaf : node.childNodes = []) : UniqueKeys [node] := by
  refine .siblings ?_ fun child member => List.mem_singleton.mp member ▸ uniqueKeys_leaf leaf
  rw [List.filterMap_cons]
  split
  · exact List.nodup_nil
  · exact List.nodup_singleton _

theorem viewPair_cards : ViewPair cards redrawnCards where
  distinct := by decide
  targetKeys := by
    refine .siblings (by decide +kernel) fun child member => ?_
    rcases List.mem_pair.mp member with rfl | rfl
    · exact uniqueKeys_single rfl
    · exact uniqueKeys_leaf rfl
  sourceKeys := by
    refine .siblings (by decide +kernel) fun child member => ?_
    rcases List.mem_pair.mp member with rfl | rfl
    · exact uniqueKeys_leaf rfl
    · exact uniqueKeys_single rfl

theorem syncChildren_reuses_cards :
    isEqualNodes (syncChildren cards redrawnCards) redrawnCards = true ∧
      (syncChildren cards redrawnCards).map DomNode.id = [3, 1] :=
  ⟨(syncChildren_reuses cards redrawnCards viewPair_cards).1, by decide +kernel⟩

/-- A card that is drawn with another node name is not the same object. -/
theorem syncChildren_replaces_object :
    ¬ ∀ target source : List DomNode, ViewPair target source →
      List.Forall₂ (fun next result => ∀ child ∈ target, ∀ key, child.key = some key → next.key = some key →
        result.id = child.id) source (syncChildren target source) := by
  intro reused
  have pair : ViewPair [keyedElement 1 "DIV" "node:ac" []] [keyedElement 2 "A" "node:ac" []] :=
    ⟨by decide, uniqueKeys_single rfl, uniqueKeys_single rfl⟩
  have result : syncChildren [keyedElement 1 "DIV" "node:ac" []] [keyedElement 2 "A" "node:ac" []] =
      [keyedElement 2 "A" "node:ac" []] := by
    rfl
  have same := reused _ _ pair
  rw [result] at same
  cases same with
  | cons head tail =>
      have object := head _ List.mem_cons_self "node:ac" (by decide +kernel) (by decide +kernel)
      exact absurd object (by decide)

end XWrt.Fakemesh
