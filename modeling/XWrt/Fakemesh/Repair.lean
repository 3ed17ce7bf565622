import XWrt.Fakemesh.Topology

/-!
# What the cycle repair changes

The repair of `get_topology` gives the controller as parent to the node at which
its walk starts, not to the node at which the walk fails. A node that merely
hangs below a faulty one keeps its parent only when some node of its chain comes
earlier in the list, so what is changed depends on the order of the nodes.
-/

namespace XWrt.Fakemesh

open XWrt.Foundation

/-! ## One turn -/

theorem repairAt_getElem? {nodes : List Node} {i j : ℕ} (other : j ≠ i) : (repairAt nodes i)[j]? = nodes[j]? := by
  unfold repairAt
  split
  · split
    · exact List.getElem?_set_ne other.symm
    · rfl
  · rfl

theorem foldl_repairAt_getElem? {nodes : List Node} {turns : List ℕ} {j : ℕ} (other : j ∉ turns) :
    (turns.foldl repairAt nodes)[j]? = nodes[j]? := by
  induction turns generalizing nodes with
  | nil => rfl
  | cons i turns ih =>
      rw [List.mem_cons, not_or] at other
      rw [List.foldl_cons, ih other.2, repairAt_getElem? other.1]

theorem repairAt_up {nodes : List Node} (table : NodeTable nodes) {i : ℕ} {n : Node} (here : nodes[i]? = some n) {id : String}
    (other : id ≠ n.id) : up (repairAt nodes i) id = up nodes id := by
  obtain ⟨inside, rfl⟩ := List.getElem?_eq_some_iff.mp here
  rw [repairAt, dif_pos inside]
  split
  · have moved := setParent_up inside table
    rw [setParent] at moved
    rw [moved, Function.update_of_ne other]
  · rfl

theorem repairAt_attached {nodes : List Node} (table : NodeTable nodes) {i : ℕ} {n : Node} (here : nodes[i]? = some n)
    (attached : Attached (up nodes) "ac" n.id) : (repairAt nodes i)[i]? = some n := by
  obtain ⟨inside, rfl⟩ := List.getElem?_eq_some_iff.mp here
  have kept : ¬(nodes[i].id ≠ "ac" ∧ needsRepair nodes [] nodes[i] (List.getElem_mem inside) = true) :=
    fun needed => (needsRepair_iff table.distinct (List.getElem_mem inside)).mp needed.2 attached
  rw [repairAt, dif_pos inside, if_neg kept, here]

theorem repairAt_detached {nodes : List Node} (table : NodeTable nodes) {i : ℕ} {n : Node} (here : nodes[i]? = some n)
    (detached : ¬Attached (up nodes) "ac" n.id) : (repairAt nodes i)[i]? = some { n with parentId := some "ac" } := by
  obtain ⟨inside, rfl⟩ := List.getElem?_eq_some_iff.mp here
  have apart : nodes[i].id ≠ "ac" := fun isRoot => detached (isRoot ▸ attached_root _ _)
  have needed := (needsRepair_iff table.distinct (List.getElem_mem inside)).mpr detached
  rw [repairAt, dif_pos inside, if_pos ⟨apart, needed⟩, List.getElem?_set_self inside]

section Turn

variable {before after : List Node} {n : Node}

theorem getElem?_turn : (before ++ n :: after)[before.length]? = some n := by simp

/-- The turns before a node change no parents but those of the nodes before it. -/
theorem agree_before (table : NodeTable (before ++ n :: after)) {id : String} (later : id ∉ before.map Node.id) :
    up ((List.range before.length).foldl repairAt (before ++ n :: after)) id = up (before ++ n :: after) id := by
  have turns : ∀ k ≤ before.length, up ((List.range k).foldl repairAt (before ++ n :: after)) id = up (before ++ n :: after) id := by
    intro k bound
    induction k with
    | zero => rfl
    | succ k ih =>
        have inside : k ≤ (before ++ n :: after).length := by
          rw [List.length_append]
          omega
        obtain ⟨repaired, -⟩ := repair_prefix table k inside
        rw [List.range_succ, List.foldl_append, List.foldl_cons, List.foldl_nil]
        have here : ((List.range k).foldl repairAt (before ++ n :: after))[k]? = some before[k] := by
          rw [foldl_repairAt_getElem? (by simp), List.getElem?_append_left (by omega), List.getElem?_eq_getElem]
        rw [repairAt_up repaired.table here, ih (by omega)]
        rintro rfl
        exact later (List.mem_map_of_mem (List.getElem_mem _))
  exact turns before.length le_rfl

/-- At its turn a node is attached when it was, or when its chain meets a node before it. -/
theorem attached_turn (table : NodeTable (before ++ n :: after)) :
    Attached (up ((List.range before.length).foldl repairAt (before ++ n :: after))) "ac" n.id ↔
      Attached (up (before ++ n :: after)) "ac" n.id ∨ ∃ a ∈ before, Ancestor (up (before ++ n :: after)) a.id n.id := by
  have bound : before.length ≤ (before ++ n :: after).length := by simp
  obtain ⟨-, attached⟩ := repair_prefix table before.length bound
  rw [List.map_append, ← List.length_map (f := Node.id), List.take_left, List.length_map] at attached
  have moved := @attached_iff_of_agree _ _ _ "ac" n.id (fun id => id ∈ before.map Node.id)
    (fun id later => agree_before table later) attached
  rw [moved]
  refine or_congr_right ?_
  constructor
  · rintro ⟨id, inside, same | above⟩
    · have distinct := table.distinct
      rw [List.map_append, List.map_cons, List.nodup_append] at distinct
      exact absurd same.symm (distinct.2.2 id inside n.id (.head _))
    · obtain ⟨a, member, rfl⟩ := List.mem_map.mp inside
      exact ⟨a, member, above⟩
  · rintro ⟨a, member, above⟩
    exact ⟨a.id, List.mem_map_of_mem member, .inr above⟩

end Turn

/-! ## The nodes that keep their parents -/

/-- The repair leaves the parent of the node as it was. -/
def Kept (nodes : List Node) (n : Node) : Prop := parentMap (repairCycles nodes) n.id = n.parentId

theorem kept_iff {before after : List Node} {n : Node} (table : NodeTable (before ++ n :: after)) :
    Kept (before ++ n :: after) n ↔
      Attached (up (before ++ n :: after)) "ac" n.id ∨ ∃ a ∈ before, Ancestor (up (before ++ n :: after)) a.id n.id := by
  have bound : before.length ≤ (before ++ n :: after).length := by simp
  obtain ⟨early, -⟩ := repair_prefix table before.length bound
  have final := (repairCycles_repaired table).1.table.distinct
  have turns : List.range (before ++ n :: after).length =
      List.range before.length ++ before.length :: List.range' (before.length + 1) after.length := by
    rw [List.length_append, List.length_cons, List.range_add, ← List.range'_eq_map_range, List.range'_succ]
  rw [← attached_turn table, Kept]
  unfold repairCycles at final ⊢
  rw [turns, List.foldl_append, List.foldl_cons] at final ⊢
  generalize stage : (List.range before.length).foldl repairAt (before ++ n :: after) = current at early final ⊢
  have here : current[before.length]? = some n := by
    rw [← stage, foldl_repairAt_getElem? (by simp), getElem?_turn]
  -- The later turns leave the node alone.
  have last : ∀ m, (repairAt current before.length)[before.length]? = some m → m.id = n.id →
      parentMap ((List.range' (before.length + 1) after.length).foldl repairAt (repairAt current before.length)) n.id =
        m.parentId := by
    intro m turn same
    have later : before.length ∉ List.range' (before.length + 1) after.length := by
      rw [List.mem_range'_1]
      omega
    rw [← foldl_repairAt_getElem? later] at turn
    rw [← same]
    exact parentMap_of_mem final (List.mem_of_getElem? turn)
  constructor
  · intro kept
    by_contra detached
    rw [last _ (repairAt_detached early.table here detached) rfl] at kept
    -- A node below the controller was attached from the start.
    obtain ⟨ac, acMember, acId, -⟩ := table.root
    have member : n ∈ before ++ n :: after := by simp
    have parent : up (before ++ n :: after) n.id = some "ac" :=
      (up_eq_some table.distinct member).mpr ⟨kept.symm, ac, by rw [← kept, nodeById_eq_some table.distinct]; exact ⟨acMember, acId⟩, acId⟩
    exact detached (early.attached n.id (attached_iff.mpr (.inr (.of_parent parent))))
  · intro attached
    exact last n (repairAt_attached early.table here attached) rfl

/-! ## Faulty and hanging nodes -/

/-- The node lies on a cycle, which may be a link to itself. -/
def OnCycle (nodes : List Node) (n : Node) : Prop := Ancestor (up nodes) n.id n.id

/-- The parent of the node is unknown, or the node lies on a cycle. -/
def Faulty (nodes : List Node) (n : Node) : Prop := n.id ≠ "ac" ∧ (nodeById nodes n.parentId = none ∨ OnCycle nodes n)

/-- The chain of the node does not come to the controller, but the fault is further up. -/
def Hanging (nodes : List Node) (n : Node) : Prop := ¬Attached (up nodes) "ac" n.id ∧ ¬Faulty nodes n

/-- Two nodes of one cycle. -/
def SameCycle (nodes : List Node) (n m : Node) : Prop := Ancestor (up nodes) n.id m.id ∧ Ancestor (up nodes) m.id n.id

section Classes

variable {nodes : List Node} (table : NodeTable nodes)
include table

theorem up_eq_none {n : Node} (member : n ∈ nodes) : up nodes n.id = none ↔ nodeById nodes n.parentId = none := by
  constructor
  · intro top
    cases found : nodeById nodes n.parentId with
    | none => rfl
    | some next =>
        have parent := (up_eq_some table.distinct member).mpr ⟨(nodeById_mem found).2, next, found, rfl⟩
        rw [top] at parent
        cases parent
  · intro unknown
    cases parent : up nodes n.id with
    | none => rfl
    | some b =>
        obtain ⟨-, next, found, -⟩ := (up_eq_some table.distinct member).mp parent
        rw [unknown] at found
        cases found

theorem not_attached_of_onCycle {n : Node} (cycle : OnCycle nodes n) : ¬Attached (up nodes) "ac" n.id :=
  fun attached => attached.not_ancestor_self (up_controller table) cycle

/-- A hanging node has a parent in the list, which is not itself. -/
theorem Hanging.exists_parent {n : Node} (member : n ∈ nodes) (hanging : Hanging nodes n) :
    ∃ p ∈ nodes, p ≠ n ∧ Ancestor (up nodes) p.id n.id := by
  have apart : n.id ≠ "ac" := fun isRoot => hanging.1 (isRoot ▸ attached_root _ _)
  have sound : ¬(nodeById nodes n.parentId = none ∨ OnCycle nodes n) := fun fault => hanging.2 ⟨apart, fault⟩
  rw [not_or] at sound
  obtain ⟨p, found⟩ := Option.ne_none_iff_exists'.mp sound.1
  have parent := (up_eq_some table.distinct member).mpr ⟨(nodeById_mem found).2, p, found, rfl⟩
  refine ⟨p, (nodeById_mem found).1, ?_, .of_parent parent⟩
  rintro rfl
  exact sound.2 (.of_parent parent)

end Classes

/-! ## Other orders of the list -/

section Order

variable {nodes order : List Node} (table : NodeTable nodes) (perm : order.Perm nodes)
include table perm

theorem nodeTable_perm : NodeTable order := by
  obtain ⟨ac, member, id, parent⟩ := table.root
  exact ⟨((perm.map Node.id).nodup_iff).mpr table.distinct, ac, perm.mem_iff.mpr member, id, parent⟩

theorem nodeById_perm (id : Option String) : nodeById order id = nodeById nodes id := by
  cases id with
  | none => rfl
  | some key =>
      refine Option.ext fun n => ?_
      rw [nodeById_eq_some (nodeTable_perm table perm).distinct, nodeById_eq_some table.distinct, perm.mem_iff]

theorem up_perm : up order = up nodes := by
  funext id
  rw [up, up, parentMap, parentMap, nodeById_perm table perm]
  congr 1
  funext p
  exact decide_eq_decide.mpr (perm.map Node.id).mem_iff

end Order

/-! ## How much is changed -/

section Extent

variable {nodes : List Node} (table : NodeTable nodes)
include table

/-- Of every cycle the node that comes first in the list is cut, and no other. -/
theorem exists_cut {n : Node} (member : n ∈ nodes) (cycle : OnCycle nodes n) :
    ∃ m, (m ∈ nodes ∧ SameCycle nodes m n ∧ ¬Kept nodes m) ∧
      ∀ other, other ∈ nodes ∧ SameCycle nodes other n ∧ ¬Kept nodes other → other = m := by
  classical
  have found : (nodes.find? fun m => SameCycle nodes m n).isSome := by
    rw [List.find?_isSome]
    exact ⟨n, member, decide_eq_true ⟨cycle, cycle⟩⟩
  obtain ⟨m, first⟩ := Option.isSome_iff_exists.mp found
  obtain ⟨same, before, after, split, none⟩ := List.find?_eq_some_iff_append.mp first
  have same := of_decide_eq_true same
  have earlier : ∀ a ∈ before, ¬SameCycle nodes a n := fun a inside => by simpa using none a inside
  refine ⟨m, ⟨List.mem_of_find?_eq_some first, same, ?_⟩, ?_⟩
  · subst split
    rw [kept_iff table]
    rintro (attached | ⟨a, inside, above⟩)
    · exact not_attached_of_onCycle table (same.1.trans same.2) attached
    · exact earlier a inside ⟨above.trans same.1, (above.trans same.1).back cycle⟩
  · rintro other ⟨inside, same', changed⟩
    rw [split] at inside
    rcases List.mem_append.mp inside with there | there
    · exact absurd same' (earlier other there)
    · rcases List.mem_cons.mp there with rfl | there
      · rfl
      · obtain ⟨between, rest, rfl⟩ := List.append_of_mem there
        have again : nodes = (before ++ m :: between) ++ other :: rest := by rw [split]; simp
        rw [again] at table same same' changed
        exact absurd ((kept_iff table).mpr (.inr ⟨m, by simp, same.1.trans same'.2⟩)) changed

/-- Only faulty nodes are changed exactly when every hanging node comes after some node of its chain. -/
theorem changed_faulty_iff :
    (∀ n ∈ nodes, ¬Kept nodes n → Faulty nodes n) ↔ ∀ before n after, nodes = before ++ n :: after → Hanging nodes n →
      ∃ a ∈ before, Ancestor (up nodes) a.id n.id := by
  constructor
  · rintro only before n after rfl hanging
    have kept : Kept (before ++ n :: after) n := by
      by_contra changed
      exact hanging.2 (only n (by simp) changed)
    exact ((kept_iff table).mp kept).resolve_left hanging.1
  · intro later n member changed
    obtain ⟨before, after, rfl⟩ := List.append_of_mem member
    rw [kept_iff table, not_or] at changed
    by_contra sound
    exact changed.2 (later before n after rfl ⟨changed.1, sound⟩)

end Extent

/-- The repair changes no more than it needs to, whatever the order of the list. -/
structure MinimalRepair (nodes : List Node) : Prop where
  onlyFaulty : ∀ n ∈ nodes, ¬Kept nodes n → Faulty nodes n
  onePerCycle : ∀ n ∈ nodes, OnCycle nodes n → ∃ m, (m ∈ nodes ∧ SameCycle nodes m n ∧ ¬Kept nodes m) ∧
    ∀ other, other ∈ nodes ∧ SameCycle nodes other n ∧ ¬Kept nodes other → other = m
  anyOrder : ∀ order : List Node, order.Perm nodes → ∀ n ∈ nodes, ¬OnCycle nodes n → (Kept order n ↔ Kept nodes n)

/-- The repair is minimal exactly where no node hangs below a faulty one. For one order of the list it changes faulty
nodes only exactly where every hanging node comes after some node of its chain. -/
theorem minimalRepair_iff {nodes : List Node} (table : NodeTable nodes) :
    (MinimalRepair nodes ↔ ∀ n ∈ nodes, ¬Hanging nodes n) ∧
      ((∀ n ∈ nodes, ¬Kept nodes n → Faulty nodes n) ↔ ∀ before n after, nodes = before ++ n :: after → Hanging nodes n →
        ∃ a ∈ before, Ancestor (up nodes) a.id n.id) := by
  refine ⟨⟨?_, ?_⟩, changed_faulty_iff table⟩
  · intro minimal n member hanging
    have apart : ¬OnCycle nodes n := by
      intro cycle
      have isRoot : n.id ≠ "ac" := fun same => hanging.1 (same ▸ attached_root _ _)
      exact hanging.2 ⟨isRoot, .inr cycle⟩
    obtain ⟨p, inside, other, above⟩ := hanging.exists_parent table member
    obtain ⟨before, after, split⟩ := List.append_of_mem member
    -- With the node first it is changed, with the node last it is kept.
    have first : (n :: (before ++ after)).Perm nodes := split ▸ List.perm_middle.symm
    have last : ((before ++ after) ++ n :: []).Perm nodes := (List.perm_append_singleton n _).trans first
    have changed : ¬Kept (n :: (before ++ after)) n := by
      have kept := @kept_iff [] (before ++ after) n (nodeTable_perm table first)
      rw [List.nil_append, up_perm table first] at kept
      rw [kept]
      rintro (attached | ⟨a, none, -⟩)
      · exact hanging.1 attached
      · exact absurd none List.not_mem_nil
    have kept : Kept ((before ++ after) ++ n :: []) n := by
      rw [kept_iff (nodeTable_perm table last), up_perm table last]
      refine .inr ⟨p, ?_, above⟩
      rw [split] at inside
      simpa [other] using inside
    have same := minimal.anyOrder _ last n member apart
    exact changed ((minimal.anyOrder _ first n member apart).mpr (same.mp kept))
  · intro none
    have noneHangs : ∀ {n}, n ∈ nodes → ¬Attached (up nodes) "ac" n.id → Faulty nodes n := by
      intro n member detached
      by_contra sound
      exact none n member ⟨detached, sound⟩
    -- The nodes that are kept, apart from the cycles.
    have kept : ∀ {order : List Node}, order.Perm nodes → ∀ n ∈ nodes, ¬OnCycle nodes n →
        (Kept order n ↔ Attached (up nodes) "ac" n.id) := by
      intro order perm n member apart
      obtain ⟨before, after, rfl⟩ := List.append_of_mem (perm.mem_iff.mpr member)
      rw [kept_iff (nodeTable_perm table perm), up_perm table perm]
      refine or_iff_left_of_imp ?_
      rintro ⟨a, -, above⟩
      by_contra detached
      have unknown := (noneHangs member detached).2.resolve_right apart
      obtain ⟨parent, link⟩ := above.exists_parent
      rw [(up_eq_none table member).mpr unknown] at link
      cases link
    refine ⟨?_, fun n member cycle => exists_cut table member cycle, ?_⟩
    · refine (changed_faulty_iff table).mpr fun before n after split hanging => ?_
      exact absurd hanging (none n (split ▸ by simp))
    · intro order perm n member apart
      rw [kept perm n member apart, kept (.refl nodes) n member apart]

/-- A node with an unknown parent and one below it. -/
def lostNode : Node := ⟨"node_a", some "gone", none, none, 0⟩
def tailNode : Node := ⟨"node_t", some "node_a", none, none, 0⟩
def rootNode : Node := ⟨"ac", none, none, none, 0⟩

/-- The node that comes first loses a parent that is all right; in the other order it keeps it. -/
theorem tailNode_not_minimal :
    NodeTable [rootNode, tailNode, lostNode] ∧ ¬Kept [rootNode, tailNode, lostNode] tailNode ∧
      ¬Faulty [rootNode, tailNode, lostNode] tailNode ∧ Kept [rootNode, lostNode, tailNode] tailNode := by
  refine ⟨⟨by decide, rootNode, .head _, rfl, rfl⟩, by unfold Kept; decide +kernel, ?_, by unfold Kept; decide +kernel⟩
  rintro ⟨-, unknown | cycle⟩
  · exact absurd unknown (by decide)
  · have parent : up [rootNode, tailNode, lostNode] "node_t" = some "node_a" := by decide
    have top : up [rootNode, tailNode, lostNode] "node_a" = none := by decide
    rcases cycle.parent_or parent with same | above
    · exact absurd same (by decide)
    · obtain ⟨b, link⟩ := above.exists_parent
      rw [top] at link
      cases link

/-- A node below the controller, one with an unknown parent, and two that are each other's parents. -/
def mixedNodes : List Node :=
  [rootNode, ⟨"node_b", some "node_c", none, none, 0⟩, lostNode, ⟨"node_s", some "ac", none, none, 0⟩,
    ⟨"node_c", some "node_b", none, none, 0⟩]

theorem minimalRepair_lost : MinimalRepair mixedNodes := by
  have table : NodeTable mixedNodes := ⟨by decide, rootNode, .head _, rfl, rfl⟩
  have first : Ancestor (up mixedNodes) "node_c" "node_b" := .of_parent (by decide)
  have second : Ancestor (up mixedNodes) "node_b" "node_c" := .of_parent (by decide)
  have below : Ancestor (up mixedNodes) "ac" "node_s" := .of_parent (by decide)
  refine (minimalRepair_iff table).1.mpr ?_
  simp only [mixedNodes, List.forall_mem_cons]
  refine ⟨fun root => root.1 (attached_root _ _), fun onCycle => onCycle.2 ⟨by decide, .inr (second.trans first)⟩,
    fun lost => lost.2 ⟨by decide, .inl (by decide)⟩, fun sound => sound.1 (attached_iff.mpr (.inr below)),
    fun onCycle => onCycle.2 ⟨by decide, .inr (first.trans second)⟩, List.forall_mem_nil _⟩

end XWrt.Fakemesh
