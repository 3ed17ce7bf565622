import XWrt.Foundation.Traversal

/-!
# The drawn node tree

`buildNodeTree` of `view/fakemesh/topology.js`. The view gets the nodes of
`get_topology` and hangs each one below the node its `parent_id` names. The
node objects live on from poll to poll; an object is written here as its id,
which no other object of the list has.
-/

namespace XWrt.Fakemesh

open XWrt.Foundation

/-- The `parent_id` of a node object. -/
inductive ParentRef where
  | undefined
  | null
  | id (name : String)
  deriving DecidableEq, Repr

/-- The property name that a reference is read as. -/
def ParentRef.key : ParentRef → String
  | .undefined => "undefined"
  | .null => "null"
  | .id name => name

/-- A node object of the view. -/
structure TreeNode where
  id : String
  role : Option String
  parentId : ParentRef
  children : List String
  deriving DecidableEq, Repr

/-- `n.role === 'controller' || (!n.role && n.id === 'ac')` -/
def isController (n : TreeNode) : Bool :=
  n.role = some "controller" || (n.role = none || n.role = some "") && n.id = "ac"

/-- The ids of a list of nodes. -/
def idsOf (nodes : List TreeNode) : List String := nodes.map TreeNode.id

/-- `nodeMap[key]` -/
def nodeMap (nodes : List TreeNode) (key : String) : Option String :=
  if key ∈ idsOf nodes then some key else none

/-- The root: the last controller, or the first node where there is none. -/
def findRoot (nodes : List TreeNode) : Option TreeNode :=
  match nodes.foldl (fun root n => if isController n then some n else root) none with
  | some root => some root
  | none => nodes.head?

/-- The object `parents`, which holds node objects of the list only. -/
structure ParentTable (nodes : List TreeNode) where
  parent : String → Option String
  inside : ∀ {a b}, parent a = some b → b ∈ idsOf nodes

namespace ParentTable

variable {nodes : List TreeNode}

def empty : ParentTable nodes := ⟨fun _ => none, fun held => nomatch held⟩

/-- `parents[id] = target` -/
def set (table : ParentTable nodes) (id target : String) (known : target ∈ idsOf nodes) :
    ParentTable nodes where
  parent := Function.update table.parent id (some target)
  inside := by
    intro a b held
    by_cases same : a = id
    · rw [same, Function.update_self] at held
      exact Option.some.inj held ▸ known
    · rw [Function.update_of_ne same] at held
      exact table.inside held

@[simp] theorem set_parent_self (table : ParentTable nodes) {id target : String}
    (known : target ∈ idsOf nodes) : (table.set id target known).parent id = some target :=
  Function.update_self ..

theorem set_parent_of_ne (table : ParentTable nodes) {a id target : String}
    (known : target ∈ idsOf nodes) (other : a ≠ id) :
    (table.set id target known).parent a = table.parent a :=
  Function.update_of_ne other ..

end ParentTable

/-- `nodeMap[n.parent_id] || root` -/
def targetOf (nodes : List TreeNode) (root : String) (n : TreeNode) : String :=
  (nodeMap nodes n.parentId.key).getD root

theorem targetOf_mem {nodes : List TreeNode} {root : String} (known : root ∈ idsOf nodes)
    (n : TreeNode) : targetOf nodes root n ∈ idsOf nodes := by
  unfold targetOf nodeMap
  split
  · assumption
  · exact known

/-- The loop that fills `parents`. -/
def linkParents (nodes : List TreeNode) (root : String) (known : root ∈ idsOf nodes) :
    ParentTable nodes :=
  nodes.foldl (fun table n =>
    if n.id = root then table
    else table.set n.id (targetOf nodes root n) (targetOf_mem known n)) .empty

/-- The ids that the object `visited` does not hold. -/
def unseen (nodes : List TreeNode) (visited : List String) : List String :=
  (idsOf nodes).filter (· ∉ visited)

theorem unseen_shrinks {nodes : List TreeNode} {visited : List String} {current : String}
    (known : current ∈ idsOf nodes) (fresh : current ∉ visited) :
    (unseen nodes (current :: visited)).length < (unseen nodes visited).length := by
  have refined : unseen nodes (current :: visited) =
      (unseen nodes visited).filter (· ≠ current) := by
    rw [unseen, unseen, List.filter_filter]
    refine List.filter_congr fun m _ => ?_
    simp [List.mem_cons, not_or]
  rw [refined, List.length_filter_lt_length_iff_exists]
  exact ⟨current, List.mem_filter.mpr ⟨known, decide_eq_true fresh⟩, by simp⟩

/-- The `while` loop: whether the walk up from `current` meets a node it has visited. -/
def meetsVisited {nodes : List TreeNode} (table : ParentTable nodes) (root : String)
    (visited : List String) (current : String) (_known : current ∈ idsOf nodes) : Bool :=
  if current = root then false
  else if _fresh : current ∈ visited then true
  else
    match next : table.parent current with
    | none => false
    | some parent =>
        meetsVisited table root (current :: visited) parent (table.inside next)
termination_by (unseen nodes visited).length
decreasing_by exact unseen_shrinks _known _fresh

/-- One turn of the loop that breaks cycles. -/
def breakCycle {nodes : List TreeNode} (root : String) (known : root ∈ idsOf nodes)
    (table : ParentTable nodes) (n : {id // id ∈ idsOf nodes}) : ParentTable nodes :=
  if n.1 = root then table
  else if meetsVisited table root [] n.1 n.2 then table.set n.1 root known
  else table

/-- The loop that breaks cycles. -/
def breakCycles {nodes : List TreeNode} (root : String) (known : root ∈ idsOf nodes)
    (table : ParentTable nodes) : ParentTable nodes :=
  (idsOf nodes).attach.foldl (breakCycle root known) table

/-- The loop that fills `children`, from the empty lists the first loop has stored. -/
def pushChildren {nodes : List TreeNode} (table : ParentTable nodes) : String → List String :=
  nodes.foldl (fun children n =>
    match table.parent n.id with
    | none => children
    | some parent => Function.update children parent (children parent ++ [n.id])) fun _ => []

theorem foldl_root_mem {nodes : List TreeNode} {start : Option TreeNode} {n : TreeNode}
    (found : nodes.foldl (fun root n => if isController n then some n else root) start = some n) :
    start = some n ∨ n ∈ nodes ∧ isController n = true := by
  induction nodes generalizing start with
  | nil => exact Or.inl found
  | cons first rest ih =>
      rcases ih found with early | ⟨member, role⟩
      · dsimp only at early
        split at early
        · rename_i role
          obtain rfl := Option.some.inj early
          exact Or.inr ⟨List.mem_cons_self, role⟩
        · exact Or.inl early
      · exact Or.inr ⟨List.mem_cons_of_mem _ member, role⟩

theorem foldl_root_isSome {nodes : List TreeNode} {start : Option TreeNode}
    (holds : start.isSome ∨ ∃ n ∈ nodes, isController n = true) :
    (nodes.foldl (fun root n => if isController n then some n else root) start).isSome := by
  induction nodes generalizing start with
  | nil => simpa using holds
  | cons first rest ih =>
      apply ih
      by_cases role : isController first = true
      · simp [role]
      · simpa [role] using holds

/-- The root is a controller where there is one, and the first node elsewhere. -/
theorem findRoot_spec {nodes : List TreeNode} {root : TreeNode}
    (found : findRoot nodes = some root) :
    root ∈ nodes ∧ (isController root = true ∨
      nodes.head? = some root ∧ ∀ n ∈ nodes, isController n = false) := by
  unfold findRoot at found
  split at found
  · rename_i controller last
    obtain rfl := Option.some.inj found
    rcases foldl_root_mem last with absent | ⟨member, role⟩
    · cases absent
    · exact ⟨member, Or.inl role⟩
  · rename_i absent
    refine ⟨List.mem_of_mem_head? found, Or.inr ⟨found, fun n member => ?_⟩⟩
    by_contra role
    have known : (nodes.foldl (fun root n => if isController n then some n else root) none).isSome :=
      foldl_root_isSome (Or.inr ⟨n, member, Bool.not_eq_false _ ▸ role⟩)
    rw [absent] at known
    cases known

theorem findRoot_known {nodes : List TreeNode} {root : TreeNode}
    (found : findRoot nodes = some root) : root.id ∈ idsOf nodes :=
  List.mem_map_of_mem (findRoot_spec found).1

/-- What `buildNodeTree` returns, and the node objects it leaves behind. -/
structure NodeTree where
  root : Option String
  nodes : List TreeNode
  deriving DecidableEq, Repr

/-- The assignment `n.children = []`. -/
def TreeNode.reset (n : TreeNode) : TreeNode := { n with children := [] }

/-- The loops after the first one. -/
def linkNodes (nodes : List TreeNode) : NodeTree :=
  match found : findRoot nodes with
  | none => ⟨none, nodes⟩
  | some root =>
      let known := findRoot_known found
      let parents := breakCycles root.id known (linkParents nodes root.id known)
      let children := pushChildren parents
      ⟨some root.id, nodes.map fun n => { n with children := children n.id }⟩

/-- `buildNodeTree` -/
def buildNodeTree (nodes : List TreeNode) : NodeTree := linkNodes (nodes.map TreeNode.reset)

/-! ## The parents -/

/-- The root has no entry in `parents` and every other node has one. -/
structure Linked {nodes : List TreeNode} (root : String) (table : ParentTable nodes) : Prop where
  top : table.parent root = none
  others : ∀ a ∈ idsOf nodes, a ≠ root → ∃ b, table.parent a = some b

section Link

variable {nodes rest : List TreeNode} {root : String} (known : root ∈ idsOf nodes)

/-- One turn of the loop that fills `parents`. -/
theorem link_other (table : ParentTable nodes) {a : String} (other : a ∉ idsOf rest ∨ a = root) :
    (rest.foldl (fun table n =>
      if n.id = root then table
      else table.set n.id (targetOf nodes root n) (targetOf_mem known n)) table).parent a =
      table.parent a := by
  induction rest generalizing table with
  | nil => rfl
  | cons n rest ih =>
      have later : a ∉ idsOf rest ∨ a = root :=
        other.imp_left fun absent member => absent (List.mem_cons_of_mem _ member)
      rw [List.foldl_cons, ih _ later]
      split
      · rfl
      · rename_i apart
        apply ParentTable.set_parent_of_ne
        rintro rfl
        rcases other with absent | same
        · exact absent List.mem_cons_self
        · exact apart same

theorem link_member (table : ParentTable nodes) (distinct : (idsOf rest).Nodup) {n : TreeNode}
    (member : n ∈ rest) (apart : n.id ≠ root) :
    (rest.foldl (fun table n =>
      if n.id = root then table
      else table.set n.id (targetOf nodes root n) (targetOf_mem known n)) table).parent n.id =
      some (targetOf nodes root n) := by
  induction rest generalizing table with
  | nil => cases member
  | cons first rest ih =>
      obtain ⟨fresh, distinct⟩ := List.nodup_cons.mp distinct
      rcases List.mem_cons.mp member with rfl | later
      · rw [List.foldl_cons, link_other known _ (Or.inl fresh), if_neg apart]
        exact table.set_parent_self _
      · exact ih _ distinct later

theorem linkParents_member (distinct : (idsOf nodes).Nodup) {n : TreeNode} (member : n ∈ nodes)
    (apart : n.id ≠ root) :
    (linkParents nodes root known).parent n.id = some (targetOf nodes root n) :=
  link_member known _ distinct member apart

theorem linkParents_linked (distinct : (idsOf nodes).Nodup) :
    Linked root (linkParents nodes root known) where
  top := link_other known _ (Or.inr rfl)
  others := by
    intro a member apart
    obtain ⟨n, isNode, rfl⟩ := List.mem_map.mp member
    exact ⟨_, linkParents_member known distinct isNode apart⟩

end Link

/-! ## The cycles -/

section Cycles

variable {nodes : List TreeNode} {root : String} {table : ParentTable nodes}

/-- A walk that comes to the root meets no node twice. -/
theorem meetsVisited_of_depth {k : ℕ} {a : String} {visited : List String}
    (known : a ∈ idsOf nodes) (depth : Depth table.parent root a k)
    (behind : Behind table.parent root k visited) :
    meetsVisited table root visited a known = false := by
  induction depth generalizing visited with
  | root =>
      rw [meetsVisited]
      exact if_pos rfl
  | step apart parent depth ih =>
      have fresh := behind.notMem (.step apart parent depth)
      rw [meetsVisited, if_neg apart, dif_neg fresh]
      split
      · rfl
      · rename_i b next
        obtain rfl := Option.some.inj (parent.symm.trans next)
        exact ih _ (behind.cons (.step apart parent depth))

/-- A walk that meets no node twice comes to the root. -/
theorem attached_of_meetsVisited {a : String} {visited : List String} (linked : Linked root table)
    (known : a ∈ idsOf nodes) (meets : meetsVisited table root visited a known = false) :
    Attached table.parent root a := by
  induction visited, a, known using meetsVisited.induct table root with
  | case1 => exact attached_root _ _
  | case2 visited a known apart seen =>
      rw [meetsVisited, if_neg apart, dif_pos seen] at meets
      cases meets
  | case3 visited a known apart fresh absent =>
      obtain ⟨b, parent⟩ := linked.others a known apart
      rw [absent] at parent
      cases parent
  | case4 visited a known apart fresh b next ih =>
      rw [meetsVisited, if_neg apart, dif_neg fresh] at meets
      split at meets
      · rename_i absent
        rw [absent] at next
        cases next
      · rename_i c next'
        obtain rfl := Option.some.inj (next.symm.trans next')
        exact .below apart next (ih meets)

theorem meetsVisited_iff (linked : Linked root table) {a : String} (known : a ∈ idsOf nodes) :
    meetsVisited table root [] a known = false ↔ Attached table.parent root a :=
  ⟨attached_of_meetsVisited linked known,
    fun ⟨_, depth⟩ => meetsVisited_of_depth known depth .nil⟩

/-- Breaking cycles keeps the parent of every node that is attached. -/
structure Improves (root : String) (before after : ParentTable nodes) : Prop where
  linked : Linked root after
  kept : ∀ a, Attached before.parent root a → after.parent a = before.parent a
  attached : ∀ a, Attached before.parent root a → Attached after.parent root a

theorem Improves.refl (linked : Linked root table) : Improves root table table :=
  ⟨linked, fun _ _ => rfl, fun _ attached => attached⟩

theorem Improves.trans {first second third : ParentTable nodes}
    (early : Improves root first second) (late : Improves root second third) :
    Improves root first third where
  linked := late.linked
  kept a attached := (late.kept a (early.attached a attached)).trans (early.kept a attached)
  attached a attached := late.attached a (early.attached a attached)

theorem Linked.set (linked : Linked root table) {a : String} (apart : a ≠ root) {b : String}
    (known : b ∈ idsOf nodes) : Linked root (table.set a b known) where
  top := by
    rw [table.set_parent_of_ne known apart.symm]
    exact linked.top
  others := by
    intro c member other
    by_cases same : c = a
    · exact ⟨b, same ▸ table.set_parent_self known⟩
    · rw [table.set_parent_of_ne known same]
      exact linked.others c member other

theorem breakCycle_improves (linked : Linked root table) (known : root ∈ idsOf nodes)
    (n : {id // id ∈ idsOf nodes}) :
    Improves root table (breakCycle root known table n) ∧
      Attached (breakCycle root known table n).parent root n.1 := by
  unfold breakCycle
  by_cases isRoot : n.1 = root
  · rw [if_pos isRoot, isRoot]
    exact ⟨.refl linked, attached_root _ _⟩
  · rw [if_neg isRoot]
    split
    · rename_i meets
      have lost : ¬Attached table.parent root n.1 := by
        rw [← meetsVisited_iff linked n.2, meets]
        exact Bool.noConfusion
      refine ⟨⟨linked.set isRoot known, ?_, ?_⟩, attached_redirect_self isRoot⟩
      · intro a attached
        apply table.set_parent_of_ne known
        rintro rfl
        exact lost attached
      · intro a attached
        exact attached.redirect isRoot
    · rename_i fine
      refine ⟨.refl linked, (meetsVisited_iff linked n.2).mp ?_⟩
      exact Bool.not_eq_true _ ▸ fine

/-- The loop over the nodes attaches every node it has come to. -/
theorem foldl_breakCycle (linked : Linked root table) (known : root ∈ idsOf nodes)
    (turns : List {id // id ∈ idsOf nodes}) :
    Improves root table (turns.foldl (breakCycle root known) table) ∧
      ∀ n ∈ turns, Attached (turns.foldl (breakCycle root known) table).parent root n.1 := by
  induction turns generalizing table with
  | nil => exact ⟨.refl linked, fun n member => absurd member List.not_mem_nil⟩
  | cons first rest ih =>
      obtain ⟨now, here⟩ := breakCycle_improves linked known first
      obtain ⟨later, there⟩ := ih now.linked
      refine ⟨now.trans later, List.forall_mem_cons.mpr ⟨?_, there⟩⟩
      exact later.attached first.1 here

theorem breakCycles_improves (linked : Linked root table) (known : root ∈ idsOf nodes) :
    Improves root table (breakCycles root known table) ∧
      ∀ a ∈ idsOf nodes, Attached (breakCycles root known table).parent root a := by
  obtain ⟨improves, attached⟩ := foldl_breakCycle linked known (idsOf nodes).attach
  exact ⟨improves, fun a member => attached ⟨a, member⟩ (List.mem_attach _ _)⟩

end Cycles

/-! ## The children -/

/-- The loop appends the ids of the nodes in their order to the list of their parent. -/
theorem foldl_pushChildren (parent : String → Option String) (rest : List TreeNode)
    (children : String → List String) (a : String) :
    (rest.foldl (fun children n =>
      match parent n.id with
      | none => children
      | some p => Function.update children p (children p ++ [n.id])) children) a =
      children a ++ (idsOf rest).filter (parent · = some a) := by
  induction rest generalizing children with
  | nil => exact (List.append_nil _).symm
  | cons n rest ih =>
      rw [List.foldl_cons, ih]
      cases up : parent n.id with
      | none => simp [idsOf, up]
      | some p =>
          by_cases here : a = p
          · simp [idsOf, up, here]
          · simp [idsOf, up, here, Ne.symm here]

theorem pushChildren_eq {nodes : List TreeNode} (table : ParentTable nodes) (a : String) :
    pushChildren table a = (idsOf nodes).filter (table.parent · = some a) :=
  foldl_pushChildren table.parent nodes (fun _ => []) a

/-- The lists of children describe the tree that the repaired parents are. -/
theorem pushChildren_spans {nodes : List TreeNode} {root : String} {table : ParentTable nodes}
    (distinct : (idsOf nodes).Nodup) (known : root ∈ idsOf nodes) (linked : Linked root table)
    (attached : ∀ a ∈ idsOf nodes, Attached table.parent root a) :
    Spans table.parent root (idsOf nodes) (pushChildren table) where
  distinct := distinct
  rooted := known
  top := linked.top
  closed _ _ _ parent := table.inside parent
  attached := attached
  listed a b := by simp [pushChildren_eq]
  once a := by
    rw [pushChildren_eq]
    exact distinct.filter _

/-! ## The tree -/

/-- The parent that the node with a given id asks for. -/
def reference (nodes : List TreeNode) (id : String) : Option String :=
  (nodes.find? (·.id = id)).map fun n => n.parentId.key

/-- The `children` of the node object with a given id. -/
def childrenOf (nodes : List TreeNode) (id : String) : List String :=
  ((nodes.find? (·.id = id)).map TreeNode.children).getD []

section Reference

variable {nodes : List TreeNode} {root : String}

theorem find?_eq_some_of_mem (distinct : (idsOf nodes).Nodup) {n : TreeNode} (member : n ∈ nodes) :
    nodes.find? (·.id = n.id) = some n := by
  induction nodes with
  | nil => cases member
  | cons first rest ih =>
      obtain ⟨fresh, distinct⟩ := List.nodup_cons.mp distinct
      rcases List.mem_cons.mp member with rfl | later
      · simp
      · have apart : first.id ≠ n.id := fun same => fresh (same ▸ List.mem_map_of_mem later)
        rw [List.find?_cons_of_neg (by simpa using apart)]
        exact ih distinct later

theorem reference_eq_some {a b : String} (asked : reference nodes a = some b) :
    ∃ n ∈ nodes, n.id = a ∧ n.parentId.key = b := by
  obtain ⟨n, found, key⟩ := Option.map_eq_some_iff.mp asked
  exact ⟨n, List.mem_of_find?_eq_some found, of_decide_eq_true (List.find?_some found :), key⟩

theorem attached_known (known : root ∈ idsOf nodes) {a : String}
    (attached : Attached (reference nodes) root a) : a ∈ idsOf nodes := by
  obtain ⟨k, depth⟩ := attached
  cases depth with
  | root => exact known
  | step _ asked _ =>
      obtain ⟨n, member, rfl, -⟩ := reference_eq_some asked
      exact List.mem_map_of_mem member

/-- A reference to a known node is the entry in `parents`. -/
theorem linkParents_reference (distinct : (idsOf nodes).Nodup) (known : root ∈ idsOf nodes)
    {a b : String} (apart : a ≠ root) (asked : reference nodes a = some b)
    (target : b ∈ idsOf nodes) : (linkParents nodes root known).parent a = some b := by
  obtain ⟨n, member, rfl, rfl⟩ := reference_eq_some asked
  rw [linkParents_member known distinct member apart, targetOf, nodeMap, if_pos target]
  rfl

theorem linkParents_attached (distinct : (idsOf nodes).Nodup) (known : root ∈ idsOf nodes)
    {a : String} (attached : Attached (reference nodes) root a) :
    Attached (linkParents nodes root known).parent root a := by
  obtain ⟨k, depth⟩ := attached
  induction depth with
  | root => exact attached_root _ _
  | step apart asked depth ih =>
      have target := attached_known known depth.attached
      exact ih.below apart (linkParents_reference distinct known apart asked target)

end Reference

/-- The tree that the loops after the first one link. -/
structure Draws (nodes : List TreeNode) (root : String) (drawn : List TreeNode) : Prop where
  spans : ∃ fuel order,
    preorder (childrenOf drawn) fuel root = some order ∧ order.Perm (idsOf nodes)
  kept : ∀ n ∈ nodes, n.id ≠ root → Attached (reference nodes) root n.id →
    ∃ p ∈ drawn, p.id = n.parentId.key ∧ n.id ∈ p.children

/-- The node objects with the children the last loop has pushed. -/
theorem childrenOf_map {nodes : List TreeNode} (table : ParentTable nodes)
    (distinct : (idsOf nodes).Nodup) :
    childrenOf (nodes.map fun n => { n with children := pushChildren table n.id }) =
      pushChildren table := by
  funext a
  have found : (nodes.map fun n => { n with children := pushChildren table n.id }).find?
      (·.id = a) = (nodes.find? (·.id = a)).map
        fun n => { n with children := pushChildren table n.id } := by
    rw [List.find?_map]
    rfl
  rw [childrenOf, found, Option.map_map]
  by_cases known : a ∈ idsOf nodes
  · obtain ⟨n, member, rfl⟩ := List.mem_map.mp known
    rw [find?_eq_some_of_mem distinct member]
    rfl
  · have absent : nodes.find? (·.id = a) = none := by
      rw [List.find?_eq_none]
      intro n member same
      exact known (of_decide_eq_true same ▸ List.mem_map_of_mem member)
    have childless : pushChildren table a = [] := by
      rw [pushChildren_eq, List.filter_eq_nil_iff]
      intro b _ parent
      exact known (table.inside (of_decide_eq_true parent))
    rw [absent, childless]
    rfl

theorem linkNodes_of_found {nodes : List TreeNode} {r : TreeNode} (found : findRoot nodes = some r) :
    linkNodes nodes = ⟨some r.id, nodes.map fun n =>
      { n with children := pushChildren (breakCycles r.id (findRoot_known found)
        (linkParents nodes r.id (findRoot_known found))) n.id }⟩ := by
  unfold linkNodes
  split
  · rename_i absent
    rw [found] at absent
    cases absent
  · rename_i r' found'
    obtain rfl := Option.some.inj (found.symm.trans found')
    rfl

theorem linkNodes_of_absent {nodes : List TreeNode} (absent : findRoot nodes = none) :
    linkNodes nodes = ⟨none, nodes⟩ := by
  unfold linkNodes
  split
  · rfl
  · rename_i found
    rw [absent] at found
    cases found

theorem linkNodes_root {nodes : List TreeNode} {root : String}
    (isRoot : (linkNodes nodes).root = some root) : ∃ r, findRoot nodes = some r ∧ r.id = root := by
  cases found : findRoot nodes with
  | none =>
      rw [linkNodes_of_absent found] at isRoot
      cases isRoot
  | some r =>
      rw [linkNodes_of_found found] at isRoot
      exact ⟨r, rfl, Option.some.inj isRoot⟩

theorem linkNodes_draws {nodes : List TreeNode} {root : String} (distinct : (idsOf nodes).Nodup)
    (isRoot : (linkNodes nodes).root = some root) : Draws nodes root (linkNodes nodes).nodes := by
  obtain ⟨r, found, rfl⟩ := linkNodes_root isRoot
  have known := findRoot_known found
  rw [linkNodes_of_found found]
  obtain ⟨improves, attached⟩ := breakCycles_improves (linkParents_linked known distinct) known
  refine ⟨?_, ?_⟩
  · rw [childrenOf_map _ distinct]
    exact (pushChildren_spans distinct known improves.linked attached).exists_preorder
  · intro n member apart asked
    obtain ⟨b, asks, above⟩ := asked.parent apart
    have target := attached_known known above
    have kept := (improves.kept n.id (linkParents_attached distinct known asked)).trans
      (linkParents_reference distinct known apart asks target)
    have key : b = n.parentId.key := by
      rw [reference, find?_eq_some_of_mem distinct member] at asks
      exact (Option.some.inj asks).symm
    obtain ⟨p, isParent, rfl⟩ := List.mem_map.mp target
    refine ⟨_, List.mem_map_of_mem isParent, key, ?_⟩
    simp only [pushChildren_eq]
    exact List.mem_filter.mpr ⟨List.mem_map_of_mem member, decide_eq_true kept⟩

theorem linkNodes_root_eq_none (nodes : List TreeNode) :
    (linkNodes nodes).root = none ↔ nodes = [] := by
  constructor
  · intro missing
    cases found : findRoot nodes with
    | none =>
        unfold findRoot at found
        split at found
        · cases found
        · exact List.head?_eq_none_iff.mp found
    | some r =>
        rw [linkNodes_of_found found] at missing
        cases missing
  · rintro rfl
    rfl

theorem linkNodes_reset (nodes : List TreeNode) :
    (linkNodes nodes).nodes.map TreeNode.reset = nodes.map TreeNode.reset := by
  cases found : findRoot nodes with
  | none => rw [linkNodes_of_absent found]
  | some r =>
      rw [linkNodes_of_found found, List.map_map]
      rfl

/-! ## The first loop -/

section Reset

variable (nodes : List TreeNode)

theorem idsOf_reset : idsOf (nodes.map TreeNode.reset) = idsOf nodes := List.map_map

theorem reference_reset : reference (nodes.map TreeNode.reset) = reference nodes := by
  funext id
  rw [reference, List.find?_map, Option.map_map]
  rfl

theorem foldl_root_reset (start : Option TreeNode) :
    (nodes.map TreeNode.reset).foldl (fun root n => if isController n then some n else root)
        (start.map TreeNode.reset) =
      (nodes.foldl (fun root n => if isController n then some n else root) start).map
        TreeNode.reset := by
  induction nodes generalizing start with
  | nil => rfl
  | cons first rest ih =>
      rw [List.map_cons, List.foldl_cons, List.foldl_cons, ← ih]
      congr 1
      rw [apply_ite (Option.map TreeNode.reset)]
      rfl

theorem findRoot_reset : findRoot (nodes.map TreeNode.reset) = (findRoot nodes).map .reset := by
  have scan : (nodes.map TreeNode.reset).foldl
      (fun root n => if isController n then some n else root) none = _ :=
    foldl_root_reset nodes none
  unfold findRoot
  rw [scan]
  cases nodes.foldl (fun root n => if isController n then some n else root) none with
  | none => exact List.head?_map
  | some root => rfl

end Reset

theorem Draws.of_reset {nodes drawn : List TreeNode} {root : String}
    (draws : Draws (nodes.map TreeNode.reset) root drawn) : Draws nodes root drawn where
  spans := by
    rw [← idsOf_reset nodes]
    exact draws.spans
  kept := by
    intro n member apart asked
    rw [← reference_reset nodes] at asked
    exact draws.kept n.reset (List.mem_map_of_mem member) apart asked

/-- Every node with an id of its own is drawn exactly once below the root, which is a
controller where there is one; a node whose references lead up to the root keeps its
parent, and drawing the tree again changes nothing. -/
theorem buildNodeTree_draws_every_node (nodes : List TreeNode) (distinct : (idsOf nodes).Nodup) :
    let drawn := buildNodeTree nodes
    (drawn.root = none ↔ nodes = []) ∧
    (∀ root, drawn.root = some root →
      (∃ r ∈ nodes, r.id = root ∧ (isController r = true ∨
        nodes.head? = some r ∧ ∀ n ∈ nodes, isController n = false)) ∧
      Draws nodes root drawn.nodes) ∧
    drawn.nodes.map TreeNode.reset = nodes.map TreeNode.reset ∧
    buildNodeTree drawn.nodes = drawn := by
  intro drawn
  have fields : drawn.nodes.map TreeNode.reset = nodes.map TreeNode.reset := by
    rw [show drawn.nodes.map TreeNode.reset = (nodes.map TreeNode.reset).map TreeNode.reset from
      linkNodes_reset _, List.map_map]
    rfl
  refine ⟨?_, ?_, fields, ?_⟩
  · exact (linkNodes_root_eq_none _).trans List.map_eq_nil_iff
  · intro root isRoot
    have distinct' : (idsOf (nodes.map TreeNode.reset)).Nodup := by rwa [idsOf_reset]
    refine ⟨?_, (linkNodes_draws distinct' isRoot).of_reset⟩
    obtain ⟨r, found, rfl⟩ := linkNodes_root isRoot
    rw [findRoot_reset, Option.map_eq_some_iff] at found
    obtain ⟨m, found, rfl⟩ := found
    obtain ⟨member, role⟩ := findRoot_spec found
    exact ⟨m, member, rfl, role⟩
  · show linkNodes (drawn.nodes.map TreeNode.reset) = linkNodes (nodes.map TreeNode.reset)
    rw [fields]

/-- A cycle of two nodes with a third below it, and a reference to nothing. -/
def cyclicView : List TreeNode :=
  [⟨"ac", some "controller", .undefined, []⟩, ⟨"A", none, .id "B", []⟩, ⟨"B", none, .id "A", []⟩,
    ⟨"C", none, .id "B", []⟩, ⟨"D", none, .undefined, ["C"]⟩]

theorem buildNodeTree_draws_cyclicView :
    let drawn := buildNodeTree cyclicView
    (∃ fuel order, preorder (childrenOf drawn.nodes) fuel "ac" = some order ∧
      order.Perm ["ac", "A", "B", "C", "D"]) ∧
    buildNodeTree drawn.nodes = drawn := by
  have draws := buildNodeTree_draws_every_node cyclicView (by decide)
  exact ⟨(draws.2.1 "ac" (by decide +kernel)).2.spans, draws.2.2.2⟩

end XWrt.Fakemesh
