import Mathlib.Data.List.Nodup
import XWrt.Foundation.ParentForest

/-!
# The fakemesh topology tree

The cycle repair, the hop counts and the downstream walk of `get_topology` in
`rpcd/luci.fakemesh`. Nodes refer to their parents by id and the references
come from independent reports, so they may be missing, unknown or cyclic. The
repair edits the parents while it walks over the nodes.
-/

namespace XWrt.Fakemesh

open XWrt.Foundation

/-- The `upstream` or `backhaul` table of a node. -/
structure Uplink where
  type : Option String
  ifname : Option String
  port : Option String
  deriving DecidableEq, Repr

/-- A node table. -/
structure Node where
  id : String
  parentId : Option String
  upstream : Option Uplink
  backhaul : Option Uplink
  hopCount : Nat
  deriving DecidableEq, Repr

/-- A client candidate. -/
structure Client where
  nodeId : String
  accessType : Option String
  ifname : Option String
  port : Option String
  deriving DecidableEq, Repr

/-- `node_by_id[id]`: a later node replaces an earlier one with the same id. -/
def nodeById (nodes : List Node) (id : Option String) : Option Node :=
  id.bind fun id => nodes.reverse.find? fun n => n.id = id

theorem nodeById_mem {nodes : List Node} {id : Option String} {n : Node}
    (found : nodeById nodes id = some n) : n ∈ nodes ∧ id = some n.id := by
  obtain ⟨key, rfl, found⟩ := Option.bind_eq_some_iff.mp found
  have isKey := List.find?_some found
  exact ⟨List.mem_reverse.mp (List.mem_of_find?_eq_some found),
    congrArg some (of_decide_eq_true isKey).symm⟩

/-- The nodes that the table `visited` does not hold. -/
def unvisited (nodes : List Node) (visited : List String) : List Node :=
  nodes.filter fun n => n.id ∉ visited

theorem unvisited_shrinks {nodes : List Node} {visited : List String} {n : Node}
    (member : n ∈ nodes) (fresh : n.id ∉ visited) :
    (unvisited nodes (n.id :: visited)).length < (unvisited nodes visited).length := by
  have refined : unvisited nodes (n.id :: visited) =
      (unvisited nodes visited).filter fun m => m.id ≠ n.id := by
    rw [unvisited, unvisited, List.filter_filter]
    refine List.filter_congr fun m _ => ?_
    simp [List.mem_cons, not_or]
  rw [refined, List.length_filter_lt_length_iff_exists]
  exact ⟨n, List.mem_filter.mpr ⟨member, decide_eq_true fresh⟩, by simp⟩

/-! ## The cycle repair -/

/-- The `while` loop of the repair: whether it ends by setting the parent of the node
it started at. -/
def needsRepair (nodes : List Node) (visited : List String) (current : Node)
    (_member : current ∈ nodes) : Bool :=
  if current.id = "ac" then false
  else if _fresh : current.id ∈ visited then true
  else
    match found : nodeById nodes current.parentId with
    | none => true
    | some next => needsRepair nodes (current.id :: visited) next (nodeById_mem found).1
termination_by (unvisited nodes visited).length
decreasing_by exact unvisited_shrinks _member _fresh

/-- One turn of the repair loop, for `nodes[i]`. -/
def repairAt (nodes : List Node) (i : Nat) : List Node :=
  if inside : i < nodes.length then
    if nodes[i].id ≠ "ac" ∧ needsRepair nodes [] nodes[i] (List.getElem_mem inside) then
      nodes.set i { nodes[i] with parentId := some "ac" }
    else nodes
  else nodes

/-- The repair of self-links, unknown parents and cycles. -/
def repairCycles (nodes : List Node) : List Node :=
  (List.range nodes.length).foldl repairAt nodes

/-! ## Hop counts -/

/-- `parent_map[id]`. -/
def parentMap (nodes : List Node) (id : String) : Option String :=
  (nodeById nodes (some id)).bind Node.parentId

/-- `get_hop`. -/
def getHop (nodes : List Node) (visited : List String) (id : String) : Nat :=
  if id = "ac" then 0
  else if _fresh : id ∈ visited then 1
  else
    match parent : parentMap nodes id with
    | none => 1
    | some p => if p = "ac" then 1 else 1 + getHop nodes (id :: visited) p
termination_by (unvisited nodes visited).length
decreasing_by
  obtain ⟨n, found, -⟩ := Option.bind_eq_some_iff.mp parent
  obtain ⟨member, same⟩ := nodeById_mem found
  obtain rfl := Option.some.inj same
  exact unvisited_shrinks member _fresh

/-- The hop count of every node, and `max_hops`. -/
def countHops (nodes : List Node) : List Node × Nat :=
  let counted := nodes.map fun n => { n with hopCount := getHop nodes [] n.id }
  (counted, counted.foldl (fun maxHops n => if n.hopCount > maxHops then n.hopCount else maxHops) 0)

/-! ## The downstream walk -/

/-- `first and first ~= "" and first or second`. -/
def nonemptyOr (first second : Option String) : Option String :=
  match first with
  | none => second
  | some text => if text = "" then second else first

/-- `is_uplink_port`. -/
def isUplinkPort (upstream : Option Uplink) (port : Option String) : Bool :=
  match upstream, port with
  | some upstream, some port =>
      if upstream.type ≠ some "wired" ∨ port = "" then false
      else
        match nonemptyOr upstream.ifname upstream.port with
        | none => false
        | some uplink => uplink ≠ "" && uplink.toLower = port.toLower
  | _, _ => false

/-- `client_on_uplink`. -/
def clientOnUplink (nodes : List Node) (client : Client) : Bool :=
  match nodeById nodes (some client.nodeId) with
  | none => false
  | some node =>
      client.accessType = some "wired" &&
        isUplinkPort (node.upstream <|> node.backhaul) (nonemptyOr client.ifname client.port)

/-- The `while node and node.parent_id` loop, for at most `fuel` turns; `none` when
it has not ended by then. -/
def isBelow (nodes : List Node) (target : String) : Nat → Option Node → Option Bool
  | 0, _ => none
  | _ + 1, none => some false
  | fuel + 1, some node =>
      match node.parentId with
      | none => some false
      | some p =>
          if p = target then some true else isBelow nodes target fuel (nodeById nodes (some p))

/-- The loop over `candidates`. -/
def forwardedBy (nodes : List Node) (fuel : Nat) (client : Client) : List Client → Option Bool
  | [] => some false
  | other :: rest =>
      if other.nodeId ≠ client.nodeId ∧ ¬ clientOnUplink nodes other then
        match isBelow nodes client.nodeId fuel (nodeById nodes (some other.nodeId)) with
        | none => none
        | some true => some true
        | some false => forwardedBy nodes fuel client rest
      else forwardedBy nodes fuel client rest

/-- `client_forwarded_downstream`. -/
def clientForwardedDownstream (nodes : List Node) (fuel : Nat) (client : Client)
    (candidates : List Client) : Option Bool :=
  if client.accessType ≠ some "wired" then some false
  else forwardedBy nodes fuel client candidates

/-! ## The parent graph -/

/-- What `get_topology` has built before the repair: distinct ids and a controller
without a parent. -/
structure NodeTable (nodes : List Node) : Prop where
  distinct : (nodes.map Node.id).Nodup
  root : ∃ ac ∈ nodes, ac.id = "ac" ∧ ac.parentId = none

/-- The id of the known parent of an id. -/
def up (nodes : List Node) (id : String) : Option String :=
  (parentMap nodes id).filter fun p => p ∈ nodes.map Node.id

section Graph

variable {nodes : List Node} (distinct : (nodes.map Node.id).Nodup)

include distinct

theorem nodeById_eq_some {key : String} {n : Node} :
    nodeById nodes (some key) = some n ↔ n ∈ nodes ∧ n.id = key := by
  constructor
  · intro found
    obtain ⟨member, same⟩ := nodeById_mem found
    exact ⟨member, (Option.some.inj same).symm⟩
  · rintro ⟨member, rfl⟩
    cases found : nodeById nodes (some n.id) with
    | none =>
        have missing := List.find?_eq_none.mp found n (List.mem_reverse.mpr member)
        simp at missing
    | some m =>
        obtain ⟨inside, same⟩ := nodeById_mem found
        rw [List.inj_on_of_nodup_map distinct inside member (Option.some.inj same).symm]

theorem parentMap_of_mem {n : Node} (member : n ∈ nodes) : parentMap nodes n.id = n.parentId := by
  rw [parentMap, (nodeById_eq_some distinct).mpr ⟨member, rfl⟩]
  rfl

theorem up_eq_some {n : Node} (member : n ∈ nodes) {b : String} :
    up nodes n.id = some b ↔
      n.parentId = some b ∧ ∃ next, nodeById nodes n.parentId = some next ∧ next.id = b := by
  rw [up, parentMap_of_mem distinct member, Option.filter_eq_some_iff, decide_eq_true_eq]
  refine and_congr_right fun parent => ?_
  rw [parent, List.mem_map]
  refine exists_congr fun next => ?_
  rw [nodeById_eq_some distinct, and_assoc, and_self]

theorem parent_of_up {n : Node} {b : String} (member : n ∈ nodes) (parent : up nodes n.id = some b) :
    ∃ next, nodeById nodes n.parentId = some next ∧ next.id = b :=
  ((up_eq_some distinct member).mp parent).2

/-- The walk of the repair comes to the controller along an attached chain: the
visited ids are deeper than the current one. -/
theorem needsRepair_of_depth {k : ℕ} {n : Node} {visited : List String} (member : n ∈ nodes)
    (depth : Depth (up nodes) "ac" n.id k)
    (behind : Behind (up nodes) "ac" k visited) :
    needsRepair nodes visited n member = false := by
  induction k generalizing n visited with
  | zero =>
      unfold needsRepair
      rw [if_pos depth.eq_root]
  | succ k ih =>
      obtain ⟨apart, b, parent, depth'⟩ := depth.succ_parent
      obtain ⟨next, found, rfl⟩ := parent_of_up distinct member parent
      unfold needsRepair
      rw [if_neg apart, dif_neg (behind.notMem depth)]
      split
      · rename_i missing
        rw [found] at missing
        cases missing
      · rename_i next' found'
        rw [found] at found'
        cases found'
        exact ih _ depth' (behind.cons depth)

/-- A walk that ends without a repair has come to the controller. -/
theorem attached_of_needsRepair {n : Node} {visited : List String} (member : n ∈ nodes)
    (kept : needsRepair nodes visited n member = false) : Attached (up nodes) "ac" n.id := by
  fun_induction needsRepair nodes visited n member with
  | case1 visited n member isRoot =>
      rw [isRoot]
      exact attached_root _ _
  | case2 visited n member apart seen => cases kept
  | case3 visited n member apart fresh missing => cases kept
  | case4 visited n member apart fresh next found ih =>
      refine (ih kept).below apart ((up_eq_some distinct member).mpr ?_)
      exact ⟨(nodeById_mem found).2, next, found, rfl⟩

/-- The repair sets the parent exactly of the nodes that are not attached. -/
theorem needsRepair_iff {n : Node} (member : n ∈ nodes) :
    needsRepair nodes [] n member = true ↔ ¬ Attached (up nodes) "ac" n.id := by
  rw [← Bool.not_eq_false, not_iff_not]
  constructor
  · exact attached_of_needsRepair distinct member
  · rintro ⟨k, depth⟩
    exact needsRepair_of_depth distinct member depth .nil

end Graph

theorem up_controller {nodes : List Node} (table : NodeTable nodes) : up nodes "ac" = none := by
  obtain ⟨ac, member, id, parent⟩ := table.root
  rw [up, ← id, parentMap_of_mem table.distinct member, parent]
  rfl

/-! ## The repair -/

/-- How the parents may change: ids stay, nothing is detached, and an attached node
is left as it is. -/
structure Repaired (before after : List Node) : Prop where
  ids : after.map Node.id = before.map Node.id
  attached : ∀ id, Attached (up before) "ac" id → Attached (up after) "ac" id
  kept : ∀ n ∈ before, Attached (up before) "ac" n.id → n ∈ after
  table : NodeTable after

theorem Repaired.refl {nodes : List Node} (table : NodeTable nodes) : Repaired nodes nodes :=
  ⟨rfl, fun _ attached => attached, fun _ member _ => member, table⟩

theorem Repaired.trans {first second third : List Node} (early : Repaired first second)
    (late : Repaired second third) : Repaired first third := by
  constructor
  · exact late.ids.trans early.ids
  · exact fun id attached => late.attached id (early.attached id attached)
  · exact fun n member attached =>
      late.kept n (early.kept n member attached) (early.attached n.id attached)
  · exact late.table

section SetParent

variable {nodes : List Node} {i : Nat} (inside : i < nodes.length)

/-- Setting `nodes[i].parent_id = "ac"`. -/
def setParent (nodes : List Node) (i : Nat) (inside : i < nodes.length) : List Node :=
  nodes.set i { nodes[i] with parentId := some "ac" }

theorem setParent_ids : (setParent nodes i inside).map Node.id = nodes.map Node.id := by
  rw [setParent, List.map_set, ← List.getElem_map Node.id (h := by simpa using inside)]
  exact List.set_getElem_self _

theorem mem_setParent {m : Node} (other : m.id ≠ nodes[i].id) :
    m ∈ setParent nodes i inside ↔ m ∈ nodes := by
  rw [List.mem_iff_getElem?, List.mem_iff_getElem?]
  refine exists_congr fun j => ?_
  rw [setParent, List.getElem?_set]
  split
  · rename_i same
    subst same
    rw [List.getElem?_eq_getElem inside]
    constructor
    · rintro ⟨⟩
      exact absurd rfl other
    · rintro ⟨⟩
      exact absurd rfl other
  · rfl

theorem setParent_up (table : NodeTable nodes) :
    up (setParent nodes i inside) = Function.update (up nodes) nodes[i].id (some "ac") := by
  have distinct : ((setParent nodes i inside).map Node.id).Nodup := by
    rw [setParent_ids]
    exact table.distinct
  obtain ⟨ac, acMember, acId, -⟩ := table.root
  have known : "ac" ∈ nodes.map Node.id := acId ▸ List.mem_map_of_mem acMember
  funext key
  by_cases moved : key = nodes[i].id
  · subst moved
    have member : { nodes[i] with parentId := some "ac" } ∈ setParent nodes i inside :=
      List.mem_set inside _
    have parent := parentMap_of_mem distinct member
    rw [Function.update_self, up, parent, setParent_ids]
    exact Option.filter_some_pos (decide_eq_true known)
  · rw [Function.update_of_ne moved, up, up, setParent_ids, parentMap, parentMap]
    have same : nodeById (setParent nodes i inside) (some key) = nodeById nodes (some key) := by
      refine Option.ext fun m => ?_
      rw [nodeById_eq_some distinct, nodeById_eq_some table.distinct]
      refine and_congr_left fun isKey => mem_setParent inside ?_
      rwa [isKey]
    rw [same]

theorem setParent_repaired (table : NodeTable nodes) (apart : nodes[i].id ≠ "ac")
    (detached : ¬ Attached (up nodes) "ac" nodes[i].id) :
    Repaired nodes (setParent nodes i inside) := by
  constructor
  · exact setParent_ids inside
  · intro id attached
    rw [setParent_up inside table]
    exact attached.redirect apart
  · intro n member attached
    refine (mem_setParent inside ?_).mpr member
    intro same
    exact detached (same ▸ attached)
  · constructor
    · rw [setParent_ids]
      exact table.distinct
    · obtain ⟨ac, acMember, acId, acParent⟩ := table.root
      refine ⟨ac, (mem_setParent inside ?_).mpr acMember, acId, acParent⟩
      rw [acId]
      exact apart.symm

end SetParent

theorem repairAt_repaired {nodes : List Node} (table : NodeTable nodes) {i : Nat}
    (inside : i < nodes.length) :
    Repaired nodes (repairAt nodes i) ∧
      Attached (up (repairAt nodes i)) "ac" nodes[i].id := by
  unfold repairAt
  rw [dif_pos inside]
  split
  · rename_i needed
    obtain ⟨apart, needed⟩ := needed
    have detached := (needsRepair_iff table.distinct (List.getElem_mem inside)).mp needed
    refine ⟨setParent_repaired inside table apart detached, ?_⟩
    change Attached (up (setParent nodes i inside)) "ac" nodes[i].id
    rw [setParent_up inside table]
    exact attached_redirect_self apart
  · rename_i fine
    refine ⟨.refl table, ?_⟩
    by_cases isRoot : nodes[i].id = "ac"
    · rw [isRoot]
      exact attached_root _ _
    · have kept : ¬ needsRepair nodes [] nodes[i] (List.getElem_mem inside) = true :=
        fun needed => fine ⟨isRoot, needed⟩
      rwa [needsRepair_iff table.distinct, not_not] at kept

/-- The first `k` turns of the repair attach the first `k` nodes. -/
theorem repair_prefix {nodes : List Node} (table : NodeTable nodes) (k : ℕ)
    (bound : k ≤ nodes.length) :
    let after := (List.range k).foldl repairAt nodes
    Repaired nodes after ∧ ∀ id ∈ (nodes.map Node.id).take k, Attached (up after) "ac" id := by
  induction k with
  | zero => exact ⟨.refl table, by simp⟩
  | succ k ih =>
      obtain ⟨early, attached⟩ := ih (Nat.le_of_succ_le bound)
      rw [List.range_succ, List.foldl_append, List.foldl_cons, List.foldl_nil]
      generalize (List.range k).foldl repairAt nodes = after at early attached
      have lengths : after.length = nodes.length := by
        simpa using congrArg List.length early.ids
      have inside : k < after.length := lengths ▸ bound
      obtain ⟨late, here⟩ := repairAt_repaired early.table inside
      refine ⟨early.trans late, ?_⟩
      have next : k < (nodes.map Node.id).length := by
        rw [List.length_map]
        exact bound
      have sameId : (nodes.map Node.id)[k] = after[k].id := by
        simp only [← early.ids, List.getElem_map]
      rw [List.take_add_one, List.getElem?_eq_getElem next, sameId]
      intro id member
      rcases List.mem_append.mp member with old | new
      · exact late.attached id (attached id old)
      · rw [Option.mem_toList.mp new |> Option.some.inj |>.symm]
        exact here

theorem repairCycles_repaired {nodes : List Node} (table : NodeTable nodes) :
    Repaired nodes (repairCycles nodes) ∧
      ∀ n ∈ repairCycles nodes, Attached (up (repairCycles nodes)) "ac" n.id := by
  obtain ⟨repaired, attached⟩ := repair_prefix table nodes.length (le_refl _)
  refine ⟨repaired, fun n member => attached n.id ?_⟩
  rw [List.take_of_length_le (by rw [List.length_map]), ← repaired.ids]
  exact List.mem_map_of_mem member

/-! ## The walks over the repaired tree -/

theorem parentMap_of_up {nodes : List Node} {id b : String} (parent : up nodes id = some b) :
    parentMap nodes id = some b :=
  (Option.filter_eq_some_iff.mp parent).1

/-- `get_hop` finds the depth. -/
theorem getHop_of_depth {nodes : List Node} {k : ℕ} {id : String} {visited : List String}
    (depth : Depth (up nodes) "ac" id k)
    (behind : Behind (up nodes) "ac" k visited) :
    getHop nodes visited id = k := by
  induction k generalizing id visited with
  | zero =>
      unfold getHop
      rw [if_pos depth.eq_root]
  | succ k ih =>
      obtain ⟨apart, b, parent, depth'⟩ := depth.succ_parent
      unfold getHop
      rw [if_neg apart, dif_neg (behind.notMem depth)]
      split
      · rename_i missing
        rw [parentMap_of_up parent] at missing
        cases missing
      · rename_i p found
        rw [parentMap_of_up parent] at found
        cases found
        split
        · rename_i isRoot
          rw [isRoot] at depth'
          rw [depth'.unique .root]
        · rw [ih depth' (behind.cons depth), Nat.add_comm]

/-- Changing other fields of the nodes changes neither the graph nor the table. -/
structure KeepsGraph (f : Node → Node) : Prop where
  id : ∀ n, (f n).id = n.id
  parentId : ∀ n, (f n).parentId = n.parentId

namespace KeepsGraph

variable {nodes : List Node} {f : Node → Node} (keeps : KeepsGraph f)

include keeps

theorem ids : (nodes.map f).map Node.id = nodes.map Node.id := by
  rw [List.map_map]
  exact List.map_congr_left fun n _ => keeps.id n

theorem up_map : up (nodes.map f) = up nodes := by
  funext id
  have found : nodeById (nodes.map f) (some id) = (nodeById nodes (some id)).map f := by
    simp only [nodeById, Option.bind_some, ← List.map_reverse, List.find?_map]
    congr
    funext n
    simp [keeps.id]
  rw [up, up, keeps.ids, parentMap, parentMap, found]
  cases nodeById nodes (some id) with
  | none => rfl
  | some n => simp only [Option.map_some, Option.bind_some, keeps.parentId]

theorem table (table : NodeTable nodes) : NodeTable (nodes.map f) := by
  constructor
  · rw [keeps.ids]
    exact table.distinct
  · obtain ⟨ac, member, id, parent⟩ := table.root
    exact ⟨f ac, List.mem_map_of_mem member, (keeps.id ac).trans id,
      (keeps.parentId ac).trans parent⟩

end KeepsGraph

/-- The walk of `client_forwarded_downstream` ends at the controller at the latest. -/
theorem isBelow_terminates {nodes : List Node} (table : NodeTable nodes) (target : String)
    {k fuel : ℕ} {n : Node} (member : n ∈ nodes) (depth : Depth (up nodes) "ac" n.id k)
    (enough : k < fuel) : (isBelow nodes target fuel (some n)).isSome := by
  obtain ⟨ac, acMember, acId, acParent⟩ := table.root
  induction k generalizing n fuel with
  | zero =>
      have isRoot : n = ac :=
        List.inj_on_of_nodup_map table.distinct member acMember (depth.eq_root.trans acId.symm)
      obtain ⟨fuel, rfl⟩ := Nat.exists_eq_add_of_lt enough
      rw [isBelow, isRoot, acParent]
      rfl
  | succ k ih =>
      obtain ⟨fuel, rfl⟩ : ∃ rest, fuel = rest + 1 := ⟨fuel - 1, by omega⟩
      obtain ⟨apart, b, parent, depth'⟩ := depth.succ_parent
      obtain ⟨isParent, next, found, rfl⟩ := (up_eq_some table.distinct member).mp parent
      rw [isBelow, isParent]
      rw [isParent] at found
      simp only
      split
      · rfl
      · rw [found]
        exact ih (nodeById_mem found).1 depth' (Nat.lt_of_succ_lt_succ enough)

theorem forwardedBy_terminates {nodes : List Node} {fuel : ℕ} {client : Client}
    (walks : ∀ id, (isBelow nodes client.nodeId fuel (nodeById nodes id)).isSome)
    (candidates : List Client) :
    (forwardedBy nodes fuel client candidates).isSome := by
  induction candidates with
  | nil => rfl
  | cons other rest ih =>
      rw [forwardedBy]
      split
      · obtain ⟨below, walk⟩ :=
          Option.isSome_iff_exists.mp (walks (some other.nodeId))
        rw [walk]
        cases below with
        | true => rfl
        | false => exact ih
      · exact ih

/-- The walk from any node of an attached table ends within a common bound. -/
theorem clientForwardedDownstream_terminates {nodes : List Node} (table : NodeTable nodes)
    (attached : ∀ n ∈ nodes, Attached (up nodes) "ac" n.id) :
    ∃ limit, ∀ fuel ≥ limit, ∀ client candidates,
      (clientForwardedDownstream nodes fuel client candidates).isSome := by
  obtain ⟨bound, bounded⟩ := exists_depth_bound (nodes.map Node.id)
    (fun id member => by
      obtain ⟨n, inside, rfl⟩ := List.mem_map.mp member
      exact attached n inside)
  refine ⟨bound + 1, fun fuel enough client candidates => ?_⟩
  unfold clientForwardedDownstream
  split
  · rfl
  · refine forwardedBy_terminates (fun id => ?_) candidates
    cases found : nodeById nodes id with
    | none =>
        obtain ⟨rest, rfl⟩ := Nat.exists_eq_add_of_le' (Nat.le_of_add_left_le enough)
        rfl
    | some n =>
        have member := (nodeById_mem found).1
        obtain ⟨k, small, depth⟩ := bounded n.id (List.mem_map_of_mem member)
        exact isBelow_terminates table client.nodeId member depth
          (lt_of_le_of_lt small enough)

theorem countHops_keepsGraph (nodes : List Node) :
    KeepsGraph fun n => { n with hopCount := getHop nodes [] n.id } :=
  ⟨fun _ => rfl, fun _ => rfl⟩

/-- Every hop count is the depth of its node. -/
theorem countHops_depth {nodes : List Node}
    (attached : ∀ n ∈ nodes, Attached (up nodes) "ac" n.id) {n : Node}
    (member : n ∈ (countHops nodes).1) : Depth (up (countHops nodes).1) "ac" n.id n.hopCount := by
  obtain ⟨m, inside, rfl⟩ := List.mem_map.mp member
  obtain ⟨k, depth⟩ := attached m inside
  have graph : up (countHops nodes).1 = up nodes := (countHops_keepsGraph nodes).up_map
  rw [graph]
  simp only
  rw [getHop_of_depth depth .nil]
  exact depth

/-- The repair makes any node table a tree under the controller, leaves attached
nodes alone, and the later walks end and count the depths of that tree. -/
theorem repairCycles_rooted (nodes : List Node) (table : NodeTable nodes) :
    let repaired := repairCycles nodes
    let counted := (countHops repaired).1
    repaired.map Node.id = nodes.map Node.id ∧
    (∀ n ∈ repaired, Attached (up repaired) "ac" n.id) ∧
    (∀ n ∈ nodes, Attached (up nodes) "ac" n.id → n ∈ repaired) ∧
    (∃ limit, ∀ fuel ≥ limit, ∀ client candidates,
      (clientForwardedDownstream counted fuel client candidates).isSome) ∧
    ∀ n ∈ counted, Depth (up counted) "ac" n.id n.hopCount ∧
      (n.id ≠ "ac" → ∃ p ∈ counted, n.parentId = some p.id ∧ n.hopCount = p.hopCount + 1) := by
  obtain ⟨repaired, attached⟩ := repairCycles_repaired table
  have keeps := countHops_keepsGraph (repairCycles nodes)
  have graph : up (countHops (repairCycles nodes)).1 = up (repairCycles nodes) := keeps.up_map
  have countedTable : NodeTable (countHops (repairCycles nodes)).1 := keeps.table repaired.table
  have depths := fun n member => countHops_depth attached (n := n) member
  refine ⟨repaired.ids, attached, repaired.kept, ?_, fun n member => ⟨depths n member, ?_⟩⟩
  · refine clientForwardedDownstream_terminates countedTable fun n member => ?_
    exact (depths n member).attached
  · intro apart
    obtain ⟨b, parent, -⟩ := (depths n member).attached.parent apart
    obtain ⟨isParent, p, found, rfl⟩ := (up_eq_some countedTable.distinct member).mp parent
    obtain ⟨pMember, -⟩ := nodeById_mem found
    refine ⟨p, pMember, isParent, ?_⟩
    exact (depths n member).unique (.step apart parent (depths p pMember))

/-- Two nodes that name each other, one with an unknown parent and one without. -/
def cyclicNodes : List Node :=
  [⟨"ac", none, none, none, 0⟩, ⟨"node_a", some "node_b", none, none, 0⟩,
    ⟨"node_b", some "node_a", none, none, 0⟩, ⟨"node_c", some "gone", none, none, 0⟩,
    ⟨"node_d", none, none, none, 0⟩, ⟨"node_e", some "ac", none, none, 0⟩]

theorem repairCycles_rooted_cyclic :
    (repairCycles cyclicNodes).map Node.parentId =
      [none, some "ac", some "node_a", some "ac", some "ac", some "ac"] ∧
    ∀ n ∈ repairCycles cyclicNodes, Attached (up (repairCycles cyclicNodes)) "ac" n.id :=
  ⟨by decide +kernel, (repairCycles_rooted cyclicNodes
    ⟨by decide, ⟨"ac", none, none, none, 0⟩, List.mem_cons_self, rfl, rfl⟩).2.1⟩

end XWrt.Fakemesh
