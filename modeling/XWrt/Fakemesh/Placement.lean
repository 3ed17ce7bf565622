import XWrt.Fakemesh.Clients
import XWrt.Foundation.Choice

/-!
# Where a client is placed

The winner loop of `get_topology` in a tree of nodes. It leaves out the
candidates on the uplink of their node and the wired ones that a node further
down has seen too. The two filters never leave out everything: a candidate off
the uplinks that was seen deepest passes both.
-/

namespace XWrt.Fakemesh

open XWrt.Foundation

/-! ## The choice of the loop -/

/-- `prefer_client_candidate` between two candidates. -/
def prefers (candidate current : Candidate) : Bool := preferClientCandidate candidate (some current)

/-- The candidates that the loop considers. -/
def isEligible (nodes : List Node) (fuel : Nat) (group : List Candidate) (cand : Candidate) : Bool :=
  !clientOnUplink nodes cand.toClient &&
    clientForwardedDownstream nodes fuel cand.toClient (group.map Candidate.toClient) = some false

/-- The best one so far and those to come. -/
def bestOf : Option Candidate → List Candidate → Option Candidate
  | none, [] => none
  | none, first :: rest => some (Choice.survivor prefers first rest)
  | some best, rest => some (Choice.survivor prefers best rest)

theorem bestOf_cons (best : Option Candidate) (cand : Candidate) (rest : List Candidate) :
    bestOf best (cand :: rest) = bestOf (if preferClientCandidate cand best then some cand else best) rest := by
  cases best with
  | none => rfl
  | some best =>
      rw [bestOf, Choice.survivor_cons, prefers]
      split <;> rfl

/-- Where no walk runs out of fuel, the loop ends with the choice among the eligible candidates. -/
theorem pickClient_eq {nodes : List Node} {fuel : Nat} {group : List Candidate}
    (walks : ∀ client candidates, (clientForwardedDownstream nodes fuel client candidates).isSome) (start : Option Candidate)
    (rest : List Candidate) :
    pickClient nodes fuel group start rest = some (bestOf start (rest.filter (isEligible nodes fuel group))) := by
  induction rest generalizing start with
  | nil => cases start <;> rfl
  | cons cand rest ih =>
      obtain ⟨forwarded, walk⟩ := Option.isSome_iff_exists.mp (walks cand.toClient (group.map Candidate.toClient))
      rw [pickClient, walk, List.filter_cons, isEligible, walk]
      cases clientOnUplink nodes cand.toClient with
      | true => exact ih start
      | false =>
          cases forwarded with
          | true => exact ih start
          | false =>
              refine (ih _).trans (congrArg some ?_)
              exact (bestOf_cons start cand _).symm

/-! ## The walk in a tree -/

section Tree

variable {nodes : List Node}

/-- A tree of nodes with the controller as its root. -/
structure Tree (nodes : List Node) : Prop where
  table : NodeTable nodes
  attached : ∀ n ∈ nodes, Attached (up nodes) "ac" n.id

/-- Only nodes have a parent. -/
theorem exists_node_of_up {id parent : String} (link : up nodes id = some parent) : ∃ n ∈ nodes, n.id = id := by
  have known := parentMap_of_up link
  rw [parentMap] at known
  obtain ⟨n, found, -⟩ := Option.bind_eq_some_iff.mp known
  obtain ⟨member, same⟩ := nodeById_mem found
  exact ⟨n, member, (Option.some.inj same).symm⟩

theorem Tree.not_below_itself (tree : Tree nodes) (id : String) : ¬Ancestor (up nodes) id id := by
  intro cycle
  obtain ⟨parent, link⟩ := cycle.exists_parent
  obtain ⟨n, member, rfl⟩ := exists_node_of_up link
  exact (tree.attached n member).not_ancestor_self (up_controller tree.table) cycle

/-- The walk finds out whether the node is below the target. -/
theorem isBelow_iff (tree : Tree nodes) (target : String) {k fuel : ℕ} {n : Node} (member : n ∈ nodes)
    (depth : Depth (up nodes) "ac" n.id k) (enough : k < fuel) :
    isBelow nodes target fuel (some n) = some true ↔ Ancestor (up nodes) target n.id := by
  induction k generalizing n fuel with
  | zero =>
      obtain ⟨fuel, rfl⟩ := Nat.exists_eq_add_of_lt enough
      obtain ⟨ac, acMember, acId, acParent⟩ := tree.table.root
      have isRoot : n = ac :=
        List.inj_on_of_nodup_map tree.table.distinct member acMember (depth.eq_root.trans acId.symm)
      rw [isBelow, isRoot, acParent, acId]
      constructor
      · rintro ⟨⟩
      · intro above
        obtain ⟨m, shallow, -⟩ := above.depth_lt (up_controller tree.table) .root
        exact absurd shallow (Nat.not_lt_zero m)
  | succ k ih =>
      obtain ⟨fuel, rfl⟩ : ∃ rest, fuel = rest + 1 := ⟨fuel - 1, by omega⟩
      obtain ⟨apart, b, link, depth'⟩ := depth.succ_parent
      obtain ⟨isParent, next, found, rfl⟩ := (up_eq_some tree.table.distinct member).mp link
      rw [isBelow, isParent]
      rw [isParent] at found
      simp only
      split
      next here =>
        rw [← here]
        exact ⟨fun _ => .of_parent link, fun _ => rfl⟩
      next apart =>
        rw [found, ih (nodeById_mem found).1 depth' (Nat.lt_of_succ_lt_succ enough)]
        exact ⟨fun above => above.trans (.of_parent link), fun above => (above.parent_or link).resolve_left fun same => apart same.symm⟩

theorem forwardedBy_iff {fuel : Nat} {client : Client} (walks : ∀ id, (isBelow nodes client.nodeId fuel (nodeById nodes id)).isSome)
    (candidates : List Client) :
    forwardedBy nodes fuel client candidates = some true ↔
      ∃ other ∈ candidates, (other.nodeId ≠ client.nodeId ∧ ¬clientOnUplink nodes other) ∧
        isBelow nodes client.nodeId fuel (nodeById nodes (some other.nodeId)) = some true := by
  induction candidates with
  | nil => simp [forwardedBy]
  | cons other rest ih =>
      obtain ⟨below, walk⟩ := Option.isSome_iff_exists.mp (walks (some other.nodeId))
      rw [forwardedBy, List.exists_mem_cons_iff, walk, ← ih]
      cases below with
      | true =>
          split
          next counts => exact ⟨fun _ => .inl ⟨counts, rfl⟩, fun _ => rfl⟩
          next skipped => exact (or_iff_right fun here => skipped here.1).symm
      | false => simp

/-- What enough fuel gives for the second filter. -/
def Forwards (nodes : List Node) (fuel : Nat) : Prop :=
  ∀ client candidates, (clientForwardedDownstream nodes fuel client candidates).isSome ∧
    (clientForwardedDownstream nodes fuel client candidates = some true ↔
      client.accessType = some "wired" ∧ ∃ other ∈ candidates, clientOnUplink nodes other = false ∧
        Ancestor (up nodes) client.nodeId other.nodeId)

/-- In a tree a wired candidate is forwarded exactly where a node further down has seen the client off its uplink. -/
theorem clientForwardedDownstream_iff (tree : Tree nodes) :
    ∃ limit, ∀ fuel ≥ limit, Forwards nodes fuel := by
  obtain ⟨bound, bounded⟩ := exists_depth_bound (nodes.map Node.id) fun id member => by
    obtain ⟨n, inside, rfl⟩ := List.mem_map.mp member
    exact tree.attached n inside
  refine ⟨bound + 1, fun fuel enough client candidates => ?_⟩
  have below : ∀ id, isBelow nodes client.nodeId fuel (nodeById nodes (some id)) = some true ↔
      Ancestor (up nodes) client.nodeId id := by
    intro id
    cases found : nodeById nodes (some id) with
    | none =>
        obtain ⟨rest, rfl⟩ := Nat.exists_eq_add_of_le' (Nat.le_of_add_left_le enough)
        refine ⟨nofun, fun above => ?_⟩
        obtain ⟨parent, link⟩ := above.exists_parent
        obtain ⟨n, member, rfl⟩ := exists_node_of_up link
        rw [(nodeById_eq_some tree.table.distinct).mpr ⟨member, rfl⟩] at found
        cases found
    | some n =>
        obtain ⟨member, same⟩ := nodeById_mem found
        obtain ⟨k, small, depth⟩ := bounded n.id (List.mem_map_of_mem member)
        rw [isBelow_iff tree client.nodeId member depth (by omega), Option.some.inj same]
  have walks : ∀ id, (isBelow nodes client.nodeId fuel (nodeById nodes id)).isSome := by
    intro id
    cases found : nodeById nodes id with
    | none =>
        obtain ⟨rest, rfl⟩ := Nat.exists_eq_add_of_le' (Nat.le_of_add_left_le enough)
        rfl
    | some n =>
        have member := (nodeById_mem found).1
        obtain ⟨k, small, depth⟩ := bounded n.id (List.mem_map_of_mem member)
        exact isBelow_terminates tree.table client.nodeId member depth (by omega)
  unfold clientForwardedDownstream
  split
  next wireless => exact ⟨rfl, nofun, fun wired => absurd wired.1 wireless⟩
  next wired =>
    rw [forwardedBy_iff walks]
    refine ⟨forwardedBy_terminates walks candidates, ?_⟩
    constructor
    · rintro ⟨other, member, ⟨-, off⟩, walk⟩
      exact ⟨not_not.mp wired, other, member, Bool.eq_false_iff.mpr off, (below _).mp walk⟩
    · rintro ⟨-, other, member, off, above⟩
      refine ⟨other, member, ⟨?_, Bool.eq_false_iff.mp off⟩, (below _).mpr above⟩
      intro same
      rw [same] at above
      exact tree.not_below_itself _ above

theorem isEligible_iff {fuel : Nat} (forwards : Forwards nodes fuel) {group : List Candidate} {cand : Candidate} :
    isEligible nodes fuel group cand = true ↔ clientOnUplink nodes cand.toClient = false ∧
      (cand.accessType = some "wired" → ∀ other ∈ group, clientOnUplink nodes other.toClient = false →
        ¬Ancestor (up nodes) cand.nodeId other.nodeId) := by
  obtain ⟨returns, forwarded⟩ := forwards cand.toClient (group.map Candidate.toClient)
  obtain ⟨answer, walk⟩ := Option.isSome_iff_exists.mp returns
  rw [isEligible, Bool.and_eq_true, Bool.not_eq_true', decide_eq_true_eq]
  refine and_congr_right fun off => ?_
  rw [walk] at forwarded ⊢
  constructor
  · rintro ⟨⟩ wired other member otherOff above
    exact nomatch forwarded.mpr ⟨wired, other.toClient, List.mem_map_of_mem member, otherOff, above⟩
  · intro alone
    cases answer with
    | false => rfl
    | true =>
        obtain ⟨wired, client, member, clientOff, above⟩ := forwarded.mp rfl
        obtain ⟨other, inside, rfl⟩ := List.mem_map.mp member
        exact absurd above (alone wired other inside clientOff)

/-- Of the candidates off the uplinks one is eligible: nothing is seen below the deepest. -/
theorem exists_eligible (tree : Tree nodes) {fuel : Nat} (forwards : Forwards nodes fuel) {group : List Candidate}
    {cand : Candidate} (inside : cand ∈ group) (off : clientOnUplink nodes cand.toClient = false) :
    ∃ best ∈ group, isEligible nodes fuel group best = true := by
  obtain ⟨bound, bounded⟩ := exists_depth_bound (nodes.map Node.id) fun id member => by
    obtain ⟨n, inside, rfl⟩ := List.mem_map.mp member
    exact tree.attached n inside
  -- A candidate that is filtered out was seen deeper by another one.
  have deeper : ∀ cand ∈ group, clientOnUplink nodes cand.toClient = false → isEligible nodes fuel group cand = false →
      ∃ other ∈ group, clientOnUplink nodes other.toClient = false ∧ ∃ m ≤ bound, Depth (up nodes) "ac" other.nodeId m ∧
        ∀ n, Depth (up nodes) "ac" cand.nodeId n → n < m := by
    intro cand _ off filtered
    have fails := Bool.eq_false_iff.mp filtered
    rw [Ne, isEligible_iff forwards] at fails
    push Not at fails
    obtain ⟨-, other, member, otherOff, above⟩ := fails off
    obtain ⟨parent, link⟩ := above.exists_parent
    obtain ⟨n, isNode, same⟩ := exists_node_of_up link
    obtain ⟨m, small, depth⟩ := bounded n.id (List.mem_map_of_mem isNode)
    rw [same] at depth
    refine ⟨other, member, otherOff, m, small, depth, fun n here => ?_⟩
    obtain ⟨k, shallow, there⟩ := above.depth_lt (up_controller tree.table) depth
    rwa [here.unique there]
  -- The induction is on how far a candidate is from the greatest depth.
  have run : ∀ left n : ℕ, bound ≤ n + left → ∀ cand ∈ group, clientOnUplink nodes cand.toClient = false →
      Depth (up nodes) "ac" cand.nodeId n → ∃ best ∈ group, isEligible nodes fuel group best = true := by
    intro left
    induction left with
    | zero =>
        intro n far cand inside off depth
        cases eligible : isEligible nodes fuel group cand with
        | true => exact ⟨cand, inside, eligible⟩
        | false =>
            obtain ⟨other, -, -, m, small, -, below⟩ := deeper cand inside off eligible
            have shallow := below n depth
            omega
    | succ left ih =>
        intro n far cand inside off depth
        cases eligible : isEligible nodes fuel group cand with
        | true => exact ⟨cand, inside, eligible⟩
        | false =>
            obtain ⟨other, member, otherOff, m, small, depth', below⟩ := deeper cand inside off eligible
            have shallow := below n depth
            exact ih m (by omega) other member otherOff depth'
  cases eligible : isEligible nodes fuel group cand with
  | true => exact ⟨cand, inside, eligible⟩
  | false =>
      obtain ⟨other, member, otherOff, m, -, depth, -⟩ := deeper cand inside off eligible
      exact run bound m (Nat.le_add_left _ _) other member otherOff depth

theorem bestOf_mem {cands : List Candidate} (some : cands ≠ []) : ∃ best ∈ cands, bestOf none cands = .some best := by
  obtain ⟨first, rest, rfl⟩ := List.exists_cons_of_ne_nil some
  exact ⟨_, Choice.survivor_mem, rfl⟩

/-- A client that was seen off the uplinks is placed, and a wired place is one below which it was not seen. -/
theorem pickClient_placed (tree : Tree nodes) :
    ∃ limit, ∀ fuel ≥ limit, ∀ group : List Candidate, (∃ cand ∈ group, clientOnUplink nodes cand.toClient = false) →
      ∃ best ∈ group, pickClient nodes fuel group none group = some (some best) ∧
        clientOnUplink nodes best.toClient = false ∧
        (best.accessType = some "wired" → ∀ other ∈ group, clientOnUplink nodes other.toClient = false →
          ¬Ancestor (up nodes) best.nodeId other.nodeId) := by
  obtain ⟨limit, forwards⟩ := clientForwardedDownstream_iff tree
  refine ⟨limit, fun fuel enough group => ?_⟩
  rintro ⟨cand, inside, off⟩
  have known : Forwards nodes fuel := forwards fuel enough
  obtain ⟨good, member, eligible⟩ := exists_eligible tree known inside off
  have some : group.filter (isEligible nodes fuel group) ≠ [] :=
    List.ne_nil_of_mem (List.mem_filter.mpr ⟨member, eligible⟩)
  obtain ⟨best, chosen, picked⟩ := bestOf_mem some
  obtain ⟨bestInside, bestEligible⟩ := List.mem_filter.mp chosen
  refine ⟨best, bestInside, ?_, (isEligible_iff known).mp bestEligible⟩
  rw [pickClient_eq (fun client candidates => (known client candidates).1), picked]

/-- A node behind the controller's port, and a client that both see on the wire. -/
def chainNodes : List Node :=
  [⟨"ac", none, none, none, 0⟩, ⟨"node_a", some "ac", some ⟨some "wired", some "lan1", none⟩, none, 1⟩]

def wiredAt (nodeId port : String) : Candidate :=
  { nodeId, accessType := some "wired", ifname := none, port := some port, mac := "AA:BB:CC:DD:EE:FF" }

theorem pickClient_placed_chain :
    ∃ limit, ∀ fuel ≥ limit, ∃ best ∈ [wiredAt "ac" "lan2", wiredAt "node_a" "lan3"],
      pickClient chainNodes fuel [wiredAt "ac" "lan2", wiredAt "node_a" "lan3"] none
          [wiredAt "ac" "lan2", wiredAt "node_a" "lan3"] = some (some best) ∧
        clientOnUplink chainNodes best.toClient = false := by
  have controller : Depth (up chainNodes) "ac" "ac" 0 := .root
  have tree : Tree chainNodes := by
    refine ⟨⟨by decide, _, .head _, rfl, rfl⟩, ?_⟩
    simp only [chainNodes, List.forall_mem_cons]
    exact ⟨⟨0, controller⟩, ⟨1, .step (by decide) (by decide) controller⟩, List.forall_mem_nil _⟩
  obtain ⟨limit, placed⟩ := pickClient_placed tree
  refine ⟨limit, fun fuel enough => ?_⟩
  obtain ⟨best, inside, picked, off, -⟩ := placed fuel enough _ ⟨wiredAt "ac" "lan2", .head _, by decide⟩
  exact ⟨best, inside, picked, off⟩

end Tree

end XWrt.Fakemesh
