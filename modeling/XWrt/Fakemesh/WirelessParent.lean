import Mathlib.Data.List.Dedup
import XWrt.Fakemesh.Nodes

/-!
# The parent of a wireless node

`get_topology` finds the parent of a wireless node by the BSSID it reports: the
node that owns the BSSID, or the owner of the first BSSID in the table that
shares its first 14 characters. The fallback takes the table in the order of
`pairs` and does not leave out the node itself.
-/

namespace XWrt.Fakemesh

/-! ## The table of the BSSIDs -/

/-- The BSSIDs that a node registers. -/
def MeshNode.bssids (n : MeshNode) : List String := (n.meshBssid.toList ++ n.radios.filterMap Radio.bssid).filter (· ≠ "")

/-- `bssid_to_node[bssid]`. -/
def owner (nodes : List MeshNode) (bssid : String) : Option String := lastAssigned (bssidAssignments nodes) bssid

theorem lastAssigned_append (first second : List (String × String)) (key : String) :
    lastAssigned (first ++ second) key = (lastAssigned second key <|> lastAssigned first key) := by
  rw [lastAssigned, List.reverse_append, List.find?_append]
  cases found : second.reverse.find? fun entry => entry.1 = key <;> simp [lastAssigned, found]

theorem lastAssigned_isSome {assignments : List (String × String)} {key : String} :
    (lastAssigned assignments key).isSome ↔ key ∈ assignments.map Prod.fst := by
  rw [lastAssigned, Option.isSome_map, List.find?_isSome]
  simp

theorem mem_keys {nodes : List MeshNode} {bssid : String} :
    bssid ∈ ((bssidAssignments nodes).map Prod.fst).dedup ↔ ∃ p, owner nodes bssid = some p := by
  rw [List.mem_dedup, ← lastAssigned_isSome, Option.isSome_iff_exists]
  rfl

/-! ## Other orders of registration -/

/-- Nodes without a common BSSID have traded places. -/
inductive Reordered : List MeshNode → List MeshNode → Prop where
  | refl (nodes : List MeshNode) : Reordered nodes nodes
  | swap {first second : MeshNode} (before after : List MeshNode) (distinct : first.bssids.Disjoint second.bssids) :
      Reordered (before ++ second :: first :: after) (before ++ first :: second :: after)
  | trans {left middle right : List MeshNode} (early : Reordered left middle) (late : Reordered middle right) :
      Reordered left right

theorem Reordered.cons {left right : List MeshNode} (n : MeshNode) (same : Reordered left right) :
    Reordered (n :: left) (n :: right) := by
  induction same with
  | refl nodes => exact .refl _
  | swap before after distinct => exact .swap (n :: before) after distinct
  | trans _ _ early late => exact early.trans late

/-- Where no two nodes share a BSSID, every order can be reached. -/
theorem reordered_of_perm {left right : List MeshNode} (perm : left.Perm right)
    (distinct : right.Pairwise fun first second => first.bssids.Disjoint second.bssids) : Reordered left right := by
  induction perm with
  | nil => exact .refl _
  | cons n _ ih => exact (ih (List.pairwise_cons.mp distinct).2).cons n
  | swap first second nodes => exact .swap [] nodes ((List.pairwise_cons.mp distinct).1 _ (.head _))
  | trans early late ihEarly ihLate =>
      refine (ihEarly ?_).trans (ihLate distinct)
      exact (late.pairwise_iff fun {_ _} (apart : List.Disjoint _ _) => apart.symm).mpr distinct

theorem owner_reordered {left right : List MeshNode} (same : Reordered left right) : owner left = owner right := by
  induction same with
  | refl nodes => rfl
  | @swap first second before after distinct =>
      funext bssid
      have none : lastAssigned (first.bssids.map fun bssid => (bssid, first.id)) bssid = .none ∨
          lastAssigned (second.bssids.map fun bssid => (bssid, second.id)) bssid = .none := by
        by_contra both
        rw [not_or, ← Ne, ← Ne, ← Option.isSome_iff_ne_none, ← Option.isSome_iff_ne_none, lastAssigned_isSome,
          lastAssigned_isSome] at both
        simp only [List.map_map, Function.comp_def, List.map_id'] at both
        exact distinct both.1 both.2
      have table : ∀ first second : MeshNode, owner (before ++ first :: second :: after) bssid =
          (((lastAssigned (bssidAssignments after) bssid <|>
            lastAssigned (second.bssids.map fun bssid => (bssid, second.id)) bssid) <|>
            lastAssigned (first.bssids.map fun bssid => (bssid, first.id)) bssid) <|>
            lastAssigned (bssidAssignments before) bssid) := by
        intro first second
        rw [owner, bssidAssignments, List.flatMap_append, List.flatMap_cons, List.flatMap_cons, lastAssigned_append,
          lastAssigned_append, lastAssigned_append]
        rfl
      rw [table, table]
      rcases none with none | none <;> rw [none] <;> simp
  | trans _ _ early late => exact early.trans late

/-! ## The choice of the parent -/

/-- A node that is placed by the BSSID of its parent. -/
structure Wireless (n : MeshNode) (parentBssid : String) : Prop where
  agent : n.id ≠ "ac"
  online : n.online = true
  link : ∃ up : Link, (n.upstream <|> n.backhaul) = some up ∧ up.type = some "wireless" ∧ up.parentBssid = some parentBssid
  named : parentBssid ≠ ""

theorem placeNode_wireless {pairs : PairsOrder} {nodes : List MeshNode} {n : MeshNode} {parentBssid : String}
    (wireless : Wireless n parentBssid) :
    (placeNode pairs nodes n).parentId = (bssidParent pairs nodes parentBssid <|> some "ac") := by
  obtain ⟨up, found, radio, parent⟩ := wireless.link
  have named : (some parentBssid).any (· ≠ "") = true := decide_eq_true wireless.named
  simp only [placeNode, if_pos wireless.agent, wireless.online, not_true_eq_false, if_false, found, Option.getD_some, radio,
    parent, named, true_and, if_true, Option.bind_some]

/-- The BSSIDs that the fallback takes for the wanted one. -/
def Alike (parentBssid bssid : String) : Prop := bssid.toList.take 14 = parentBssid.toList.take 14

instance (parentBssid : String) : DecidablePred (Alike parentBssid) := fun _ => inferInstanceAs (Decidable (_ = _))

theorem bssidParent_of_owner {pairs : PairsOrder} {nodes : List MeshNode} {parentBssid p : String}
    (known : owner nodes parentBssid = some p) : bssidParent pairs nodes parentBssid = some p := by
  rw [owner] at known
  rw [bssidParent, known]
  rfl

section Fallback

variable {pairs : PairsOrder} {nodes : List MeshNode} {parentBssid : String} (unknown : owner nodes parentBssid = none)
include unknown

theorem bssidParent_short (short : parentBssid.toList.length < 14) : bssidParent pairs nodes parentBssid = none := by
  rw [owner] at unknown
  rw [bssidParent, unknown, if_neg (not_le.mpr short)]
  rfl

theorem bssidParent_long (long : 14 ≤ parentBssid.toList.length) :
    bssidParent pairs nodes parentBssid =
      ((pairs.order .bssids ((bssidAssignments nodes).map Prod.fst).dedup).find? (Alike parentBssid ·)).bind (owner nodes) := by
  rw [owner] at unknown
  rw [bssidParent, unknown, if_pos long]
  rfl

/-- The fallback finds the owner of some BSSID that is alike. -/
theorem bssidParent_alike (long : 14 ≤ parentBssid.toList.length) {p : String}
    (found : bssidParent pairs nodes parentBssid = some p) : ∃ bssid, Alike parentBssid bssid ∧ owner nodes bssid = some p := by
  rw [bssidParent_long unknown long] at found
  obtain ⟨bssid, first, owned⟩ := Option.bind_eq_some_iff.mp found
  have alike := List.find?_some first
  exact ⟨bssid, of_decide_eq_true alike, owned⟩

/-- It finds one where there is one. -/
theorem bssidParent_isSome (long : 14 ≤ parentBssid.toList.length) {bssid p : String} (alike : Alike parentBssid bssid)
    (owned : owner nodes bssid = some p) : (bssidParent pairs nodes parentBssid).isSome := by
  have keys := pairs.perm .bssids ((bssidAssignments nodes).map Prod.fst).dedup
  have some : ((pairs.order .bssids ((bssidAssignments nodes).map Prod.fst).dedup).find? (Alike parentBssid ·)).isSome := by
    rw [List.find?_isSome]
    exact ⟨bssid, keys.mem_iff.mpr (mem_keys.mpr ⟨p, owned⟩), decide_eq_true alike⟩
  obtain ⟨first, found⟩ := Option.isSome_iff_exists.mp some
  obtain ⟨q, owner⟩ := mem_keys.mp (keys.mem_iff.mp (List.mem_of_find?_eq_some found))
  rw [bssidParent_long unknown long, found, Option.bind_some, owner]
  rfl

end Fallback

/-- The order that visits a key first. -/
def visitFirst (key : String) : PairsOrder where
  order _ keys := if key ∈ keys then key :: keys.erase key else keys
  perm _ keys := by
    split
    next inside => exact (List.perm_cons_erase inside).symm
    next => exact .refl keys

theorem bssidParent_visitFirst {nodes : List MeshNode} {parentBssid : String} (unknown : owner nodes parentBssid = none)
    (long : 14 ≤ parentBssid.toList.length) {bssid p : String} (alike : Alike parentBssid bssid) (owned : owner nodes bssid = some p) :
    bssidParent (visitFirst bssid) nodes parentBssid = some p := by
  have first : (visitFirst bssid).order .bssids ((bssidAssignments nodes).map Prod.fst).dedup =
      bssid :: ((bssidAssignments nodes).map Prod.fst).dedup.erase bssid := if_pos (mem_keys.mpr ⟨p, owned⟩)
  have here : decide (Alike parentBssid bssid) = true := decide_eq_true alike
  rw [bssidParent_long unknown long, first, List.find?_cons, here, Option.bind_some, owned]

/-! ## When the parent is well defined -/

/-- The BSSID belongs to another node, or nobody has it and all BSSIDs with the same first 14 characters belong to one
other node. -/
def Determined (nodes : List MeshNode) (n : MeshNode) (parentBssid : String) : Prop :=
  match owner nodes parentBssid with
  | some p => p ≠ n.id
  | none => 14 ≤ parentBssid.toList.length →
      ∃ q, q ≠ n.id ∧ ∀ bssid p, Alike parentBssid bssid → owner nodes bssid = some p → p = q

section Determined

variable {nodes : List MeshNode} {n : MeshNode} {parentBssid : String}

/-- Every order gives one and the same parent, and not the node itself. -/
theorem Determined.exists_parent (agent : n.id ≠ "ac") (determined : Determined nodes n parentBssid) :
    ∃ q, q ≠ n.id ∧ ∀ (pairs : PairsOrder) (order : List MeshNode), Reordered order nodes →
      (bssidParent pairs order parentBssid <|> some "ac") = some q := by
  rw [Determined] at determined
  cases known : owner nodes parentBssid with
  | some p =>
      rw [known] at determined
      refine ⟨p, determined, fun pairs order same => ?_⟩
      rw [bssidParent_of_owner ((congrFun (owner_reordered same) _).trans known)]
      rfl
  | none =>
      rw [known] at determined
      have unknown : ∀ order, Reordered order nodes → owner order parentBssid = none :=
        fun order same => (congrFun (owner_reordered same) _).trans known
      rcases lt_or_ge parentBssid.toList.length 14 with short | long
      · refine ⟨"ac", agent.symm, fun pairs order same => ?_⟩
        rw [bssidParent_short (unknown order same) short]
        rfl
      · obtain ⟨q, other, only⟩ := determined long
        by_cases some : ∃ bssid p, Alike parentBssid bssid ∧ owner nodes bssid = .some p
        · obtain ⟨bssid, p, alike, owned⟩ := some
          refine ⟨q, other, fun pairs order same => ?_⟩
          have table := owner_reordered same
          obtain ⟨r, found⟩ := Option.isSome_iff_exists.mp
            (@bssidParent_isSome pairs _ _ (unknown order same) long _ _ alike ((congrFun table _).trans owned))
          obtain ⟨bssid', alike', owned'⟩ := bssidParent_alike (unknown order same) long found
          rw [found, only bssid' r alike' ((congrFun table _).symm.trans owned')]
          rfl
        · refine ⟨"ac", agent.symm, fun pairs order same => ?_⟩
          cases found : bssidParent pairs order parentBssid with
          | none => rfl
          | some r =>
              obtain ⟨bssid, alike, owned⟩ := bssidParent_alike (unknown order same) long found
              exact absurd ⟨bssid, r, alike, (congrFun (owner_reordered same) _).symm.trans owned⟩ some

/-- One parent for all orders of the table is determined. -/
theorem determined_of_stable (agent : n.id ≠ "ac")
    (other : ∀ pairs, (bssidParent pairs nodes parentBssid <|> some "ac") ≠ some n.id)
    (same : ∀ pairs pairs', (bssidParent pairs nodes parentBssid <|> some "ac") =
      (bssidParent pairs' nodes parentBssid <|> some "ac")) : Determined nodes n parentBssid := by
  rw [Determined]
  cases known : owner nodes parentBssid with
  | some p =>
      rintro rfl
      refine other (visitFirst parentBssid) ?_
      rw [bssidParent_of_owner known]
      rfl
  | none =>
      intro long
      by_cases some : ∃ bssid p, Alike parentBssid bssid ∧ owner nodes bssid = .some p
      · obtain ⟨bssid, q, alike, owned⟩ := some
        have parent := bssidParent_visitFirst known long alike owned
        refine ⟨q, ?_, fun bssid' p alike' owned' => ?_⟩
        · rintro rfl
          refine other (visitFirst bssid) ?_
          rw [parent]
          rfl
        · have both := same (visitFirst bssid') (visitFirst bssid)
          rw [bssidParent_visitFirst known long alike' owned', parent] at both
          exact Option.some.inj both
      · exact ⟨"ac", agent.symm, fun bssid p alike owned => absurd ⟨bssid, p, alike, owned⟩ some⟩

end Determined

/-- The parent of a wireless node is the same for every order of the table and of the registration, and another node,
exactly when it is determined. -/
theorem wirelessParent_iff {nodes : List MeshNode} {n : MeshNode} {parentBssid : String} (wireless : Wireless n parentBssid) :
    (∀ (pairs pairs' : PairsOrder) (order : List MeshNode), Reordered order nodes →
      (placeNode pairs order n).parentId = (placeNode pairs' nodes n).parentId ∧
        (placeNode pairs order n).parentId ≠ some n.id) ↔ Determined nodes n parentBssid := by
  simp only [placeNode_wireless wireless]
  constructor
  · intro stable
    exact determined_of_stable wireless.agent (fun pairs => (stable pairs pairs nodes (.refl nodes)).2)
      fun pairs pairs' => (stable pairs pairs' nodes (.refl nodes)).1
  · intro determined pairs pairs' order same
    obtain ⟨q, other, always⟩ := determined.exists_parent wireless.agent
    rw [always pairs order same, always pairs' nodes (.refl nodes)]
    exact ⟨rfl, fun itself => other (Option.some.inj itself)⟩

/-- A node with one radio, and the BSSID that it reports for its parent. -/
def radioNode (id bssid parentBssid : String) : MeshNode :=
  { id := id, role := none, mac := none, ip := none, hostname := none, model := none, meshId := none, band := none
    meshBssid := some bssid, uptime := none, online := true
    upstream := some { type := some "wireless", ifname := none, port := none, parentBssid := some parentBssid }
    backhaul := none, radios := [], wiredPorts := [] }

theorem wireless_radioNode {id bssid parentBssid : String} (agent : id ≠ "ac") (named : parentBssid ≠ "") :
    Wireless (radioNode id bssid parentBssid) parentBssid :=
  ⟨agent, rfl, ⟨_, rfl, rfl, rfl⟩, named⟩

/-- Three radios of one batch; the first node reports a BSSID that nobody has. -/
def batch : List MeshNode :=
  [radioNode "node_a" "AA:BB:CC:DD:EE:01" "AA:BB:CC:DD:EE:F0", radioNode "node_b" "AA:BB:CC:DD:EE:02" "11:22:33:44:55:66",
    radioNode "node_c" "AA:BB:CC:DD:EE:03" "11:22:33:44:55:66"]

/-- Every one of them can become the parent of the first, itself included. -/
theorem batch_anyParent :
    Wireless (radioNode "node_a" "AA:BB:CC:DD:EE:01" "AA:BB:CC:DD:EE:F0") "AA:BB:CC:DD:EE:F0" ∧
      ∀ n ∈ batch, ∃ pairs : PairsOrder,
        (placeNode pairs batch (radioNode "node_a" "AA:BB:CC:DD:EE:01" "AA:BB:CC:DD:EE:F0")).parentId = some n.id := by
  have wireless : Wireless (radioNode "node_a" "AA:BB:CC:DD:EE:01" "AA:BB:CC:DD:EE:F0") "AA:BB:CC:DD:EE:F0" :=
    wireless_radioNode (by decide) (by decide)
  refine ⟨wireless, fun n member => ?_⟩
  have registered : ∃ bssid, Alike "AA:BB:CC:DD:EE:F0" bssid ∧ owner batch bssid = some n.id := by
    rcases List.mem_cons.mp member with rfl | member
    · exact ⟨"AA:BB:CC:DD:EE:01", by decide, by decide⟩
    · rcases List.mem_pair.mp member with rfl | rfl
      · exact ⟨"AA:BB:CC:DD:EE:02", by decide, by decide⟩
      · exact ⟨"AA:BB:CC:DD:EE:03", by decide, by decide⟩
  obtain ⟨bssid, alike, owned⟩ := registered
  refine ⟨visitFirst bssid, ?_⟩
  rw [placeNode_wireless wireless, bssidParent_visitFirst (by decide) (by decide) alike owned]
  rfl

/-- A node that reports the BSSID of another one has that one for its parent, in every order. -/
theorem wirelessParent_known :
    let n := radioNode "node_d" "AA:BB:CC:DD:EE:04" "AA:BB:CC:DD:EE:02"
    (placeNode (visitFirst "AA:BB:CC:DD:EE:01") (batch ++ [n]) n).parentId =
        (placeNode (visitFirst "AA:BB:CC:DD:EE:03") (n :: batch) n).parentId ∧
      (placeNode (visitFirst "AA:BB:CC:DD:EE:01") (batch ++ [n]) n).parentId ≠ some "node_d" := by
  intro n
  have known : owner (n :: batch) "AA:BB:CC:DD:EE:02" = some "node_b" := by decide
  have determined : Determined (n :: batch) n "AA:BB:CC:DD:EE:02" := by
    rw [Determined, known]
    decide
  have distinct : (n :: batch).Pairwise fun first second => ∀ bssid ∈ first.bssids, bssid ∉ second.bssids := by decide
  have order : Reordered (batch ++ [n]) (n :: batch) :=
    reordered_of_perm List.perm_append_comm (distinct.imp fun apart bssid => apart bssid)
  exact (wirelessParent_iff (wireless_radioNode (by decide) (by decide))).mpr determined _ _ _ order

end XWrt.Fakemesh
