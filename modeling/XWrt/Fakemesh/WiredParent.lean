import XWrt.Fakemesh.Topology
import XWrt.Foundation.Text

/-!
# Wired parents from bridge tables

`wired_parent` of `get_topology`, with the tables that it reads. A bridge learns
an address from every node that it reaches through a port, near or far, so the
last node that reports a MAC is not always its parent. The search takes the
reporter that no other reporter lies behind.
-/

namespace XWrt.Fakemesh

open XWrt.Foundation XWrt.Foundation.Text

/-- An entry of `wired_ports`: an address that the bridge learned on a port. -/
structure WiredPort where
  mac : Option String
  port : Option String
  speed : Option String
  deriving DecidableEq, Repr

/-- What `wired_parent` reads of a node table. -/
structure WiredNode where
  id : String
  mac : Option String
  upstream : Option Uplink
  backhaul : Option Uplink
  wiredPorts : List WiredPort
  deriving DecidableEq, Repr

/-- A downstream report of an address. -/
structure Downstream where
  node : WiredNode
  port : Option String
  speed : Option String
  deriving DecidableEq, Repr

/-- `wired_downstream` and `downstream_by_node`. -/
structure WiredTables where
  wiredDownstream : String → List Downstream
  downstreamByNode : String → List String

/-- `n.upstream or n.backhaul`. -/
def WiredNode.uplink (n : WiredNode) : Option Uplink := n.upstream <|> n.backhaul

/-- One turn of the loop over `n.wired_ports`. -/
def recordPort (n : WiredNode) (tables : WiredTables) (wp : WiredPort) : WiredTables :=
  match wp.mac with
  | none => tables
  | some mac =>
      if isUplinkPort n.uplink wp.port then tables
      else
        { wiredDownstream := Function.update tables.wiredDownstream (upper mac)
            (tables.wiredDownstream (upper mac) ++ [⟨n, wp.port, wp.speed⟩])
          downstreamByNode := Function.update tables.downstreamByNode n.id (upper mac :: tables.downstreamByNode n.id) }

/-- One turn of the loop over the nodes. -/
def recordNode (tables : WiredTables) (n : WiredNode) : WiredTables :=
  n.wiredPorts.foldl (recordPort n) { tables with downstreamByNode := Function.update tables.downstreamByNode n.id [] }

/-- The tables of all downstream reports. -/
def wiredTables (nodes : List WiredNode) : WiredTables :=
  nodes.foldl recordNode ⟨fun _ => [], fun _ => []⟩

/-- `downstream_by_node[id][mac]`. -/
def WiredTables.reports (tables : WiredTables) (id : String) (mac : Option String) : Bool :=
  mac.any fun mac => mac ∈ tables.downstreamByNode id

/-- `nearest` at the end of the inner loop of `wired_parent`. -/
def isNearest (tables : WiredTables) (node : WiredNode) (candidates : List Downstream) (candidate : Downstream) : Bool :=
  let parent := candidate.node
  parent.id != node.id && !tables.reports node.id parent.mac &&
    candidates.all fun other =>
      !(other.node.id != node.id && other.node.id != parent.id && tables.reports parent.id other.node.mac)

/-- The outer loop of `wired_parent`, over what is left of the candidates. -/
def pickNearest (nearest : Downstream → Bool) : Option Downstream → List Downstream → Option Downstream
  | best, [] => best
  | best, candidate :: rest =>
      if nearest candidate then
        if best.any fun best => best.node.id != candidate.node.id then none
        else pickNearest nearest (some candidate) rest
      else pickNearest nearest best rest

/-- `wired_parent`. -/
def wiredParent (nodes : List WiredNode) (node : WiredNode) : Option Downstream :=
  let tables := wiredTables nodes
  let candidates := (node.mac.map tables.wiredDownstream).getD []
  pickNearest (isNearest tables node candidates) none candidates

/-! ## What the tables hold -/

/-- The address that a port reports downstream, in upper case. -/
def WiredNode.reported (n : WiredNode) (wp : WiredPort) : Option String :=
  if isUplinkPort n.uplink wp.port then none else wp.mac.map upper

/-- The node reports the address downstream. -/
def WiredNode.Reports (n : WiredNode) (mac : String) : Prop := ∃ wp ∈ n.wiredPorts, n.reported wp = some mac

/-- A port adds what it reports to both tables. -/
theorem recordPort_eq (n : WiredNode) (tables : WiredTables) (wp : WiredPort) :
    recordPort n tables wp =
      match n.reported wp with
      | none => tables
      | some mac =>
          { wiredDownstream := Function.update tables.wiredDownstream mac
              (tables.wiredDownstream mac ++ [⟨n, wp.port, wp.speed⟩])
            downstreamByNode := Function.update tables.downstreamByNode n.id (mac :: tables.downstreamByNode n.id) } := by
  unfold recordPort WiredNode.reported
  cases wp.mac with
  | none => cases isUplinkPort n.uplink wp.port <;> rfl
  | some mac => cases isUplinkPort n.uplink wp.port <;> rfl

theorem mem_recordPorts (n : WiredNode) (ports : List WiredPort) (tables : WiredTables) (mac : String) (d : Downstream) :
    d ∈ (ports.foldl (recordPort n) tables).wiredDownstream mac ↔
      d ∈ tables.wiredDownstream mac ∨ ∃ wp ∈ ports, n.reported wp = some mac ∧ d = ⟨n, wp.port, wp.speed⟩ := by
  induction ports generalizing tables with
  | nil => simp
  | cons wp rest ih =>
      rw [List.foldl_cons, ih, List.exists_mem_cons_iff, ← or_assoc, recordPort_eq]
      refine or_congr_left ?_
      cases n.reported wp with
      | none => simp
      | some key =>
          by_cases here : mac = key
          · rw [here]
            simp
          · simp [Function.update_of_ne here, Ne.symm here]

theorem mem_recordPorts_reports (n : WiredNode) (ports : List WiredPort) (tables : WiredTables) (mac : String) :
    mac ∈ (ports.foldl (recordPort n) tables).downstreamByNode n.id ↔
      mac ∈ tables.downstreamByNode n.id ∨ ∃ wp ∈ ports, n.reported wp = some mac := by
  induction ports generalizing tables with
  | nil => simp
  | cons wp rest ih =>
      rw [List.foldl_cons, ih, List.exists_mem_cons_iff, ← or_assoc, recordPort_eq]
      refine or_congr_left ?_
      cases n.reported wp with
      | none => simp
      | some key => simp [or_comm, eq_comm]

theorem recordPorts_other {n : WiredNode} {id : String} (other : id ≠ n.id) (ports : List WiredPort) (tables : WiredTables) :
    (ports.foldl (recordPort n) tables).downstreamByNode id = tables.downstreamByNode id := by
  induction ports generalizing tables with
  | nil => rfl
  | cons wp rest ih =>
      rw [List.foldl_cons, ih, recordPort_eq]
      cases n.reported wp with
      | none => rfl
      | some key => exact Function.update_of_ne other _ _

/-- Every downstream report of an address is recorded under it. -/
theorem mem_wiredDownstream {nodes : List WiredNode} {mac : String} {d : Downstream} :
    d ∈ (wiredTables nodes).wiredDownstream mac ↔
      ∃ n ∈ nodes, ∃ wp ∈ n.wiredPorts, n.reported wp = some mac ∧ d = ⟨n, wp.port, wp.speed⟩ := by
  have run : ∀ (nodes : List WiredNode) (tables : WiredTables), d ∈ (nodes.foldl recordNode tables).wiredDownstream mac ↔
      d ∈ tables.wiredDownstream mac ∨
        ∃ n ∈ nodes, ∃ wp ∈ n.wiredPorts, n.reported wp = some mac ∧ d = ⟨n, wp.port, wp.speed⟩ := by
    intro nodes
    induction nodes with
    | nil => simp
    | cons n rest ih =>
        intro tables
        rw [List.foldl_cons, ih, List.exists_mem_cons_iff, ← or_assoc, recordNode, mem_recordPorts]
  rw [wiredTables, run]
  simp

/-- The row of a node holds what the node reports. -/
theorem mem_downstreamByNode {nodes : List WiredNode} (distinct : (nodes.map WiredNode.id).Nodup) {n : WiredNode}
    (member : n ∈ nodes) {mac : String} : mac ∈ (wiredTables nodes).downstreamByNode n.id ↔ n.Reports mac := by
  have kept : ∀ (rest : List WiredNode) (tables : WiredTables), n.id ∉ rest.map WiredNode.id →
      (rest.foldl recordNode tables).downstreamByNode n.id = tables.downstreamByNode n.id := by
    intro rest
    induction rest with
    | nil => exact fun _ _ => rfl
    | cons other rest ih =>
        intro tables apart
        rw [List.map_cons, List.mem_cons, not_or] at apart
        rw [List.foldl_cons, ih _ apart.2, recordNode, recordPorts_other apart.1]
        exact Function.update_of_ne apart.1 _ _
  have run : ∀ tables, mac ∈ (nodes.foldl recordNode tables).downstreamByNode n.id ↔ n.Reports mac := by
    induction nodes with
    | nil => exact absurd member List.not_mem_nil
    | cons first rest ih =>
        intro tables
        rw [List.map_cons, List.nodup_cons] at distinct
        rw [List.foldl_cons]
        rcases List.mem_cons.mp member with rfl | later
        · rw [kept rest _ distinct.1, recordNode, mem_recordPorts_reports]
          simp [WiredNode.Reports]
        · exact ih distinct.2 later _
  exact run _

/-! ## The search -/

/-- The search returns a nearest candidate. -/
theorem pickNearest_nearest {nearest : Downstream → Bool} {d : Downstream} {candidates : List Downstream}
    {start : Option Downstream} (picked : pickNearest nearest start candidates = some d) :
    start = some d ∨ d ∈ candidates ∧ nearest d = true := by
  induction candidates generalizing start with
  | nil => exact Or.inl picked
  | cons candidate rest ih =>
      rw [pickNearest] at picked
      split_ifs at picked with near clash
      · rcases ih picked with here | ⟨later, holds⟩
        · cases here
          exact Or.inr ⟨List.mem_cons_self, near⟩
        · exact Or.inr ⟨List.mem_cons_of_mem _ later, holds⟩
      · rcases ih picked with here | ⟨later, holds⟩
        · exact Or.inl here
        · exact Or.inr ⟨List.mem_cons_of_mem _ later, holds⟩

/-- Where all nearest candidates are one node, the search finds it. -/
theorem pickNearest_finds {nearest : Downstream → Bool} {candidates : List Downstream} (start : Option Downstream) {id : String}
    (one : ∀ candidate ∈ candidates, nearest candidate = true → candidate.node.id = id)
    (started : ∀ best ∈ start, best.node.id = id)
    (found : start.isSome ∨ ∃ candidate ∈ candidates, nearest candidate = true) :
    ∃ d, pickNearest nearest start candidates = some d := by
  induction candidates generalizing start with
  | nil =>
      rcases found with start | ⟨_, none, _⟩
      · exact Option.isSome_iff_exists.mp start
      · exact absurd none List.not_mem_nil
  | cons candidate rest ih =>
      rw [List.forall_mem_cons] at one
      rw [List.exists_mem_cons_iff] at found
      rw [pickNearest]
      by_cases near : nearest candidate = true
      · have agrees : (start.any fun best => best.node.id != candidate.node.id) = false := by
          cases start with
          | none => rfl
          | some best => simp [started best rfl, one.1 near]
        rw [if_pos near, agrees, if_neg Bool.false_ne_true]
        refine ih (some candidate) one.2 ?_ (Or.inl rfl)
        rintro best ⟨rfl⟩
        exact one.1 near
      · rw [if_neg near]
        exact ih start one.2 started (found.imp_right fun found => found.resolve_left near)

/-! ## Trees of wired nodes -/

/-- The port that a node names as its uplink. -/
def Uplink.portName (uplink : Uplink) : Option String :=
  if uplink.type = some "wired" then (nonemptyOr uplink.ifname uplink.port).filter (· ≠ "") else none

theorem toLower_eq (text : String) : text.toLower = String.ofList (text.toList.map Char.toLower) := String.map_eq_internal

theorem isUplinkPort_iff {uplink : Option Uplink} {port : String} :
    isUplinkPort uplink (some port) = true ↔ ∃ name, uplink.bind Uplink.portName = some name ∧ name.toLower = port.toLower := by
  cases uplink with
  | none => simp [isUplinkPort]
  | some uplink =>
      rw [Option.bind_some, isUplinkPort, Uplink.portName]
      by_cases wired : uplink.type = some "wired"
      · cases named : nonemptyOr uplink.ifname uplink.port with
        | none => simp [wired]
        | some name =>
            by_cases empty : port = ""
            · have filled : name.toLower = "".toLower → name = "" := fun same =>
                String.map_eq_empty.mp (same.trans (String.map_eq_empty.mpr rfl))
              simp only [wired, empty]
              simp
              exact fun nonempty same => nonempty (filled same)
            · simp [wired, empty, Option.filter_some]
      · simp [wired]

/-- A port of `n` on the way to `m`: the port of the link to the child that `m` lies below, or the port of the link to
the parent where `m` does not lie below `n`. The source compares port names without regard to case. -/
inductive Leads (parent : String → Option String) (port : String → String → String) (n m : String) : Option String → Prop where
  | down {child name : String} (link : parent child = some n) (below : child = m ∨ Ancestor parent child m)
      (same : name.toLower = (port n child).toLower) : Leads parent port n m (some name)
  | up {above name : String} (link : parent n = some above) (outside : ¬Ancestor parent n m)
      (same : name.toLower = (port n above).toLower) : Leads parent port n m (some name)

/-- Wired links that form a tree below the controller, with the tables that the bridges have learned so far: an address
of the mesh stands only on the port that leads to its node. `port n m` is the port of `n` for its link to the neighbour
`m`. -/
structure WiredMesh where
  nodes : List WiredNode
  parent : String → Option String
  port : String → String → String
  distinct : (nodes.map WiredNode.id).Nodup
  controller : parent "ac" = none
  closed : ∀ n ∈ nodes, ∀ id, parent n.id = some id → ∃ m ∈ nodes, m.id = id
  attached : ∀ n ∈ nodes, Attached parent "ac" n.id
  macs : ∀ n ∈ nodes, ∃ mac, n.mac = some mac ∧ upper mac = mac
  macsDistinct : (nodes.map WiredNode.mac).Nodup
  knowsUplink : ∀ n ∈ nodes, ∀ above, parent n.id = some above →
    ∃ name, n.uplink.bind Uplink.portName = some name ∧ name.toLower = (port n.id above).toLower
  downlinks : ∀ n ∈ nodes, ∀ child, parent child = some n.id →
    ∀ name, n.uplink.bind Uplink.portName = some name → name.toLower ≠ (port n.id child).toLower
  learned : ∀ n ∈ nodes, ∀ m ∈ nodes, m.id ≠ n.id → ∀ wp ∈ n.wiredPorts, wp.mac.map upper = m.mac →
    Leads parent port n.id m.id wp.port

namespace WiredMesh

variable {mesh : WiredMesh} {n m node : WiredNode}

/-- Every bridge has learned the address of every other node. -/
def Complete (mesh : WiredMesh) : Prop :=
  ∀ n ∈ mesh.nodes, ∀ m ∈ mesh.nodes, m.id ≠ n.id → ∃ wp ∈ n.wiredPorts, wp.mac.map upper = m.mac

/-- A port towards another node is the uplink port, or the other node lies below. -/
theorem isUplinkPort_eq_false_iff (member : n ∈ mesh.nodes) {id : String} {port : Option String}
    (leads : Leads mesh.parent mesh.port n.id id port) :
    isUplinkPort n.uplink port = false ↔ Ancestor mesh.parent n.id id := by
  cases leads with
  | @down child name link below same =>
      have lies : Ancestor mesh.parent n.id id := by
        rcases below with rfl | below
        · exact .of_parent link
        · exact (Ancestor.of_parent link).trans below
      refine iff_of_true ?_ lies
      rw [Bool.eq_false_iff, Ne, isUplinkPort_iff]
      rintro ⟨uplink, named, same'⟩
      exact mesh.downlinks n member child link uplink named (same'.trans same)
  | @up above name link outside same =>
      obtain ⟨uplink, named, same'⟩ := mesh.knowsUplink n member above link
      have uplinkPort : isUplinkPort n.uplink (some name) = true :=
        isUplinkPort_iff.mpr ⟨uplink, named, same'.trans same.symm⟩
      simp [uplinkPort, outside]

/-- A node reports only nodes below it. -/
theorem below_of_reports (inside : n ∈ mesh.nodes) (inside' : m ∈ mesh.nodes) (other : m.id ≠ n.id) {mac : String}
    (known : m.mac = some mac) (reports : n.Reports mac) : Ancestor mesh.parent n.id m.id := by
  obtain ⟨wp, listed, reported⟩ := reports
  unfold WiredNode.reported at reported
  split_ifs at reported with uplink
  have leads := mesh.learned n inside m inside' other wp listed (reported.trans known.symm)
  exact (isUplinkPort_eq_false_iff inside leads).mp (Bool.eq_false_iff.mpr uplink)

/-- With complete tables it reports all of them. -/
theorem reports_of_below (complete : mesh.Complete) (inside : n ∈ mesh.nodes) (inside' : m ∈ mesh.nodes) (other : m.id ≠ n.id)
    {mac : String} (known : m.mac = some mac) (below : Ancestor mesh.parent n.id m.id) : n.Reports mac := by
  obtain ⟨wp, listed, learned⟩ := complete n inside m inside' other
  have leads := mesh.learned n inside m inside' other wp listed learned
  refine ⟨wp, listed, ?_⟩
  rw [WiredNode.reported, (isUplinkPort_eq_false_iff inside leads).mpr below, if_neg Bool.false_ne_true, learned, known]

theorem reports_iff (inside : n ∈ mesh.nodes) {mac : String} (known : m.mac = some mac) :
    (wiredTables mesh.nodes).reports n.id m.mac = true ↔ n.Reports mac := by
  rw [WiredTables.reports, known, Option.any_some, decide_eq_true_iff, mem_downstreamByNode mesh.distinct inside]

theorem reports_of_mem {nodes : List WiredNode} {mac : String} {d : Downstream}
    (candidate : d ∈ (wiredTables nodes).wiredDownstream mac) : d.node ∈ nodes ∧ d.node.Reports mac := by
  obtain ⟨n, inside, wp, listed, reported, rfl⟩ := mem_wiredDownstream.mp candidate
  exact ⟨inside, wp, listed, reported⟩

theorem isNearest_iff {tables : WiredTables} {candidates : List Downstream} {candidate : Downstream} :
    isNearest tables node candidates candidate = true ↔
      candidate.node.id ≠ node.id ∧ ¬tables.reports node.id candidate.node.mac = true ∧
        ∀ other ∈ candidates, other.node.id ≠ node.id → other.node.id ≠ candidate.node.id →
          ¬tables.reports candidate.node.id other.node.mac = true := by
  simp [isNearest, and_assoc, or_iff_not_imp_left]

theorem wiredParent_eq {nodes : List WiredNode} {mac : String} (known : node.mac = some mac) :
    wiredParent nodes node =
      pickNearest (isNearest (wiredTables nodes) node ((wiredTables nodes).wiredDownstream mac)) none
        ((wiredTables nodes).wiredDownstream mac) := by
  rw [wiredParent, known, Option.map_some, Option.getD_some]

/-- What the search finds lies above the node. -/
theorem wiredParent_above (inside : node ∈ mesh.nodes) {d : Downstream} (found : wiredParent mesh.nodes node = some d) :
    d.node ∈ mesh.nodes ∧ Ancestor mesh.parent d.node.id node.id := by
  obtain ⟨mac, known, -⟩ := mesh.macs node inside
  rw [wiredParent_eq known] at found
  rcases pickNearest_nearest found with none | ⟨candidate, nearest⟩
  · cases none
  · obtain ⟨inside', reports⟩ := reports_of_mem candidate
    exact ⟨inside', below_of_reports inside' inside (isNearest_iff.mp nearest).1.symm known reports⟩

/-- With complete tables the parent is the one nearest reporter. -/
theorem wiredParent_complete (complete : mesh.Complete) (inside : node ∈ mesh.nodes) (apart : node.id ≠ "ac") :
    ∃ d, wiredParent mesh.nodes node = some d ∧ mesh.parent node.id = some d.node.id := by
  obtain ⟨mac, known, -⟩ := mesh.macs node inside
  obtain ⟨_, link, attached⟩ := (mesh.attached node inside).parent apart
  obtain ⟨p, insideP, rfl⟩ := mesh.closed node inside _ link
  obtain ⟨macP, knownP, -⟩ := mesh.macs p insideP
  have above : Ancestor mesh.parent p.id node.id := .of_parent link
  have other : p.id ≠ node.id := fun same => above.not_descendant mesh.controller attached (same ▸ above)
  rw [wiredParent_eq known]
  -- The parent is a nearest candidate: the others lie above it.
  obtain ⟨wp, listed, reported⟩ := reports_of_below complete insideP inside other.symm known above
  have candidate : (⟨p, wp.port, wp.speed⟩ : Downstream) ∈ (wiredTables mesh.nodes).wiredDownstream mac :=
    mem_wiredDownstream.mpr ⟨p, insideP, wp, listed, reported, rfl⟩
  have nearest : isNearest (wiredTables mesh.nodes) node ((wiredTables mesh.nodes).wiredDownstream mac) ⟨p, wp.port, wp.speed⟩ =
      true := by
    refine isNearest_iff.mpr ⟨other, fun reports => ?_, fun second candidate apart apart' reports => ?_⟩
    · exact above.not_descendant mesh.controller attached
        (below_of_reports inside insideP other knownP ((reports_iff inside knownP).mp reports))
    · obtain ⟨insideS, reportsS⟩ := reports_of_mem candidate
      obtain ⟨macS, knownS, -⟩ := mesh.macs second.node insideS
      have aboveS := below_of_reports insideS inside apart.symm known reportsS
      have aboveP := (aboveS.parent_or link).resolve_left apart'
      exact aboveP.not_descendant mesh.controller (mesh.attached _ insideS)
        (below_of_reports insideP insideS apart' knownS ((reports_iff insideP knownS).mp reports))
  -- Every other candidate has the parent below it.
  have one : ∀ candidate ∈ (wiredTables mesh.nodes).wiredDownstream mac,
      isNearest (wiredTables mesh.nodes) node ((wiredTables mesh.nodes).wiredDownstream mac) candidate = true →
        candidate.node.id = p.id := by
    intro second candidateS nearestS
    obtain ⟨insideS, reportsS⟩ := reports_of_mem candidateS
    obtain ⟨apart, -, furthest⟩ := isNearest_iff.mp nearestS
    by_contra different
    have aboveS := below_of_reports insideS inside apart.symm known reportsS
    have aboveP := (aboveS.parent_or link).resolve_left different
    have seesP := reports_of_below complete insideS insideP (Ne.symm different) knownP aboveP
    exact furthest _ candidate other (Ne.symm different) ((reports_iff insideS knownP).mpr seesP)
  obtain ⟨d, found⟩ := pickNearest_finds none one (by simp) (Or.inr ⟨_, candidate, nearest⟩)
  refine ⟨d, found, ?_⟩
  rcases pickNearest_nearest found with none | ⟨candidateD, nearestD⟩
  · cases none
  · rw [one d candidateD nearestD]
    exact link

end WiredMesh

/-- Complete bridge tables give back the tree; with entries missing the search finds a proper ancestor or nothing. -/
theorem wiredParent_reconstructs (mesh : WiredMesh) {node : WiredNode} (inside : node ∈ mesh.nodes) :
    (mesh.Complete → node.id ≠ "ac" →
        ∃ d, wiredParent mesh.nodes node = some d ∧ d.node ∈ mesh.nodes ∧ mesh.parent node.id = some d.node.id) ∧
      ∀ d, wiredParent mesh.nodes node = some d →
        d.node ∈ mesh.nodes ∧ Ancestor mesh.parent d.node.id node.id ∧ ¬Ancestor mesh.parent node.id d.node.id ∧
          mesh.parent d.node.id ≠ mesh.parent node.id := by
  constructor
  · intro complete apart
    obtain ⟨d, found, link⟩ := WiredMesh.wiredParent_complete complete inside apart
    exact ⟨d, found, (WiredMesh.wiredParent_above inside found).1, link⟩
  · intro d found
    obtain ⟨insideD, above⟩ := WiredMesh.wiredParent_above inside found
    have attached := mesh.attached d.node insideD
    exact ⟨insideD, above, above.not_descendant mesh.controller attached, above.not_sibling mesh.controller attached⟩

/-- The controller, an access point on its `lan1`, and another one on the `lan1` of the first. -/
def cascadeNodes : List WiredNode :=
  let wan := some ⟨some "wired", some "wan", none⟩
  [⟨"ac", some "02:00:00:00:00:01", none, none,
      [⟨some "02:00:00:00:00:0a", some "LAN1", none⟩, ⟨some "02:00:00:00:00:0b", some "LAN1", none⟩]⟩,
    ⟨"node_a", some "02:00:00:00:00:0A", wan, none,
      [⟨some "02:00:00:00:00:01", some "WAN", none⟩, ⟨some "02:00:00:00:00:0b", some "LAN1", none⟩]⟩,
    ⟨"node_b", some "02:00:00:00:00:0B", wan, none,
      [⟨some "02:00:00:00:00:01", some "WAN", none⟩, ⟨some "02:00:00:00:00:0a", some "WAN", none⟩]⟩]

/-- The parents in the cascade. -/
def cascadeParent : String → Option String
  | "node_a" => some "ac"
  | "node_b" => some "node_a"
  | _ => none

/-- The ports of the cascade. -/
def cascadePort (n m : String) : String := if cascadeParent n = some m then "wan" else "lan1"

theorem cascadeParent_eq_some {child parent : String} (link : cascadeParent child = some parent) :
    child = "node_a" ∧ parent = "ac" ∨ child = "node_b" ∧ parent = "node_a" := by
  unfold cascadeParent at link
  split at link
  · exact Or.inl ⟨rfl, (Option.some.inj link).symm⟩
  · exact Or.inr ⟨rfl, (Option.some.inj link).symm⟩
  · cases link

theorem cascade_leads_down {n m : String}
    (below : n = "ac" ∧ (m = "node_a" ∨ m = "node_b") ∨ n = "node_a" ∧ m = "node_b") :
    Leads cascadeParent cascadePort n m (some "LAN1") := by
  have lower : "LAN1".toLower = "lan1".toLower := by
    rw [toLower_eq, toLower_eq]
    decide +kernel
  have port : ∀ {n m : String}, cascadeParent n ≠ some m → "LAN1".toLower = (cascadePort n m).toLower := fun apart => by
    rw [cascadePort, if_neg apart, lower]
  have first : cascadeParent "node_a" = some "ac" := by decide
  have second : cascadeParent "node_b" = some "node_a" := by decide
  rcases below with ⟨rfl, rfl | rfl⟩ | ⟨rfl, rfl⟩
  · exact .down first (Or.inl rfl) (port (by decide))
  · exact .down first (Or.inr (.of_parent second)) (port (by decide))
  · exact .down second (Or.inl rfl) (port (by decide))

theorem cascade_leads_up {n m : String}
    (above : n = "node_a" ∧ m = "ac" ∨ n = "node_b" ∧ (m = "ac" ∨ m = "node_a")) :
    Leads cascadeParent cascadePort n m (some "WAN") := by
  have lower : "WAN".toLower = "wan".toLower := by
    rw [toLower_eq, toLower_eq]
    decide +kernel
  have port : ∀ {n m : String}, cascadeParent n = some m → "WAN".toLower = (cascadePort n m).toLower := fun link => by
    rw [cascadePort, if_pos link, lower]
  have first : cascadeParent "node_a" = some "ac" := by decide
  have second : cascadeParent "node_b" = some "node_a" := by decide
  have top : ∀ a, ¬Ancestor cascadeParent a "ac" := fun a ancestor => by
    cases ancestor with
    | single link => cases link
    | tail _ link => cases link
  have inner : ¬Ancestor cascadeParent "node_b" "node_a" := fun ancestor => by
    rcases ancestor.parent_or rfl with same | ancestor
    · exact absurd same (by decide)
    · exact top _ ancestor
  rcases above with ⟨rfl, rfl⟩ | ⟨rfl, rfl | rfl⟩
  · exact .up first (top _) (port first)
  · exact .up second (top _) (port second)
  · exact .up second inner (port second)

/-- The cascade with complete tables. -/
def cascade : WiredMesh where
  nodes := cascadeNodes
  parent := cascadeParent
  port := cascadePort
  distinct := by decide
  controller := rfl
  closed := by decide
  attached := by
    have top : Attached cascadeParent "ac" "ac" := attached_root _ _
    have first : Attached cascadeParent "ac" "node_a" := top.below (by decide) rfl
    have second : Attached cascadeParent "ac" "node_b" := first.below (by decide) rfl
    simp only [cascadeNodes, List.forall_mem_cons]
    exact ⟨top, first, second, by simp⟩
  macs := by
    have fixed : ∀ n ∈ cascadeNodes, n.mac.map upper = n.mac ∧ n.mac.isSome := by decide +kernel
    intro n inside
    obtain ⟨mac, known⟩ := Option.isSome_iff_exists.mp (fixed n inside).2
    have same := (fixed n inside).1
    rw [known, Option.map_some, Option.some.injEq] at same
    exact ⟨mac, known, same⟩
  macsDistinct := by decide
  knowsUplink := by
    have wan : ∀ n ∈ cascadeNodes, cascadeParent n.id ≠ none → n.uplink.bind Uplink.portName = some "wan" := by decide
    intro n inside above link
    exact ⟨"wan", wan n inside (by simp [link]), by rw [cascadePort, if_pos link]⟩
  downlinks := by
    have wan : ∀ n ∈ cascadeNodes, ∀ name ∈ n.uplink.bind Uplink.portName, name = "wan" := by decide
    intro n inside child link name named
    have lower : cascadeParent n.id ≠ some child := fun upper => by
      rcases cascadeParent_eq_some link with ⟨rfl, same⟩ | ⟨rfl, same⟩
      all_goals
        rw [same] at upper
        exact absurd upper (by decide)
    rw [cascadePort, if_neg lower, wan n inside name named, toLower_eq, toLower_eq]
    decide +kernel
  learned := by
    have entries : ∀ n ∈ cascadeNodes, ∀ m ∈ cascadeNodes, m.id ≠ n.id → ∀ wp ∈ n.wiredPorts,
        wp.mac.map upper = m.mac →
          wp.port = some "LAN1" ∧ (n.id = "ac" ∧ (m.id = "node_a" ∨ m.id = "node_b") ∨ n.id = "node_a" ∧ m.id = "node_b") ∨
            wp.port = some "WAN" ∧ (n.id = "node_a" ∧ m.id = "ac" ∨ n.id = "node_b" ∧ (m.id = "ac" ∨ m.id = "node_a")) := by
      decide +kernel
    intro n insideN m insideM different wp listed known
    rcases entries n insideN m insideM different wp listed known with ⟨port, below⟩ | ⟨port, above⟩
    · rw [port]
      exact cascade_leads_down below
    · rw [port]
      exact cascade_leads_up above

/-- In the cascade the far access point hangs below the near one. -/
theorem wiredParent_reconstructs_cascade :
    ∃ d, wiredParent cascadeNodes (cascadeNodes[2]) = some d ∧ d.node ∈ cascadeNodes ∧ d.node.id = "node_a" := by
  have complete : cascade.Complete := by
    have learned : ∀ n ∈ cascadeNodes, ∀ m ∈ cascadeNodes, m.id ≠ n.id →
        ∃ wp ∈ n.wiredPorts, wp.mac.map upper = m.mac := by decide +kernel
    exact learned
  obtain ⟨d, found, inside, link⟩ :=
    (wiredParent_reconstructs cascade (List.getElem_mem (by decide : 2 < cascadeNodes.length))).1 complete (by decide)
  exact ⟨d, found, inside, (Option.some.inj link).symm⟩

end XWrt.Fakemesh
