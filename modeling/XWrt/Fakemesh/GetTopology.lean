import XWrt.Fakemesh.Clients

/-!
# The topology of the controller

`get_topology` on the controller: the nodes in their places, the clients of the
three passes, and the counts. The clients agree with the nodes, and every count
is a count of the same list.
-/

namespace XWrt.Fakemesh

open XWrt.Foundation.Text

/-! ## Counts -/

/-- One client more in `node_client_map`. -/
def Counts.add (st : Counts) (c : Candidate) : Counts :=
  let st := { st with total := st.total + 1 }
  if c.accessType = some "wireless" then { st with wireless := st.wireless + 1 }
  else if c.accessType = some "vpn" then { st with vpn := st.vpn + 1 }
  else { st with wired := st.wired + 1 }

/-- `node_client_map`, with zeros for the nodes that it does not hold. -/
def nodeClientMap (clients : List Candidate) : String → Counts :=
  clients.foldl (fun counts c => Function.update counts c.nodeId ((counts c.nodeId).add c)) fun _ => ⟨0, 0, 0, 0⟩

/-- The part of `summary` that the loop over the clients counts. -/
structure ClientTotals where
  wifi2g : Nat
  wifi5g : Nat
  wifi6g : Nat
  wired : Nat
  vpn : Nat
  totalRxSpeed : ℚ
  totalTxSpeed : ℚ
  deriving DecidableEq

/-- One turn of the loop over the clients. -/
def ClientTotals.add (totals : ClientTotals) (c : Candidate) : ClientTotals :=
  let totals :=
    { totals with
      totalRxSpeed := totals.totalRxSpeed + c.rxSpeed.getD 0
      totalTxSpeed := totals.totalTxSpeed + c.txSpeed.getD 0 }
  if c.accessType = some "wireless" then
    if c.band = some "2.4G" then { totals with wifi2g := totals.wifi2g + 1 }
    else if c.band = some "5G" then { totals with wifi5g := totals.wifi5g + 1 }
    else if c.band = some "6G" then { totals with wifi6g := totals.wifi6g + 1 }
    else { totals with wifi5g := totals.wifi5g + 1 }
  else if c.accessType = some "vpn" then { totals with vpn := totals.vpn + 1 }
  else { totals with wired := totals.wired + 1 }

/-- The counts of all clients. -/
def clientTotals (clients : List Candidate) : ClientTotals := clients.foldl ClientTotals.add ⟨0, 0, 0, 0, 0, 0, 0⟩

/-- `summary`. -/
structure Summary extends ClientTotals where
  nodeCount : Nat
  onlineAgents : Nat
  offlineAgents : Nat
  wirelessNodes : Nat
  wiredNodes : Nat
  clientCount : Nat
  maxHops : Nat
  meshMode : String
  deriving DecidableEq

/-- The summary of the nodes and the clients. -/
def summarize (nodes : List MeshNode) (clients : List Candidate) (maxHops : Nat) : Summary :=
  let agents := nodes.filter fun n => n.id ≠ "ac"
  let uplinks := agents.filterMap fun n => n.uplink.bind fun uplink => uplink.type
  let wirelessNodes := uplinks.count "wireless"
  let wiredNodes := uplinks.count "wired"
  { clientTotals clients with
    nodeCount := nodes.length
    onlineAgents := agents.countP MeshNode.online
    offlineAgents := agents.countP fun n => !n.online
    wirelessNodes := wirelessNodes
    wiredNodes := wiredNodes
    clientCount := clients.length
    maxHops := maxHops
    meshMode :=
      if wirelessNodes > 0 ∧ wiredNodes > 0 then "hybrid"
      else if wirelessNodes > 0 then "wireless"
      else if wiredNodes > 0 then "wired"
      else "single" }

/-! ## The whole call -/

/-- What `get_topology` returns. -/
structure Topology where
  meshId : Option String
  controllerIp : Option String
  currentNodeId : String
  timestamp : ℚ
  nodes : List MeshNode
  clients : List Candidate
  summary : Summary
  deriving DecidableEq

/-- `agent_list`. -/
def Sources.agents (src : Sources) : List Agent := discoverAgents [] src.hostsFakemesh

/-- The nodes before they are placed. -/
def Sources.nodes (src : Sources) : List MeshNode := reportedNodes src.localInfo src.agents src.reports

/-- What the passes over the clients see of the placed nodes. -/
def meshView (agents : List Agent) (nodes : List MeshNode) : MeshView :=
  ⟨nodes.map MeshNode.toNode, meshNodeMacs agents nodes, meshNodeIps agents nodes⟩

/-- `final_clients`. -/
def finalClients (pairs : PairsOrder) (fuel : Nat) (src : Sources) (mesh : MeshView) : Option (List Candidate) :=
  (candidatePass pairs fuel src mesh (reportedCandidates src.localInfo src.agents src.reports)).map fun done =>
    (vpnPass src mesh (fallbackPass pairs src mesh done)).finalClients

/-- `get_topology` on the controller, with at most `fuel` steps in each walk up the tree. -/
def getTopology (pairs : PairsOrder) (fuel : Nat) (src : Sources) : Option Topology :=
  let (nodes, maxHops) := placedNodes pairs src.nodes
  (finalClients pairs fuel src (meshView src.agents nodes)).map fun clients =>
    { meshId := src.localInfo.meshId
      controllerIp := src.localInfo.ip
      currentNodeId := "ac"
      timestamp := src.time
      nodes := nodes.map fun n => { n with downstream := some (nodeClientMap clients n.id) }
      clients := clients
      summary := summarize nodes clients maxHops }

/-! ## Sums -/

theorem sum_update {κ : Type*} [DecidableEq κ] {keys : List κ} (distinct : keys.Nodup) {key : κ} (inside : key ∈ keys)
    (f : κ → Nat) (value : Nat) : (keys.map (Function.update f key value)).sum + f key = (keys.map f).sum + value := by
  induction keys with
  | nil => exact absurd inside List.not_mem_nil
  | cons first rest ih =>
      rw [List.nodup_cons] at distinct
      rw [List.map_cons, List.map_cons, List.sum_cons, List.sum_cons]
      rcases List.mem_cons.mp inside with rfl | later
      · have unchanged : rest.map (Function.update f key value) = rest.map f :=
          List.map_congr_left fun other listed => Function.update_of_ne (ne_of_mem_of_not_mem listed distinct.1) _ _
        rw [Function.update_self, unchanged]
        omega
      · have apart : first ≠ key := fun same => distinct.1 (same ▸ later)
        rw [Function.update_of_ne apart]
        have tail := ih distinct.2 later
        omega

/-- Every client is counted for one node. -/
theorem sum_nodeClientMap {ids : List String} (distinct : ids.Nodup) {clients : List Candidate}
    (listed : ∀ c ∈ clients, c.nodeId ∈ ids) :
    (ids.map fun id => (nodeClientMap clients id).total).sum = clients.length := by
  have total : ∀ (st : Counts) (c : Candidate), (st.add c).total = st.total + 1 := by
    intro st c
    unfold Counts.add
    split
    · rfl
    · split <;> rfl
  have run : ∀ (clients : List Candidate) (counts : String → Counts), (∀ c ∈ clients, c.nodeId ∈ ids) →
      (ids.map fun id =>
          (clients.foldl (fun counts c => Function.update counts c.nodeId ((counts c.nodeId).add c)) counts id).total).sum =
        (ids.map fun id => (counts id).total).sum + clients.length := by
    intro clients
    induction clients with
    | nil => exact fun _ _ => rfl
    | cons c rest ih =>
        intro counts listed
        rw [List.forall_mem_cons] at listed
        rw [List.foldl_cons, ih _ listed.2]
        have one := sum_update distinct listed.1 (fun id => (counts id).total) ((counts c.nodeId).total + 1)
        have same : (fun id => (Function.update counts c.nodeId ((counts c.nodeId).add c) id).total) =
            Function.update (fun id => (counts id).total) c.nodeId ((counts c.nodeId).total + 1) := by
          funext id
          rw [← total _ c]
          exact Function.apply_update (fun _ => Counts.total) counts c.nodeId _ id
        rw [same, List.length_cons]
        omega
  rw [nodeClientMap, run clients _ listed]
  simp

/-- Every client is counted once in the summary. -/
theorem clientTotals_sum (clients : List Candidate) :
    (clientTotals clients).wifi2g + (clientTotals clients).wifi5g + (clientTotals clients).wifi6g +
      (clientTotals clients).wired + (clientTotals clients).vpn = clients.length := by
  have run : ∀ (clients : List Candidate) (totals : ClientTotals),
      let counted := clients.foldl ClientTotals.add totals
      counted.wifi2g + counted.wifi5g + counted.wifi6g + counted.wired + counted.vpn =
        totals.wifi2g + totals.wifi5g + totals.wifi6g + totals.wired + totals.vpn + clients.length := by
    intro clients
    induction clients with
    | nil => exact fun _ => rfl
    | cons c rest ih =>
        intro totals
        have one : (totals.add c).wifi2g + (totals.add c).wifi5g + (totals.add c).wifi6g + (totals.add c).wired +
            (totals.add c).vpn = totals.wifi2g + totals.wifi5g + totals.wifi6g + totals.wired + totals.vpn + 1 := by
          simp only [ClientTotals.add]
          split_ifs <;> simp only <;> omega
        have others := ih (totals.add c)
        simp only [List.foldl_cons, List.length_cons] at others ⊢
        omega
  exact (run clients ⟨0, 0, 0, 0, 0, 0, 0⟩).trans (by simp)

/-! ## Clients and nodes -/

theorem agentNode_id (a : Agent) (report : Option NodeReport) : (agentNode a report).id = a.nodeId := by
  cases report <;> rfl

theorem addCandidate_eq_some {c new : Candidate} {id : String} (made : addCandidate c id = some new) :
    c.mac ≠ "" ∧ new = { c with mac := upper c.mac, nodeId := id } := by
  unfold addCandidate at made
  split_ifs at made with named
  exact ⟨named, (Option.some.inj made).symm⟩

/-- A candidate is a client of a report, under the id of the reporting node. -/
theorem mem_reportedCandidates {localInfo : NodeReport} {agents : List Agent} {reports : String → Option NodeReport}
    {c : Candidate} (inside : c ∈ reportedCandidates localInfo agents reports) :
    ∃ raw id, addCandidate raw id = some c ∧ (raw ∈ localInfo.clients ∧ id = "ac" ∨
      ∃ a ∈ agents, ∃ report, reports a.ip = some report ∧ raw ∈ report.clients ∧ id = a.nodeId) := by
  unfold reportedCandidates at inside
  rcases List.mem_append.mp inside with near | far
  · obtain ⟨raw, listed, made⟩ := List.mem_filterMap.mp near
    exact ⟨raw, "ac", made, Or.inl ⟨listed, rfl⟩⟩
  · obtain ⟨a, known, far⟩ := List.mem_flatMap.mp far
    obtain ⟨raw, listed, made⟩ := List.mem_filterMap.mp far
    cases answered : reports a.ip with
    | none => simp [answered] at listed
    | some report =>
        rw [answered] at listed
        exact ⟨raw, a.nodeId, made, Or.inr ⟨a, known, report, answered, listed, rfl⟩⟩

theorem reportedCandidates_reported (localInfo : NodeReport) (agents : List Agent) (reports : String → Option NodeReport) :
    ∀ c ∈ reportedCandidates localInfo agents reports,
      Reported ((reportedNodes localInfo agents reports).map MeshNode.id) c := by
  intro c inside
  obtain ⟨raw, id, made, source⟩ := mem_reportedCandidates inside
  obtain ⟨named, rfl⟩ := addCandidate_eq_some made
  constructor
  · exact fun empty => named (upper_eq_empty empty)
  · exact upper_upper raw.mac
  · rcases source with ⟨-, rfl⟩ | ⟨a, known, -, -, -, rfl⟩
    · exact List.mem_cons_self
    · rw [reportedNodes, List.map_cons, List.map_map]
      exact List.mem_cons_of_mem _ (List.mem_map.mpr ⟨a, known, agentNode_id a _⟩)

/-- The agreement of the clients with the nodes and the counts. The made-up key of a VPN user without a hardware address
is not held against the nodes; it can meet only an address that a node reports in the same form. -/
structure Consistent (src : Sources) (t : Topology) : Prop where
  distinct : (t.clients.map Candidate.mac).Nodup
  macs : ∀ c ∈ t.clients, ∀ n ∈ t.nodes, ∀ address ∈ n.addresses, upper address = upper c.mac →
    MadeUp src c ∧ "VPN:".toList <+: (upper address).toList
  ips : ∀ c ∈ t.clients, ∀ n ∈ t.nodes, ∀ ip ∈ n.ip, ip ≠ "" → ip ∉ c.ips ∧ c.ip ≠ some ip
  listed : ∀ c ∈ t.clients, c.nodeId ∈ t.nodes.map MeshNode.id
  totals : (t.nodes.map fun n => (n.downstream.map Counts.total).getD 0).sum = t.summary.clientCount
  kinds : t.summary.wifi2g + t.summary.wifi5g + t.summary.wifi6g + t.summary.wired + t.summary.vpn = t.summary.clientCount

theorem getTopology_eq_some {pairs : PairsOrder} {fuel : Nat} {src : Sources} {t : Topology}
    (returned : getTopology pairs fuel src = some t) :
    let placed := (placedNodes pairs src.nodes).1
    finalClients pairs fuel src (meshView src.agents placed) = some t.clients ∧
      t.nodes = placed.map (fun n => { n with downstream := some (nodeClientMap t.clients n.id) }) ∧
      t.summary = summarize placed t.clients (placedNodes pairs src.nodes).2 ∧ t.meshId = src.localInfo.meshId := by
  unfold getTopology at returned
  obtain ⟨clients, found, rfl⟩ := Option.map_eq_some_iff.mp returned
  exact ⟨found, rfl, rfl, rfl⟩

/-- Every listed client has its origin and may be listed beside the nodes. -/
theorem getTopology_clients {pairs : PairsOrder} {fuel : Nat} {src : Sources} {t : Topology}
    (returned : getTopology pairs fuel src = some t) :
    let mesh := meshView src.agents (placedNodes pairs src.nodes).1
    (t.clients.map Candidate.mac).Nodup ∧ ∀ c ∈ t.clients,
      Origin pairs src mesh (reportedCandidates src.localInfo src.agents src.reports) c ∧
        Admissible src mesh (src.nodes.map MeshNode.id) c := by
  obtain ⟨found, -, -, -⟩ := getTopology_eq_some returned
  obtain ⟨done, passed, clients⟩ := Option.map_eq_some_iff.mp found
  have controller : "ac" ∈ src.nodes.map MeshNode.id := List.mem_cons_self
  have proper : "" ∉ meshNodeIps src.agents (placedNodes pairs src.nodes).1 := by simp [meshNodeIps]
  have sound := passes_sound passed
  refine ⟨clients ▸ sound.distinct, fun c inside => ?_⟩
  have origin := sound.origin c (clients ▸ inside)
  exact ⟨origin, origin.admissible proper controller (reportedCandidates_reported src.localInfo src.agents src.reports)⟩

/-- With distinct node ids every topology is consistent. -/
theorem consistent_of_distinct {pairs : PairsOrder} {fuel : Nat} {src : Sources} {t : Topology}
    (distinct : (src.nodes.map MeshNode.id).Nodup) (returned : getTopology pairs fuel src = some t) : Consistent src t := by
  obtain ⟨-, nodes, summary, -⟩ := getTopology_eq_some returned
  obtain ⟨macs, clients⟩ := getTopology_clients returned
  have admissible := fun c inside => (clients c inside).2
  have ids := placedNodes_ids pairs src.nodes
  have shown : t.nodes.map MeshNode.id = src.nodes.map MeshNode.id := by
    rw [nodes, List.map_map]
    exact ids
  have fromPlaced : ∀ n ∈ t.nodes, ∃ m ∈ (placedNodes pairs src.nodes).1, n.addresses = m.addresses ∧ n.ip = m.ip := by
    intro n inside
    rw [nodes] at inside
    obtain ⟨m, insideM, rfl⟩ := List.mem_map.mp inside
    exact ⟨m, insideM, rfl, rfl⟩
  have listed : ∀ c ∈ t.clients, c.nodeId ∈ t.nodes.map MeshNode.id := fun c inside => shown ▸ (admissible c inside).listed
  constructor
  · exact macs
  · intro c inside n shown address known same
    obtain ⟨m, insideM, addresses, -⟩ := fromPlaced n shown
    have nonempty : address ≠ "" := by
      rintro rfl
      exact (admissible c inside).named (upper_eq_empty same.symm)
    have owned : upper c.mac ∈ meshNodeMacs src.agents (placedNodes pairs src.nodes).1 :=
      same ▸ mem_meshNodeMacs insideM (addresses ▸ known) nonempty
    have madeUp := (admissible c inside).apart.resolve_left (not_not_intro owned)
    refine ⟨madeUp, ?_⟩
    obtain ⟨vu, -, virtual, rfl⟩ := madeUp
    have start := ((vpnKey_cases vu).resolve_left fun physical => physical.1 virtual).2
    rw [same, toList_upper]
    exact start.map Char.toUpper
  · intro c inside n shown ip known nonempty
    obtain ⟨m, insideM, -, ipM⟩ := fromPlaced n shown
    exact (admissible c inside).addresses ip (mem_meshNodeIps insideM (ipM.symm.trans known) nonempty)
  · exact listed
  · have counted : (t.nodes.map fun n => (n.downstream.map Counts.total).getD 0) =
        (t.nodes.map MeshNode.id).map fun id => (nodeClientMap t.clients id).total := by
      rw [nodes, List.map_map, List.map_map, List.map_map]
      rfl
    have distinct' : (t.nodes.map MeshNode.id).Nodup := by rwa [shown]
    rw [counted, summary]
    exact sum_nodeClientMap distinct' listed
  · rw [summary]
    simp only [summarize]
    exact clientTotals_sum t.clients

/-- With distinct node ids the walks end and a topology is returned. -/
theorem getTopology_returns (pairs : PairsOrder) {src : Sources} (distinct : (src.nodes.map MeshNode.id).Nodup) :
    ∃ limit, ∀ fuel ≥ limit, ∃ t, getTopology pairs fuel src = some t := by
  obtain ⟨limit, walks⟩ := placedNodes_walks pairs distinct ⟨acNode src.localInfo, List.mem_cons_self, rfl, rfl⟩
  refine ⟨limit, fun fuel enough => ?_⟩
  have passes : (finalClients pairs fuel src (meshView src.agents (placedNodes pairs src.nodes).1)).isSome := by
    have ends : ∀ client candidates, (clientForwardedDownstream
        (meshView src.agents (placedNodes pairs src.nodes).1).nodes fuel client candidates).isSome := walks fuel enough
    rw [finalClients, Option.isSome_map]
    exact candidatePass_isSome ends _
  rw [← Option.isSome_iff_exists, getTopology, Option.isSome_map]
  exact passes

/-- With distinct node ids the controller returns a topology, and its clients, nodes and counts agree. -/
theorem getTopology_consistent (pairs : PairsOrder) {src : Sources} (distinct : (src.nodes.map MeshNode.id).Nodup) :
    ∃ limit, ∀ fuel ≥ limit, ∃ t, getTopology pairs fuel src = some t ∧ Consistent src t := by
  obtain ⟨limit, returns⟩ := getTopology_returns pairs distinct
  refine ⟨limit, fun fuel enough => ?_⟩
  obtain ⟨t, returned⟩ := returns fuel enough
  exact ⟨t, returned, consistent_of_distinct distinct returned⟩

/-- Tables that are walked in the order of their first assignments. -/
def assignmentOrder : PairsOrder := ⟨fun _ keys => keys, fun _ keys => .refl keys⟩

/-- A controller with one agent, which reports the mesh BSSID and one Wi-Fi client, a wired user that only natflow knows
and a WireGuard user without a hardware address. -/
def smallMesh (meshBssid : String) : Sources where
  localInfo := ⟨some "controller", some "02:00:00:00:00:01", some "192.168.1.1", none, none, some "mesh", none, none, none,
    none, none, [], [], []⟩
  hostsFakemesh := ["192.168.1.2 020000000002.ap.fakemesh"]
  reports := fun _ =>
    some ⟨some "agent", some "02:00:00:00:00:02", none, none, none, some "mesh", none, some meshBssid, none, none, none, [], [],
      [{ mac := "02:00:00:00:00:99", nodeId := "", accessType := some "wireless", ifname := none, port := none,
          band := some "6G" }]⟩
  leases := []
  arp := []
  ip6 := []
  hosts := []
  users :=
    [{ mac := "02:00:00:00:00:98", accessType := some "wired", ip := ["192.168.1.98"] },
      { mac := "00:00:00:00:00:00", accessType := some "vpn", ip := ["10.0.0.2"] }]
  time := 0

/-- The clients of all three passes are counted. -/
theorem getTopology_consistent_small :
    ∃ limit, ∀ fuel ≥ limit, ∃ t, getTopology assignmentOrder fuel (smallMesh "02:00:00:00:00:F2") = some t ∧
      Consistent (smallMesh "02:00:00:00:00:F2") t :=
  getTopology_consistent assignmentOrder (by decide +kernel)

/-- A node may report an address in the form of the made-up keys, and the client with that key is listed all the same. -/
theorem madeUp_key_is_a_bssid :
    ((smallMesh "VPN:10.0.0.2").nodes.map MeshNode.id).Nodup ∧
      ∃ t, getTopology assignmentOrder 1 (smallMesh "VPN:10.0.0.2") = some t ∧
        ∃ c ∈ t.clients, ∃ n ∈ t.nodes, n.meshBssid = some c.mac := by
  refine ⟨by decide +kernel, ?_⟩
  have met : (getTopology assignmentOrder 1 (smallMesh "VPN:10.0.0.2")).any
      (fun t => t.clients.any fun c => t.nodes.any fun n => n.meshBssid = some c.mac) = true := by
    decide +kernel
  simp only [Option.any_eq_true, List.any_eq_true, decide_eq_true_eq] at met
  exact met

end XWrt.Fakemesh
