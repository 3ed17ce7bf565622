import Mathlib.Algebra.Order.Field.Rat
import Mathlib.Data.List.Infix
import XWrt.Fakemesh.WiredParent

/-!
# The nodes of the mesh

The first half of `get_topology` on the controller: the agents that the hosts
file names, a node table for each of them, the client candidates that the nodes
report, and the place of every node in the tree. Numbers of the source are
rationals here.
-/

namespace XWrt.Fakemesh

open XWrt.Foundation.Text

/-! ## Tables -/

/-- An `upstream`, `backhaul` or `uplink` table. -/
structure Link extends Uplink where
  name : Option String := none
  parentMac : Option String := none
  parentBssid : Option String := none
  gatewayIp : Option String := none
  gatewayMac : Option String := none
  portSpeed : Option String := none
  speed : Option String := none
  ssid : Option String := none
  band : Option String := none
  proto : Option String := none
  wanIp : Option String := none
  signal : Option ℚ := none
  rxBitrate : Option ℚ := none
  txBitrate : Option ℚ := none
  channel : Option ℚ := none
  freq : Option ℚ := none
  deriving DecidableEq

/-- An entry of `radios`. -/
structure Radio where
  ifname : Option String
  bssid : Option String
  ssid : Option String
  band : Option String
  freq : Option ℚ
  channel : Option ℚ
  deriving DecidableEq

/-- A client table, as a node reports it and as the topology lists it. The flags `associated` and `authorized` are
kept as `flag_set` reads them; a missing MAC is the empty text, which every use treats alike. -/
structure Candidate extends Client where
  mac : String
  band : Option String := none
  ssid : Option String := none
  hostname : Option String := none
  ip : Option String := none
  portSpeed : Option String := none
  icon : Option String := none
  ips : List String := []
  ip6 : List String := []
  associated : Option Bool := none
  authorized : Option Bool := none
  signal : Option ℚ := none
  noise : Option ℚ := none
  rateRx : Option ℚ := none
  rateTx : Option ℚ := none
  inactiveMs : Option ℚ := none
  idleTime : Option ℚ := none
  rxSpeed : Option ℚ := none
  txSpeed : Option ℚ := none
  rxBytes : Option ℚ := none
  txBytes : Option ℚ := none
  deriving DecidableEq

/-- What `get_node_info` returns. -/
structure NodeReport where
  role : Option String
  mac : Option String
  ip : Option String
  hostname : Option String
  model : Option String
  meshId : Option String
  band : Option String
  meshBssid : Option String
  uptime : Option ℚ
  upstream : Option Link
  backhaul : Option Link
  radios : List Radio
  wiredPorts : List WiredPort
  clients : List Candidate
  deriving DecidableEq

/-- The client counts of a node. -/
structure Counts where
  total : Nat
  wireless : Nat
  wired : Nat
  vpn : Nat
  deriving DecidableEq

/-- A node table of the topology. -/
structure MeshNode where
  id : String
  role : Option String
  mac : Option String
  ip : Option String
  hostname : Option String
  model : Option String
  meshId : Option String
  band : Option String
  meshBssid : Option String
  uptime : Option ℚ
  online : Bool
  upstream : Option Link
  backhaul : Option Link
  radios : List Radio
  wiredPorts : List WiredPort
  uplink : Option Link := none
  parentId : Option String := none
  parentName : Option String := none
  parentHostname : Option String := none
  parentIp : Option String := none
  hopCount : Nat := 0
  downstream : Option Counts := none
  deriving DecidableEq

/-- What the tree algorithms read of a node. -/
def MeshNode.toNode (n : MeshNode) : Node :=
  ⟨n.id, n.parentId, n.upstream.map Link.toUplink, n.backhaul.map Link.toUplink, n.hopCount⟩

/-- What `wired_parent` reads of a node. -/
def MeshNode.toWired (n : MeshNode) : WiredNode :=
  ⟨n.id, n.mac, n.upstream.map Link.toUplink, n.backhaul.map Link.toUplink, n.wiredPorts⟩

/-- The tables that `get_topology` walks with `pairs`. -/
inductive TableName where
  | bssids
  | candidates
  | natflowUsers
  | arpIps (mac : String)
  | dhcpIps (mac : String)
  | ip6Neigh (mac : String)

/-- The order in which `pairs` visits the keys of a table. -/
structure PairsOrder where
  order : TableName → List String → List String
  perm : ∀ table keys, (order table keys).Perm keys

/-! ## The agents of the hosts file -/

/-- `[%d%.]`. -/
def isAddressChar (char : Char) : Bool := char.isDigit || char == '.'

/-- `%x`. -/
def isHexDigit (char : Char) : Bool :=
  char.isDigit || ('a' ≤ char && char ≤ 'f') || ('A' ≤ char && char ≤ 'F')

/-- The captures of `^%s*([%d%.]+)%s+([^%s]+)`. -/
def hostLine (line : String) : Option (String × String) :=
  let start := line.toList.dropWhile isSpace
  let aip := start.takeWhile isAddressChar
  let gap := start.dropWhile isAddressChar
  let host := (gap.dropWhile isSpace).takeWhile fun char => !isSpace char
  if aip ≠ [] ∧ gap.head?.any isSpace ∧ host ≠ [] then some (String.ofList aip, String.ofList host) else none

/-- `gsub("(..)", "%1:")`. -/
def addColons : List Char → List Char
  | first :: second :: rest => first :: second :: ':' :: addColons rest
  | rest => rest

/-- The MAC that a name of the hosts file stands for, or nothing. -/
def agentMac (host : String) : String :=
  let amac := host.toList.takeWhile isHexDigit
  if ".ap.fakemesh".toList <+: host.toList.dropWhile isHexDigit ∧ amac.length = 12 then
    upper (String.ofList ((addColons amac).take 17))
  else ""

/-- An entry of `agent_list`. -/
structure Agent where
  ip : String
  host : String
  mac : String
  nodeId : String
  deriving DecidableEq

/-- `"node_" .. (amac ~= "" and amac:gsub(":", "") or aip:gsub("%.", "_"))`. -/
def nodeIdOf (aip amac : String) : String :=
  "node_" ++
    if amac ≠ "" then String.ofList (amac.toList.filter (· ≠ ':'))
    else String.ofList (aip.toList.map fun char => if char = '.' then '_' else char)

/-- The loop over the lines of `/tmp/hosts/fakemesh`; `agentIps` holds the addresses of earlier lines. -/
def discoverAgents (agentIps : List String) : List String → List Agent
  | [] => []
  | line :: rest =>
      match hostLine line with
      | none => discoverAgents agentIps rest
      | some (aip, host) =>
          if aip ∈ agentIps then discoverAgents agentIps rest
          else ⟨aip, host, agentMac host, nodeIdOf aip (agentMac host)⟩ :: discoverAgents (aip :: agentIps) rest

/-! ## Node tables and candidates -/

/-- `ac_node`. -/
def acNode (localInfo : NodeReport) : MeshNode where
  id := "ac"
  role := localInfo.role
  mac := localInfo.mac
  ip := localInfo.ip
  hostname := localInfo.hostname
  model := localInfo.model
  meshId := localInfo.meshId
  band := localInfo.band
  meshBssid := localInfo.meshBssid
  uptime := localInfo.uptime
  online := true
  upstream := localInfo.upstream
  backhaul := localInfo.backhaul
  radios := localInfo.radios
  wiredPorts := localInfo.wiredPorts

/-- `anode`, for an agent that answered and for one that did not. -/
def agentNode (a : Agent) : Option NodeReport → MeshNode
  | some agentData =>
      { id := a.nodeId
        role := nonemptyOr agentData.role (some "agent")
        mac := nonemptyOr agentData.mac (some a.mac)
        ip := some a.ip
        hostname := agentData.hostname <|> some a.host
        model := agentData.model <|> some "Agent"
        meshId := none
        band := none
        meshBssid := agentData.meshBssid
        uptime := agentData.uptime <|> some 0
        online := true
        upstream := agentData.upstream <|> agentData.backhaul
        backhaul := agentData.upstream <|> agentData.backhaul
        radios := agentData.radios
        wiredPorts := agentData.wiredPorts }
  | none =>
      { id := a.nodeId
        role := some "agent"
        mac := some a.mac
        ip := some a.ip
        hostname := some a.host
        model := some "FakeMesh Node"
        meshId := none
        band := none
        meshBssid := none
        uptime := some 0
        online := false
        upstream := none
        backhaul := none
        radios := []
        wiredPorts := [] }

/-- The nodes as the reports give them. -/
def reportedNodes (localInfo : NodeReport) (agents : List Agent) (reports : String → Option NodeReport) : List MeshNode :=
  acNode localInfo :: agents.map fun a => agentNode a (reports a.ip)

/-- `add_candidate`, for one client of the node. -/
def addCandidate (c : Candidate) (nodeId : String) : Option Candidate :=
  if c.mac = "" then none
  else if c.accessType = some "wireless" ∧ (c.associated = some false ∨ c.authorized = some false) then none
  else some { c with mac := upper c.mac, nodeId := nodeId }

/-- Everything that is added to `candidates_by_mac`, in order. -/
def reportedCandidates (localInfo : NodeReport) (agents : List Agent) (reports : String → Option NodeReport) : List Candidate :=
  (localInfo.clients.filterMap fun c => addCandidate c "ac") ++
    agents.flatMap fun a => ((reports a.ip).map NodeReport.clients).getD [] |>.filterMap fun c => addCandidate c a.nodeId

/-! ## Parents -/

/-- `bssid_to_node`, as the pairs that are assigned in order. -/
def bssidAssignments (nodes : List MeshNode) : List (String × String) :=
  nodes.flatMap fun n =>
    ((n.meshBssid.toList ++ n.radios.filterMap Radio.bssid).filter (· ≠ "")).map fun bssid => (bssid, n.id)

/-- `node_by_mac`, as the pairs that are assigned in order. -/
def macAssignments (nodes : List MeshNode) : List (String × String) :=
  nodes.filterMap fun n => (n.mac.filter (· ≠ "")).map fun mac => (mac, n.id)

/-- What a table holds under a key after the assignments. -/
def lastAssigned (assignments : List (String × String)) (key : String) : Option String :=
  (assignments.reverse.find? fun entry => entry.1 = key).map Prod.snd

/-- The node of a parent BSSID, else the first one that shares the first 14 characters. -/
def bssidParent (pairs : PairsOrder) (nodes : List MeshNode) (parentBssid : String) : Option String :=
  let assignments := bssidAssignments nodes
  lastAssigned assignments parentBssid <|>
    if parentBssid.toList.length ≥ 14 then
      let keys := pairs.order .bssids (assignments.map Prod.fst).dedup
      (keys.find? fun bssid => bssid.toList.take 14 = parentBssid.toList.take 14).bind (lastAssigned assignments)
    else none

/-- One turn of the loop that sets `parent_id` and `uplink`. -/
def placeNode (pairs : PairsOrder) (nodes : List MeshNode) (n : MeshNode) : MeshNode :=
  let unknown : Link := { type := some "unknown", ifname := none, port := none }
  if n.id ≠ "ac" then
    let up : Link := (n.upstream <|> n.backhaul).getD { type := none, ifname := none, port := none }
    if ¬n.online then { n with parentId := some "ac", uplink := some unknown }
    else if up.type = some "wireless" ∧ up.parentBssid.any (· ≠ "") then
      { n with
        parentId := up.parentBssid.bind (bssidParent pairs nodes) <|> some "ac"
        uplink := some
          { type := some "wireless"
            ifname := none
            port := none
            band := up.band <|> some "5G"
            signal := up.signal <|> some 0
            rxBitrate := up.rxBitrate <|> some 0
            txBitrate := up.txBitrate <|> some 0
            channel := up.channel
            freq := up.freq
            parentBssid := up.parentBssid } }
    else
      match wiredParent (nodes.map MeshNode.toWired) n.toWired with
      | some w =>
          { n with
            parentId := some w.node.id
            uplink := some
              { type := some "wired"
                ifname := none
                port := w.port <|> up.port <|> some "LAN"
                speed := nonemptyOr w.speed up.portSpeed } }
      | none =>
          if up.type = some "wired" then
            { n with
              parentId := up.parentMac.bind (lastAssigned (macAssignments nodes)) <|> some "ac"
              uplink := some { type := some "wired", ifname := none, port := up.port <|> some "LAN", speed := up.portSpeed } }
          else { n with parentId := some "ac", uplink := some unknown }
  else
    let uplink : Link := n.upstream.getD { type := some "root", ifname := none, port := none }
    { n with uplink := some uplink, upstream := some uplink, backhaul := some uplink }

/-- `n.parent_id` and `n.hop_count` as the tree algorithms leave them. -/
def setPlace (n : MeshNode) (place : Node) : MeshNode := { n with parentId := place.parentId, hopCount := place.hopCount }

/-- The cycle repair and the hop counts, on the whole tables, and `max_hops`. -/
def buildTree (nodes : List MeshNode) : List MeshNode × Nat :=
  let (places, maxHops) := countHops (repairCycles (nodes.map MeshNode.toNode))
  (List.zipWith setPlace nodes places, maxHops)

/-- `node_by_id[id]`. -/
def meshNodeById (nodes : List MeshNode) (id : String) : Option MeshNode := nodes.reverse.find? fun n => n.id = id

/-- The parent's names for the page. -/
def nameParent (nodes : List MeshNode) (n : MeshNode) : MeshNode :=
  match if n.id ≠ "ac" then n.parentId.bind (meshNodeById nodes) else none with
  | some p =>
      { n with
        parentHostname := p.hostname <|> p.ip
        parentIp := p.ip
        parentName :=
          match p.hostname.filter (· ≠ "") with
          | some hostname => some (hostname ++ " (" ++ p.ip.getD "" ++ ")")
          | none => p.ip }
  | none =>
      if n.id = "ac" then
        let wanIp := n.upstream.bind Link.wanIp <|> some ""
        { n with parentName := wanIp, parentIp := wanIp }
      else n

/-- The nodes in their places, and `max_hops`. -/
def placedNodes (pairs : PairsOrder) (nodes : List MeshNode) : List MeshNode × Nat :=
  let (tree, maxHops) := buildTree (nodes.map (placeNode pairs nodes))
  (tree.map (nameParent tree), maxHops)

/-! ## What the placing keeps -/

/-- A node without its place in the tree. -/
def Node.unplaced (n : Node) : Node := { n with parentId := none, hopCount := 0 }

/-- The repair sets parents only. -/
theorem repairCycles_keeps (nodes : List Node) : (repairCycles nodes).map Node.unplaced = nodes.map Node.unplaced := by
  have turn : ∀ (nodes : List Node) (i : Nat), (repairAt nodes i).map Node.unplaced = nodes.map Node.unplaced := by
    intro nodes i
    unfold repairAt
    split_ifs with inside repairs
    · have inside' : i < (nodes.map Node.unplaced).length := by rwa [List.length_map]
      have same : Node.unplaced { nodes[i] with parentId := some "ac" } = (nodes.map Node.unplaced)[i] := by
        rw [List.getElem_map]
        rfl
      rw [List.map_set, same, List.set_getElem_self]
    · rfl
    · rfl
  have run : ∀ (turns : List Nat) (current : List Node),
      (turns.foldl repairAt current).map Node.unplaced = current.map Node.unplaced := by
    intro turns
    induction turns with
    | nil => exact fun _ => rfl
    | cons i rest ih => exact fun current => (ih _).trans (turn current i)
  exact run _ nodes

theorem countHops_keeps (nodes : List Node) : (countHops nodes).1.map Node.unplaced = nodes.map Node.unplaced := by
  rw [countHops, List.map_map]
  rfl

theorem places_keep (nodes : List Node) :
    (countHops (repairCycles nodes)).1.map Node.unplaced = nodes.map Node.unplaced :=
  (countHops_keeps _).trans (repairCycles_keeps nodes)

section Keeps

variable {nodes : List MeshNode} {β : Type*} {f : MeshNode → β}

theorem length_places (nodes : List MeshNode) :
    (countHops (repairCycles (nodes.map MeshNode.toNode))).1.length = nodes.length := by
  have same := congrArg List.length (places_keep (nodes.map MeshNode.toNode))
  rwa [List.length_map, List.length_map, List.length_map] at same

/-- The tree algorithms change nothing but the place. -/
theorem buildTree_keeps (place : ∀ n place, f (setPlace n place) = f n) (nodes : List MeshNode) :
    (buildTree nodes).1.map f = nodes.map f := by
  have zip : ∀ (nodes : List MeshNode) (places : List Node), places.length = nodes.length →
      (List.zipWith setPlace nodes places).map f = nodes.map f := by
    intro nodes
    induction nodes with
    | nil => exact fun _ _ => rfl
    | cons n rest ih =>
        intro places same
        cases places with
        | nil => cases same
        | cons first others =>
            rw [List.zipWith_cons_cons, List.map_cons, List.map_cons, place, ih others (Nat.succ.inj same)]
  exact zip nodes _ (length_places nodes)

theorem placedNodes_keeps (pairs : PairsOrder) (nodes : List MeshNode) (placed : ∀ n, f (placeNode pairs nodes n) = f n)
    (place : ∀ n place, f (setPlace n place) = f n) (named : ∀ tree n, f (nameParent tree n) = f n) :
    (placedNodes pairs nodes).1.map f = nodes.map f := by
  unfold placedNodes
  simp only [List.map_map]
  calc
    _ = (buildTree (nodes.map (placeNode pairs nodes))).1.map f := List.map_congr_left fun n _ => named _ n
    _ = (nodes.map (placeNode pairs nodes)).map f := buildTree_keeps place _
    _ = nodes.map f := by
        rw [List.map_map]
        exact List.map_congr_left fun n _ => placed n

end Keeps

/-- The whole tables hold the tree that the algorithms have built. -/
theorem placedNodes_toNode (pairs : PairsOrder) (nodes : List MeshNode) :
    (placedNodes pairs nodes).1.map MeshNode.toNode =
      (countHops (repairCycles ((nodes.map (placeNode pairs nodes)).map MeshNode.toNode))).1 := by
  have zip : ∀ (nodes : List MeshNode) (places : List Node),
      places.map Node.unplaced = (nodes.map MeshNode.toNode).map Node.unplaced →
        (List.zipWith setPlace nodes places).map MeshNode.toNode = places := by
    intro nodes
    induction nodes with
    | nil =>
        intro places same
        rw [List.map_eq_nil_iff.mp same]
        rfl
    | cons n rest ih =>
        intro places same
        cases places with
        | nil => cases same
        | cons first others =>
            rw [List.map_cons, List.map_cons, List.map_cons, List.cons.injEq] at same
            have kept : (setPlace n first).toNode = first := by
              have fields := same.1
              simp only [Node.unplaced, MeshNode.toNode, Node.mk.injEq] at fields
              obtain ⟨id, -, upstream, backhaul, -⟩ := fields
              rw [setPlace, MeshNode.toNode]
              simp only [← id, ← upstream, ← backhaul]
            rw [List.zipWith_cons_cons, List.map_cons, kept, ih others same.2]
  have named : ∀ tree n, (nameParent tree n).toNode = n.toNode := by
    intro tree n
    unfold nameParent
    split
    · rfl
    · split <;> rfl
  unfold placedNodes
  simp only [List.map_map]
  calc
    _ = (buildTree (nodes.map (placeNode pairs nodes))).1.map MeshNode.toNode := List.map_congr_left fun n _ => named _ n
    _ = _ := by
        rw [← List.map_map]
        exact zip _ _ (places_keep _)

theorem placeNode_eq (pairs : PairsOrder) (nodes : List MeshNode) (n : MeshNode) :
    ∃ parentId uplink upstream backhaul,
      placeNode pairs nodes n =
          { n with parentId := parentId, uplink := uplink, upstream := upstream, backhaul := backhaul } ∧
        (n.id = "ac" → parentId = n.parentId) := by
  unfold placeNode
  extract_lets unknown up uplink
  split
  · next apart =>
      split
      · exact ⟨_, _, _, _, rfl, fun root => absurd root apart⟩
      · split
        · exact ⟨_, _, _, _, rfl, fun root => absurd root apart⟩
        · split
          · exact ⟨_, _, _, _, rfl, fun root => absurd root apart⟩
          · split
            · exact ⟨_, _, _, _, rfl, fun root => absurd root apart⟩
            · exact ⟨_, _, _, _, rfl, fun root => absurd root apart⟩
  · exact ⟨_, _, _, _, rfl, fun _ => rfl⟩

theorem nameParent_eq (tree : List MeshNode) (n : MeshNode) :
    ∃ name hostname ip, nameParent tree n = { n with parentName := name, parentHostname := hostname, parentIp := ip } := by
  unfold nameParent
  split
  · exact ⟨_, _, _, rfl⟩
  · split
    · exact ⟨_, _, _, rfl⟩
    · exact ⟨_, _, _, rfl⟩

theorem placeNode_id (pairs : PairsOrder) (nodes : List MeshNode) (n : MeshNode) : (placeNode pairs nodes n).id = n.id := by
  obtain ⟨_, _, _, _, placed, -⟩ := placeNode_eq pairs nodes n
  rw [placed]

theorem placedNodes_ids (pairs : PairsOrder) (nodes : List MeshNode) :
    (placedNodes pairs nodes).1.map MeshNode.id = nodes.map MeshNode.id := by
  apply placedNodes_keeps pairs nodes
  · exact placeNode_id pairs nodes
  · exact fun _ _ => rfl
  · intro tree n
    obtain ⟨_, _, _, named⟩ := nameParent_eq tree n
    rw [named]

/-- With distinct ids the walks of `client_forwarded_downstream` end on the placed nodes. -/
theorem placedNodes_walks (pairs : PairsOrder) {nodes : List MeshNode} (distinct : (nodes.map MeshNode.id).Nodup)
    (root : ∃ ac ∈ nodes, ac.id = "ac" ∧ ac.parentId = none) :
    ∃ limit, ∀ fuel ≥ limit, ∀ client candidates,
      (clientForwardedDownstream ((placedNodes pairs nodes).1.map MeshNode.toNode) fuel client candidates).isSome := by
  have table : NodeTable ((nodes.map (placeNode pairs nodes)).map MeshNode.toNode) := by
    constructor
    · have ids : (MeshNode.id ∘ placeNode pairs nodes) = MeshNode.id := funext (placeNode_id pairs nodes)
      rw [List.map_map, List.map_map]
      exact ids ▸ distinct
    · obtain ⟨ac, inside, id, parent⟩ := root
      obtain ⟨_, _, _, _, placed, kept⟩ := placeNode_eq pairs nodes ac
      refine ⟨_, List.mem_map_of_mem (List.mem_map_of_mem inside), (placeNode_id pairs nodes ac).trans id, ?_⟩
      rw [placed]
      exact (kept id).trans parent
  rw [placedNodes_toNode]
  exact (repairCycles_rooted _ table).2.2.2.1

end XWrt.Fakemesh
