import XWrt.Fakemesh.Validation

/-!
# Topologies that the agents accept

The controller takes over an agent's response when `valid_node_report` accepts
it, and an agent shows the controller's topology when `valid_topology_report`
accepts that. The script keeps one entry of the hosts file for an address, but
the node ids come from the names; two addresses with one id are all that the
validation can refuse.
-/

namespace XWrt.Fakemesh

open XWrt.Foundation XWrt.Foundation.Text

/-! ## The controller's inputs -/

/-- `fetch_agents_parallel`, on the responses by address. -/
def fetchAgentsParallel (responses : String → Option Value) (agents : List Agent) (meshId ip : String) : Option NodeReport :=
  (agents.find? fun agent => agent.ip = ip).bind fun agent =>
    ((responses ip).filter fun report =>
      validNodeReport report meshId agent.mac && (report.text "role" = some "agent" || report.text "role" = some "wap")).map
      NodeReport.ofValue

/-- What a controller reads, with the responses of the agents as they come. Its own ports and clients and the natflow
users have MACs as the kernel prints them. -/
structure Inputs where
  localInfo : NodeReport
  meshId : String
  hostsFakemesh : List String
  responses : String → Option Value
  leases : List Lease
  arp : List (String × String)
  ip6 : List (String × String)
  hosts : List (String × String)
  users : List NatflowUser
  time : ℚ
  controller : localInfo.role = some "controller"
  mesh : localInfo.meshId = some meshId
  localMacs : localInfo.ValidMacs
  userMacs : ∀ u ∈ users, u.mac = "" ∨ validMac u.mac = true

/-- The sources of the topology, with the accepted reports. -/
def Inputs.sources (inputs : Inputs) : Sources where
  localInfo := inputs.localInfo
  hostsFakemesh := inputs.hostsFakemesh
  reports := fetchAgentsParallel inputs.responses (discoverAgents [] inputs.hostsFakemesh) inputs.meshId
  leases := inputs.leases
  arp := inputs.arp
  ip6 := inputs.ip6
  hosts := inputs.hosts
  users := inputs.users
  time := inputs.time

/-- A report that is taken over. -/
structure NodeReport.Accepted (report : NodeReport) : Prop where
  macs : report.ValidMacs
  role : report.role = some "agent" ∨ report.role = some "wap"

theorem fetchAgentsParallel_accepted {responses : String → Option Value} {agents : List Agent} {meshId ip : String}
    {report : NodeReport} (fetched : fetchAgentsParallel responses agents meshId ip = some report) : report.Accepted := by
  obtain ⟨agent, -, fetched⟩ := Option.bind_eq_some_iff.mp fetched
  obtain ⟨value, kept, rfl⟩ := Option.map_eq_some_iff.mp fetched
  obtain ⟨-, accepted⟩ := Option.filter_eq_some_iff.mp kept
  rw [Bool.and_eq_true, Bool.or_eq_true, decide_eq_true_eq, decide_eq_true_eq] at accepted
  exact ⟨validNodeReport_macs accepted.1, accepted.2⟩

/-! ## The lines of the hosts file -/

/-- The first line of the hosts file with this address has this name. -/
def Named (lines : List String) (address host : String) : Prop :=
  ∃ before line after, lines = before ++ line :: after ∧ hostLine line = some (address, host) ∧
    ∀ other ∈ before, (hostLine other).map Prod.fst ≠ some address

/-- The agent that a line stands for. -/
def agentOf (address host : String) : Agent := ⟨address, host, agentMac host, nodeIdOf address (agentMac host)⟩

theorem not_named_nil (address host : String) : ¬Named [] address host := by
  rintro ⟨before, line, after, split, -⟩
  cases before <;> cases split

theorem named_cons {line : String} {rest : List String} {address host : String} :
    Named (line :: rest) address host ↔
      hostLine line = some (address, host) ∨ (hostLine line).map Prod.fst ≠ some address ∧ Named rest address host := by
  constructor
  · rintro ⟨before, found, after, split, here, fresh⟩
    cases before with
    | nil =>
        cases split
        exact Or.inl here
    | cons first before =>
        cases split
        rw [List.forall_mem_cons] at fresh
        exact Or.inr ⟨fresh.1, before, found, after, rfl, here, fresh.2⟩
  · rintro (here | ⟨other, before, found, after, rfl, here, fresh⟩)
    · exact ⟨[], line, rest, rfl, here, fun _ none => absurd none List.not_mem_nil⟩
    · exact ⟨line :: before, found, after, rfl, here, List.forall_mem_cons.mpr ⟨other, fresh⟩⟩

/-- The agents are those of the first lines. -/
theorem mem_discoverAgents {lines seen : List String} {a : Agent} :
    a ∈ discoverAgents seen lines ↔ ∃ address host, address ∉ seen ∧ Named lines address host ∧ a = agentOf address host := by
  induction lines generalizing seen with
  | nil =>
      refine iff_of_false List.not_mem_nil ?_
      rintro ⟨address, host, -, named, -⟩
      exact not_named_nil address host named
  | cons line rest ih =>
      rw [discoverAgents]
      cases matched : hostLine line with
      | none => simp only [ih, named_cons, matched, reduceCtorEq, false_or, Option.map_none, ne_eq, not_false_eq_true, true_and]
      | some entry =>
          obtain ⟨aip, name⟩ := entry
          by_cases known : aip ∈ seen
          · simp only [if_pos known, ih]
            refine exists₂_congr fun address host => and_congr_right fun fresh => and_congr_left fun _ => ?_
            have other : aip ≠ address := fun same => fresh (same ▸ known)
            simp [named_cons, matched, other]
          · simp only [if_neg known, List.mem_cons, ih]
            constructor
            · rintro (rfl | ⟨address, host, fresh, named, rfl⟩)
              · exact ⟨aip, name, known, named_cons.mpr (Or.inl matched), rfl⟩
              · rw [not_or] at fresh
                have other : (hostLine line).map Prod.fst ≠ some address := by
                  rw [matched]
                  exact fun same => fresh.1 (Option.some.inj same).symm
                exact ⟨address, host, fresh.2, named_cons.mpr (Or.inr ⟨other, named⟩), rfl⟩
            · rintro ⟨address, host, fresh, named, rfl⟩
              rcases named_cons.mp named with here | ⟨other, named⟩
              · rw [matched] at here
                cases here
                exact Or.inl rfl
              · rw [matched] at other
                refine Or.inr ⟨address, host, ?_, named, rfl⟩
                rw [not_or]
                exact ⟨fun same => other (congrArg some same.symm), fresh⟩

theorem discoverAgents_nodup (lines seen : List String) : ((discoverAgents seen lines).map Agent.ip).Nodup := by
  induction lines generalizing seen with
  | nil => exact List.nodup_nil
  | cons line rest ih =>
      rw [discoverAgents]
      split
      · exact ih seen
      next aip host matched =>
          split
          · exact ih seen
          · rw [List.map_cons, List.nodup_cons]
            refine ⟨fun again => ?_, ih _⟩
            obtain ⟨a, later, same⟩ := List.mem_map.mp again
            obtain ⟨address, name, fresh, -, rfl⟩ := mem_discoverAgents.mp later
            have repeated : address = aip := same
            exact fresh (repeated ▸ List.mem_cons_self)

/-! ## Node ids -/

/-- The digits of a MAC. -/
def macDigits (mac : String) : List Char := mac.toList.filter (· ≠ ':')

/-- A file whose addresses have different ids: no two of them are named by one MAC, and none without a MAC is written as
the digits of another one's. -/
structure Unambiguous (lines : List String) : Prop where
  macs : ∀ {address host address' host'}, Named lines address host → Named lines address' host' → agentMac host ≠ "" →
    agentMac host = agentMac host' → address = address'
  addresses : ∀ {address host address' host'}, Named lines address host → Named lines address' host' →
    agentMac host = "" → agentMac host' ≠ "" → address.toList ≠ macDigits (agentMac host')

theorem hostLine_address {line address host : String} (matched : hostLine line = some (address, host)) :
    ∀ char ∈ address.toList, isAddressChar char = true := by
  unfold hostLine at matched
  extract_lets start aip gap host at matched
  split_ifs at matched
  cases matched
  rw [String.toList_ofList]
  exact fun char inside => List.mem_takeWhile_imp inside

theorem addColons_map (digits : List Char) :
    addColons (digits.map Char.toUpper) = (addColons digits).map Char.toUpper := by
  fun_induction addColons digits with
  | case1 first second rest ih =>
      rw [List.map_cons, List.map_cons, addColons, ih]
      rfl
  | case2 rest short =>
      match rest, short with
      | [], _ => rfl
      | [_], _ => rfl
      | first :: second :: rest, short => exact absurd rfl (short first second rest)

/-- The pairs with colons between them have the digits that they are made of. -/
theorem addColons_digits (count : Nat) {digits : List Char} (length : digits.length = 2 * count + 2)
    (plain : ∀ char ∈ digits, char ≠ ':') : ((addColons digits).take (3 * count + 2)).filter (· ≠ ':') = digits := by
  induction count generalizing digits with
  | zero =>
      match digits, length with
      | [first, second], _ =>
          rw [List.forall_mem_cons, List.forall_mem_singleton] at plain
          simp [addColons, plain]
  | succ count ih =>
      match digits, length with
      | first :: second :: rest, length =>
          rw [List.forall_mem_cons, List.forall_mem_cons] at plain
          have shorter : rest.length = 2 * count + 2 := by
            simp only [List.length_cons] at length
            omega
          have tail := ih shorter plain.2.2
          have longer : 3 * (count + 1) + 2 = (3 * count + 2) + 3 := by omega
          rw [longer, addColons, List.take_succ_cons, List.take_succ_cons, List.take_succ_cons]
          rw [List.filter_cons_of_pos (by simpa using plain.1), List.filter_cons_of_pos (by simpa using plain.2.1),
            List.filter_cons_of_neg (by simp), tail]

/-- A MAC is written with its own digits. -/
theorem agentMac_digits (host : String) :
    agentMac host = "" ∨ (∀ char ∈ macDigits (agentMac host), isHexDigit char = true) ∧
      agentMac host = String.ofList ((addColons (macDigits (agentMac host))).take 17) := by
  unfold agentMac
  extract_lets amac
  split_ifs with suffix
  · right
    have digits : ∀ char ∈ amac.map Char.toUpper, isHexDigit char = true := by
      intro char inside
      obtain ⟨raw, taken, rfl⟩ := List.mem_map.mp inside
      exact isHexDigit_toUpper (List.mem_takeWhile_imp taken)
    have written : (upper (String.ofList ((addColons amac).take 17))).toList = (addColons (amac.map Char.toUpper)).take 17 := by
      rw [toList_upper, String.toList_ofList, List.map_take, addColons_map]
    have plain : ∀ char ∈ amac.map Char.toUpper, char ≠ ':' := by
      rintro char inside rfl
      exact absurd (digits ':' inside) (by decide)
    have same : macDigits (upper (String.ofList ((addColons amac).take 17))) = amac.map Char.toUpper := by
      rw [macDigits, written]
      exact addColons_digits 5 (by simp [suffix.2]) plain
    rw [same]
    refine ⟨digits, ?_⟩
    rw [← written, String.ofList_toList]
  · exact Or.inl rfl

theorem agentMac_injective {host host' : String} (physical : agentMac host ≠ "") (physical' : agentMac host' ≠ "")
    (same : macDigits (agentMac host) = macDigits (agentMac host')) : agentMac host = agentMac host' := by
  rw [((agentMac_digits host).resolve_left physical).2, same, ← ((agentMac_digits host').resolve_left physical').2]

/-- A character of an id that is made of an address, and back. -/
def idChar (char : Char) : Char := if char = '.' then '_' else char

def addressChar (char : Char) : Char := if char = '_' then '.' else char

theorem map_addressChar {chars : List Char} (plain : '_' ∉ chars) : (chars.map idChar).map addressChar = chars := by
  have back : ∀ char ∈ chars, addressChar (idChar char) = char := by
    intro char inside
    have other : char ≠ '_' := fun same => plain (same ▸ inside)
    by_cases dot : char = '.'
    · rw [dot]
      decide
    · rw [idChar, if_neg dot, addressChar, if_neg other]
  rw [List.map_map]
  exact (List.map_congr_left back).trans (List.map_id' chars)

/-- What the id of a line is made of, before its dots are replaced. -/
def idText (address host : String) : List Char :=
  if agentMac host ≠ "" then macDigits (agentMac host) else address.toList

theorem idText_plain {address host : String} (plain : '_' ∉ address.toList) : '_' ∉ idText address host := by
  unfold idText
  split_ifs with physical
  · intro inside
    exact absurd (((agentMac_digits host).resolve_left physical).1 '_' inside) (by decide)
  · exact plain

/-- The digits of a MAC have no dots, so that every id is its text with the dots replaced. -/
theorem toList_nodeIdOf (address host : String) :
    (nodeIdOf address (agentMac host)).toList = "node_".toList ++ (idText address host).map idChar := by
  rw [nodeIdOf, String.toList_append, idText]
  split_ifs with physical
  · have kept : (macDigits (agentMac host)).map idChar = macDigits (agentMac host) := by
      refine (List.map_congr_left fun char inside => ?_).trans (List.map_id' _)
      refine if_neg fun dot => absurd (((agentMac_digits host).resolve_left physical).1 char inside) ?_
      rw [dot]
      decide
    rw [kept]
    exact congrArg ("node_".toList ++ ·) String.toList_ofList
  · exact congrArg ("node_".toList ++ ·) String.toList_ofList

theorem nodeIdOf_eq_iff {address host address' host' : String} (plain : '_' ∉ address.toList) (plain' : '_' ∉ address'.toList) :
    nodeIdOf address (agentMac host) = nodeIdOf address' (agentMac host') ↔ idText address host = idText address' host' := by
  rw [← String.toList_inj, toList_nodeIdOf, toList_nodeIdOf, List.append_cancel_left_eq]
  constructor
  · intro same
    have back := congrArg (List.map addressChar) same
    rwa [map_addressChar (idText_plain plain), map_addressChar (idText_plain plain')] at back
  · exact congrArg (List.map idChar)

/-- The ids of the agents are distinct exactly for an unambiguous file. -/
theorem agentIds_nodup_iff (lines : List String) :
    ((discoverAgents [] lines).map Agent.nodeId).Nodup ↔ Unambiguous lines := by
  have ips := discoverAgents_nodup lines []
  have plain : ∀ {address host}, Named lines address host → '_' ∉ address.toList := by
    rintro address host ⟨before, line, after, -, matched, -⟩ inside
    exact absurd (hostLine_address matched '_' inside) (by decide)
  rw [List.nodup_map_iff_inj_on ips.of_map]
  constructor
  · intro injective
    have sameText : ∀ {address host address' host'}, Named lines address host → Named lines address' host' →
        idText address host = idText address' host' → agentOf address host = agentOf address' host' := by
      intro address host address' host' named named' same
      have known := mem_discoverAgents.mpr ⟨address, host, List.not_mem_nil, named, rfl⟩
      have known' := mem_discoverAgents.mpr ⟨address', host', List.not_mem_nil, named', rfl⟩
      exact injective _ known _ known' ((nodeIdOf_eq_iff (plain named) (plain named')).mpr same)
    constructor
    · intro address host address' host' named named' physical same
      refine congrArg Agent.ip (sameText named named' ?_)
      rw [idText, idText, ← same, if_pos physical, if_pos physical]
    · intro address host address' host' named named' virtual physical spelled
      have same : idText address host = idText address' host' := by
        rw [idText, idText, if_neg (not_not_intro virtual), if_pos physical, spelled]
      exact physical ((congrArg Agent.mac (sameText named named' same)).symm.trans virtual)
  · intro unambiguous a inside a' inside' same
    obtain ⟨address, host, -, named, rfl⟩ := mem_discoverAgents.mp inside
    obtain ⟨address', host', -, named', rfl⟩ := mem_discoverAgents.mp inside'
    refine List.inj_on_of_nodup_map ips inside inside' ?_
    have texts := (nodeIdOf_eq_iff (plain named) (plain named')).mp same
    unfold idText at texts
    split_ifs at texts with physical physical' physical'
    · exact unambiguous.macs named named' physical (agentMac_injective physical physical' texts)
    · exact absurd texts.symm (unambiguous.addresses named' named (not_not.mp physical') physical)
    · exact absurd texts (unambiguous.addresses named named' (not_not.mp physical) physical')
    · exact String.toList_inj.mp texts

/-! ## Nodes that may be listed -/

/-- What the validation of a topology reads of a node. -/
def MeshNode.checked (n : MeshNode) : String × Option String × List WiredPort := (n.id, n.role, n.wiredPorts)

theorem MeshNode.Listable.of_checked {n m : MeshNode} (listable : m.Listable) (same : m.checked = n.checked) : n.Listable := by
  simp only [MeshNode.checked, Prod.mk.injEq] at same
  obtain ⟨id, role, ports⟩ := same
  constructor
  · exact ports ▸ listable.ports
  · exact id ▸ listable.named
  · have root : n.isRoot = m.isRoot := by simp only [MeshNode.isRoot, id, role]
    rw [root, ← role]
    exact listable.role

theorem nodeIdOf_ne_empty (aip amac : String) : nodeIdOf aip amac ≠ "" := by
  intro empty
  have start := congrArg String.toList empty
  rw [nodeIdOf, String.toList_append] at start
  simp at start

theorem Inputs.nodes_listable (inputs : Inputs) : ∀ n ∈ inputs.sources.nodes, n.Listable := by
  intro n inside
  rcases List.mem_cons.mp inside with rfl | agent
  · constructor
    · exact inputs.localMacs.ports
    · exact (by decide : "ac" ≠ "")
    · have role : (acNode inputs.sources.localInfo).role = some "controller" := inputs.controller
      have isRoot : (acNode inputs.sources.localInfo).isRoot = true := by
        rw [MeshNode.isRoot, role]
        rfl
      exact Or.inl isRoot
  · obtain ⟨a, known, rfl⟩ := List.mem_map.mp agent
    have named : a.nodeId ≠ "" := by
      obtain ⟨address, host, -, -, rfl⟩ := mem_discoverAgents.mp known
      exact nodeIdOf_ne_empty _ _
    cases fetched : inputs.sources.reports a.ip with
    | none => exact ⟨fun _ none => absurd none List.not_mem_nil, named, Or.inr (Or.inl rfl)⟩
    | some report =>
        have accepted := fetchAgentsParallel_accepted fetched
        refine ⟨accepted.macs.ports, named, Or.inr ?_⟩
        rcases accepted.role with role | role
        · exact Or.inl (by simp [agentNode, role, nonemptyOr])
        · exact Or.inr (by simp [agentNode, role, nonemptyOr])

/-! ## The topology of a controller -/

theorem markVpn_mac (u : NatflowUser) : (markVpn u).mac = u.mac := by
  unfold markVpn
  split <;> rfl

/-- The hardware address of a natflow user that has one is well formed. -/
theorem Inputs.hardware_valid (inputs : Inputs) {cmac : String} {nu : NatflowUser}
    (known : inputs.sources.natflowUser cmac = some nu) : validMac cmac = true := by
  obtain ⟨key, named⟩ := natflowUser_hardware known
  unfold Sources.natflowUser at known
  have listed := List.mem_reverse.mp (List.mem_of_find?_eq_some known)
  obtain ⟨marked, -⟩ := List.mem_filter.mp listed
  obtain ⟨u, inside, rfl⟩ := List.mem_map.mp marked
  rw [NatflowUser.hardware, markVpn_mac] at key
  split_ifs at key with physical
  · rw [← key]
    exact validMac_upper ((inputs.userMacs u inside).resolve_left physical.1)
  · exact absurd key.symm named

/-- A client that does not come in over a VPN has a MAC. -/
theorem Inputs.client_valid (inputs : Inputs) {pairs : PairsOrder} {mesh : MeshView} {c : Candidate}
    (origin : Origin pairs inputs.sources mesh
      (reportedCandidates inputs.localInfo inputs.sources.agents inputs.sources.reports) c) :
    c.accessType = some "vpn" ∨ validMac c.mac = true := by
  cases origin with
  | @candidate cmac group best c inside key unowned resolved =>
      obtain ⟨mac, -, accessType⟩ := resolveCandidate_keeps resolved
      obtain ⟨raw, id, made, source⟩ := mem_reportedCandidates inside
      obtain ⟨-, rfl⟩ := addCandidate_eq_some made
      have valid : raw.accessType = some "vpn" ∨ validMac raw.mac = true := by
        rcases source with ⟨near, -⟩ | ⟨a, -, report, fetched, far, -⟩
        · exact (inputs.localMacs.clients raw near).2
        · exact ((fetchAgentsParallel_accepted fetched).macs.clients raw far).2
      rw [mac, accessType]
      exact valid.imp_right validMac_upper
  | @fallback cmac nu c known unowned resolved =>
      obtain ⟨mac, -, -⟩ := fallbackClient_keeps resolved
      rw [mac]
      exact Or.inr (inputs.hardware_valid known)
  | vpn => exact Or.inl rfl

/-- Placing a node changes nothing that the validation reads. -/
theorem getTopology_checked {pairs : PairsOrder} {fuel : Nat} {src : Sources} {t : Topology}
    (returned : getTopology pairs fuel src = some t) :
    t.nodes.map MeshNode.checked = src.nodes.map MeshNode.checked := by
  obtain ⟨-, nodes, -, -⟩ := getTopology_eq_some returned
  have placed : (placedNodes pairs src.nodes).1.map MeshNode.checked = src.nodes.map MeshNode.checked := by
    apply placedNodes_keeps pairs src.nodes
    · intro n
      obtain ⟨_, _, _, _, placed, -⟩ := placeNode_eq pairs src.nodes n
      rw [placed]
      rfl
    · exact fun _ _ => rfl
    · intro tree n
      obtain ⟨_, _, _, named⟩ := nameParent_eq tree n
      rw [named]
      rfl
  rw [nodes, List.map_map]
  exact placed

/-- A returned topology is accepted exactly when the node ids are distinct. -/
theorem Inputs.accepted_iff (inputs : Inputs) {pairs : PairsOrder} {fuel : Nat} {t : Topology}
    (returned : getTopology pairs fuel inputs.sources = some t) :
    validTopologyReport t.value inputs.meshId = true ↔ (inputs.sources.nodes.map MeshNode.id).Nodup := by
  obtain ⟨-, -, -, mesh⟩ := getTopology_eq_some returned
  have checked := getTopology_checked returned
  have ids : t.nodes.map MeshNode.id = inputs.sources.nodes.map MeshNode.id := by
    have first := congrArg (List.map Prod.fst) checked
    rw [List.map_map, List.map_map] at first
    exact first
  rw [validTopologyReport_iff, ← ids]
  constructor
  · exact Topology.Acceptable.distinct
  · intro distinct
    constructor
    · exact mesh.trans inputs.mesh
    · intro n inside
      have known : n.checked ∈ inputs.sources.nodes.map MeshNode.checked := checked ▸ List.mem_map_of_mem inside
      obtain ⟨m, insideM, same⟩ := List.mem_map.mp known
      exact (inputs.nodes_listable m insideM).of_checked same
    · exact distinct
    · have known : (acNode inputs.localInfo).checked ∈ t.nodes.map MeshNode.checked := checked ▸ List.mem_cons_self
      obtain ⟨n, inside, same⟩ := List.mem_map.mp known
      refine ⟨n, inside, ?_⟩
      simp only [MeshNode.checked, Prod.mk.injEq] at same
      have role : n.role = some "controller" := same.2.1.trans inputs.controller
      rw [MeshNode.isRoot, same.1, role]
      rfl
    · intro c inside
      obtain ⟨origin, admissible⟩ := (getTopology_clients returned).2 c inside
      exact ⟨admissible.named, inputs.client_valid origin⟩

theorem Inputs.ids_nodup_iff (inputs : Inputs) :
    (inputs.sources.nodes.map MeshNode.id).Nodup ↔ Unambiguous inputs.hostsFakemesh := by
  have ids : inputs.sources.nodes.map MeshNode.id =
      "ac" :: (discoverAgents [] inputs.hostsFakemesh).map Agent.nodeId := by
    rw [Sources.nodes, reportedNodes, List.map_cons, List.map_map]
    exact congrArg ("ac" :: ·) (List.map_congr_left fun a _ => agentNode_id a _)
  have apart : "ac" ∉ (discoverAgents [] inputs.hostsFakemesh).map Agent.nodeId := by
    intro listed
    obtain ⟨a, known, same⟩ := List.mem_map.mp listed
    obtain ⟨address, host, -, -, rfl⟩ := mem_discoverAgents.mp known
    have start := congrArg String.toList same
    rw [agentOf, toList_nodeIdOf] at start
    cases start
  rw [ids, List.nodup_cons, and_iff_right apart]
  exact agentIds_nodup_iff inputs.hostsFakemesh

/-- The controller returns a topology that the agents accept exactly when its hosts file is unambiguous. -/
theorem topology_accepted_iff (pairs : PairsOrder) (inputs : Inputs) :
    (∃ limit, ∀ fuel ≥ limit, ∃ t, getTopology pairs fuel inputs.sources = some t ∧
      validTopologyReport t.value inputs.meshId = true) ↔ Unambiguous inputs.hostsFakemesh := by
  rw [← inputs.ids_nodup_iff]
  constructor
  · rintro ⟨limit, returns⟩
    obtain ⟨t, returned, valid⟩ := returns limit le_rfl
    exact (inputs.accepted_iff returned).mp valid
  · intro distinct
    obtain ⟨limit, returns⟩ := getTopology_returns pairs distinct
    refine ⟨limit, fun fuel enough => ?_⟩
    obtain ⟨t, returned⟩ := returns fuel enough
    exact ⟨t, returned, (inputs.accepted_iff returned).mpr distinct⟩

/-- A controller whose hosts file names one access point twice, in small and in capital letters. -/
def twinNames : Inputs where
  localInfo := ⟨some "controller", some "02:00:00:00:00:01", some "192.168.1.1", none, none, some "mesh", none, none, none,
    none, none, [], [], []⟩
  meshId := "mesh"
  hostsFakemesh := ["192.168.1.2 02000000000a.ap.fakemesh", "192.168.1.3 02000000000A.ap.fakemesh"]
  responses := fun _ => none
  leases := []
  arp := []
  ip6 := []
  hosts := []
  users := []
  time := 0
  controller := rfl
  mesh := rfl
  localMacs := ⟨fun _ none => absurd none List.not_mem_nil, fun _ none => absurd none List.not_mem_nil⟩
  userMacs := fun _ none => absurd none List.not_mem_nil

/-- The topology of that controller has two nodes with one id, and the agents refuse it. -/
theorem twinNames_refused :
    ∃ t, getTopology assignmentOrder 1 twinNames.sources = some t ∧
      t.nodes.map MeshNode.id = ["ac", "node_02000000000A", "node_02000000000A"] ∧
      validTopologyReport t.value twinNames.meshId = false := by
  have met : (getTopology assignmentOrder 1 twinNames.sources).any (fun t =>
      t.nodes.map MeshNode.id = ["ac", "node_02000000000A", "node_02000000000A"] &&
        !validTopologyReport t.value twinNames.meshId) = true := by
    decide +kernel
  simp only [Option.any_eq_true, Bool.and_eq_true, decide_eq_true_eq, Bool.not_eq_true'] at met
  exact met

end XWrt.Fakemesh
