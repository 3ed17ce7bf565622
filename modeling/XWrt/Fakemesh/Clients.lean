import Mathlib.Data.List.Dedup
import XWrt.Fakemesh.Nodes

/-!
# The clients of the mesh

The second half of `get_topology` on the controller. Clients come from three
passes: the candidates that the nodes report, then the users that only natflow
knows, then its VPN users without a MAC. The passes share the table
`handled_macs` of the keys that have been dealt with.
-/

namespace XWrt.Fakemesh

open XWrt.Foundation.Text

/-! ## What the controller reads -/

/-- A line of `/tmp/dhcp.leases`, as it is matched. -/
structure Lease where
  mac : String
  ip : String
  name : String
  deriving DecidableEq

/-- A user of `get_mac_users`. A missing MAC is the empty text. -/
structure NatflowUser where
  mac : String
  accessType : Option String := none
  ifname : Option String := none
  hostname : Option String := none
  ip : List String := []
  ip6 : List String := []
  idleTime : Option ℚ := none
  rxSpeedBytes : Option ℚ := none
  txSpeedBytes : Option ℚ := none
  rxBytes : Option ℚ := none
  txBytes : Option ℚ := none
  deriving DecidableEq

/-- The sources of the topology. `arp` and `ip6` are pairs of an address and a MAC, `hosts` pairs of an address and a
name, all as the lines are matched; `reports` is what each agent answered, where the answer was accepted. -/
structure Sources where
  localInfo : NodeReport
  hostsFakemesh : List String
  reports : String → Option NodeReport
  leases : List Lease
  arp : List (String × String)
  ip6 : List (String × String)
  hosts : List (String × String)
  users : List NatflowUser
  time : ℚ

/-- An entry of `dhcp_hints`. -/
structure Hint where
  ip : String
  hostname : String
  deriving DecidableEq

/-- `dhcp_hints[mac]`. -/
def Sources.dhcpHint (src : Sources) (mac : String) : Option Hint :=
  (src.leases.filter fun lease => upper lease.mac = mac).foldl (fun hint lease =>
    match hint with
    | none => some ⟨lease.ip, if lease.name ≠ "*" then lease.name else ""⟩
    | some hint => if hint.hostname = "" ∧ lease.name ≠ "*" then some { hint with hostname := lease.name } else some hint) none

/-- The keys of `dhcp_ips[mac]`. -/
def Sources.dhcpIps (src : Sources) (mac : String) : List String :=
  ((src.leases.filter fun lease => upper lease.mac = mac).map Lease.ip).dedup

/-- The keys of `arp_ips[mac]`. -/
def Sources.arpIps (src : Sources) (mac : String) : List String :=
  ((src.arp.filter fun entry => upper entry.2 = mac).map Prod.fst).dedup

/-- The keys of `ip6_neigh[mac]`. -/
def Sources.ip6Neigh (src : Sources) (mac : String) : List String :=
  ((src.ip6.filter fun entry => upper entry.2 = mac).map Prod.fst).dedup

/-- The names that `load_hosts_file` takes. -/
def isHostName (name : String) : Bool :=
  !(".fakemesh".toList <:+ name.toList) && !("localhost".toList <:+: name.toList) && !(".dns.x-wrt.com".toList <:+ name.toList)

/-- `hosts_by_ip[ip]`. -/
def Sources.hostsByIp (src : Sources) (ip : String) : Option String :=
  lastAssigned (src.hosts.filter fun entry => isHostName entry.2) ip

/-- The interfaces of VPN users. -/
def vpnPrefixes : List String := ["tun", "tap", "wg", "pptp", "ppp", "tailscale", "zerotier", "zt", "natcap"]

/-- A user with `access_type` set where the interface is that of a VPN; it is then `"vpn"` exactly for `u.is_vpn`. -/
def markVpn (u : NatflowUser) : NatflowUser :=
  if u.accessType ≠ some "vpn" ∧
      u.ifname.any fun ifname => vpnPrefixes.any fun start => start.toList <+: ifname.toList.map Char.toLower then
    { u with accessType := some "vpn" }
  else u

/-- A user's hardware address in upper case, or nothing. -/
def NatflowUser.hardware (u : NatflowUser) : String :=
  if u.mac ≠ "" ∧ u.mac ≠ "00:00:00:00:00:00" then upper u.mac else ""

/-- The users that `natflow_users` is filled with, in order. -/
def Sources.natflowList (src : Sources) : List NatflowUser := (src.users.map markVpn).filter fun u => u.hardware ≠ ""

/-- `natflow_users[mac]`. -/
def Sources.natflowUser (src : Sources) (mac : String) : Option NatflowUser :=
  src.natflowList.reverse.find? fun u => u.hardware = mac

/-- `natflow_vpn`. -/
def Sources.natflowVpn (src : Sources) : List NatflowUser := (src.users.map markVpn).filter fun u => u.accessType = some "vpn"

/-- The groups of words that `get_device_icon` looks for. -/
def deviceIcons : List (String × List String) :=
  [("phone", ["iphone", "moto", "android", "phone", "mi-", "redmi", "huawei", "oppo", "vivo", "oneplus", "galaxy", "pixel",
      "honor", "meizu", "realme", "iqoo"]),
    ("tablet", ["ipad", "pad", "tablet", "matepad"]),
    ("laptop", ["laptop", "macbook", "thinkpad", "notebook", "zenbook", "surface"]),
    ("pc", ["pc", "desktop", "game", "win", "workstation", "host"]),
    ("tv", ["tv", "appletv", "box", "mibox", "chromecast", "roku", "firetv", "cast"]),
    ("iot", ["gree", "camera", "plug", "light", "bulb", "yeelink", "yeelight", "esp_", "esp32", "esp8266", "smart", "switch",
      "vacuum", "tuya", "aqara"]),
    ("router", ["router", "ap", "mesh", "repeater", "gateway"]),
    ("vpn", ["vpn", "wireguard", "tunnel", "openvpn", "tailscale", "zerotier"])]

/-- `get_device_icon`. -/
def getDeviceIcon (hostname : String) : String :=
  let h := hostname.toList.map Char.toLower
  ((deviceIcons.find? fun icon => icon.2.any fun word => word.toList <:+: h).map Prod.fst).getD "device"

/-- A name that is not one of the agents. -/
def isRealName (hostname : String) : Bool := hostname ≠ "" && !("MESH-AGENT_".toList <+: hostname.toList)

/-! ## Addresses of nodes -/

/-- The MAC, the mesh BSSID and the radio BSSIDs of a node. -/
def MeshNode.addresses (n : MeshNode) : List String :=
  n.mac.toList ++ n.meshBssid.toList ++ n.radios.filterMap Radio.bssid

/-- The keys of `mesh_node_macs`. -/
def meshNodeMacs (agents : List Agent) (nodes : List MeshNode) : List String :=
  ((agents.map Agent.mac ++ nodes.flatMap MeshNode.addresses).filter (· ≠ "")).map upper

/-- The keys of `mesh_node_ips`. -/
def meshNodeIps (agents : List Agent) (nodes : List MeshNode) : List String :=
  (agents.map Agent.ip ++ nodes.filterMap MeshNode.ip).filter (· ≠ "")

theorem mem_meshNodeMacs {agents : List Agent} {nodes : List MeshNode} {n : MeshNode} (inside : n ∈ nodes) {address : String}
    (known : address ∈ n.addresses) (nonempty : address ≠ "") : upper address ∈ meshNodeMacs agents nodes := by
  refine List.mem_map_of_mem (List.mem_filter.mpr ⟨List.mem_append_right _ ?_, decide_eq_true nonempty⟩)
  exact List.mem_flatMap.mpr ⟨n, inside, known⟩

theorem mem_meshNodeIps {agents : List Agent} {nodes : List MeshNode} {n : MeshNode} (inside : n ∈ nodes) {ip : String}
    (known : n.ip = some ip) (nonempty : ip ≠ "") : ip ∈ meshNodeIps agents nodes := by
  refine List.mem_filter.mpr ⟨List.mem_append_right _ ?_, decide_eq_true nonempty⟩
  exact List.mem_filterMap.mpr ⟨n, inside, known⟩

/-! ## The choice among candidates -/

/-- `score_client_candidate`, with exact sums: Lua adds doubles, which is the same for signals in whole dBm as drivers report
them, and for any other whose sum with 1200 is a double. -/
def scoreClientCandidate (c : Candidate) : ℚ :=
  if c.accessType = some "wireless" then
    1000 + (match c.signal with | some signal => if signal > -95 then 100 + signal else 0 | none => 0) +
      (if c.rateRx.any (· > 0) then 50 else 0) + if c.rateTx.any (· > 0) then 50 else 0
  else if c.accessType = some "wired" then
    if c.port.any fun port => port ≠ "" && !("MESH".toList <:+: port.toList) then
      500 + if c.portSpeed.any (· ≠ "") then 50 else 0
    else 100
  else if c.accessType = some "vpn" then 800
  else 0

/-- `prefer_client_candidate`. -/
def preferClientCandidate (candidate : Candidate) : Option Candidate → Bool
  | none => true
  | some current =>
      match candidate.inactiveMs, current.inactiveMs with
      | some inactive, some currentInactive =>
          if candidate.accessType = some "wireless" ∧ current.accessType = some "wireless" ∧ inactive ≠ currentInactive then
            inactive < currentInactive
          else scoreClientCandidate candidate > scoreClientCandidate current
      | _, _ => scoreClientCandidate candidate > scoreClientCandidate current

/-- The loop that picks `best_c`, over what is left of the group; `none` when a walk has run out of fuel. -/
def pickClient (nodes : List Node) (fuel : Nat) (group : List Candidate) : Option Candidate → List Candidate →
    Option (Option Candidate)
  | best, [] => some best
  | best, cand :: rest =>
      if clientOnUplink nodes cand.toClient then pickClient nodes fuel group best rest
      else
        match clientForwardedDownstream nodes fuel cand.toClient (group.map Candidate.toClient) with
        | none => none
        | some forwarded =>
            pickClient nodes fuel group (if !forwarded && preferClientCandidate cand best then some cand else best) rest

/-! ## Addresses and names of a client -/

/-- What `add_ipv4` changes. -/
structure Gathered where
  ipList : List String
  hname : String
  isMeshIp : Bool

/-- `add_ipv4`. -/
def addIpv4 (src : Sources) (meshIps : List String) (gathered : Gathered) (ipStr : String) : Gathered :=
  if ipStr ∈ meshIps then { gathered with isMeshIp := true }
  else if ipStr ≠ "" ∧ ':' ∉ ipStr.toList ∧ ipStr ∉ gathered.ipList then
    { gathered with
      ipList := gathered.ipList ++ [ipStr]
      hname := if gathered.hname = "" then (src.hostsByIp ipStr).getD "" else gathered.hname }
  else gathered

/-- All addresses of a client through `add_ipv4`. -/
def gather (src : Sources) (meshIps : List String) (hname : String) (addresses : List String) : Gathered :=
  addresses.foldl (addIpv4 src meshIps) ⟨[], hname, false⟩

/-- `add_ipv6`. -/
def addIpv6 (ip6List : List String) (ip6Str : String) : List String :=
  if ':' ∈ ip6Str.toList ∧ ip6Str ∉ ip6List then ip6List ++ [ip6Str] else ip6List

/-- The seconds since a user was last seen, 0 while it has traffic. -/
def NatflowUser.idle (u : NatflowUser) : Option ℚ :=
  if u.rxSpeedBytes.any (· > 0) || u.txSpeedBytes.any (· > 0) then some 0 else u.idleTime

/-- A candidate's name, where it counts as one. -/
def Candidate.realName (c : Candidate) : Option String := c.hostname.filter fun hostname => hostname ≠ "*" && isRealName hostname

/-! ## The pass over the candidates -/

/-- The table of the chosen candidate as it is listed; nothing where an address belongs to a node. -/
def resolveCandidate (pairs : PairsOrder) (src : Sources) (meshIps : List String) (cmac : String) (group : List Candidate)
    (best : Candidate) : Option Candidate :=
  let nu := src.natflowUser cmac
  let hint := src.dhcpHint cmac
  let hname :=
    (best.realName <|> group.findSome? Candidate.realName <|> (hint.map Hint.hostname).filter (· ≠ "") <|>
      (nu.bind NatflowUser.hostname).filter isRealName <|> hint.bind fun hint => src.hostsByIp hint.ip).getD ""
  let gathered :=
    gather src meshIps hname
      ((hint.map Hint.ip).toList ++ (nu.map NatflowUser.ip).getD [] ++ (group.flatMap fun cand => cand.ip.toList ++ cand.ips) ++
        pairs.order (.arpIps cmac) (src.arpIps cmac) ++ pairs.order (.dhcpIps cmac) (src.dhcpIps cmac))
  let ip6List :=
    ((nu.map NatflowUser.ip6).getD [] ++ pairs.order (.ip6Neigh cmac) (src.ip6Neigh cmac) ++
      group.flatMap Candidate.ip6).foldl addIpv6 []
  let rxSpeed := (nu.bind NatflowUser.rxSpeedBytes).getD 0
  let txSpeed := (nu.bind NatflowUser.txSpeedBytes).getD 0
  let wifiIdle : Option ℚ := best.inactiveMs.map fun inactive => (inactive / 1000).floor
  let idleTime :=
    if rxSpeed > 0 ∨ txSpeed > 0 then some 0
    else
      match wifiIdle, nu.bind NatflowUser.idleTime with
      | some wifiIdle, some idleTime => some (min wifiIdle idleTime)
      | some wifiIdle, none => some wifiIdle
      | none, idleTime => idleTime
  if gathered.isMeshIp then none
  else
    some
      { best with
        hostname := some gathered.hname
        ips := gathered.ipList
        ip := some (gathered.ipList.head?.getD "")
        ip6 := ip6List
        rxSpeed := some rxSpeed
        txSpeed := some txSpeed
        rxBytes := some ((nu.bind NatflowUser.rxBytes).getD 0)
        txBytes := some ((nu.bind NatflowUser.txBytes).getD 0)
        idleTime := idleTime
        icon := some (getDeviceIcon gathered.hname) }

/-- `final_clients` and the keys of `handled_macs`. -/
structure Resolved where
  finalClients : List Candidate
  handledMacs : List String

/-- The nodes and their addresses, as the passes use them. -/
structure MeshView where
  nodes : List Node
  macs : List String
  ips : List String

/-- One turn of the loop over `candidates_by_mac`; `none` when a walk has run out of fuel. -/
def candidateTurn (pairs : PairsOrder) (fuel : Nat) (src : Sources) (mesh : MeshView) (candidates : List Candidate)
    (done : Resolved) (cmac : String) : Option Resolved :=
  if cmac ∈ mesh.macs then some done
  else
    let group := candidates.filter fun c => c.mac = cmac
    match pickClient mesh.nodes fuel group none group with
    | none => none
    | some best =>
        let resolved := best.bind (resolveCandidate pairs src mesh.ips cmac group)
        some ⟨done.finalClients ++ resolved.toList, cmac :: done.handledMacs⟩

/-- The pass over `candidates_by_mac`. -/
def candidatePass (pairs : PairsOrder) (fuel : Nat) (src : Sources) (mesh : MeshView) (candidates : List Candidate) :
    Option Resolved :=
  (pairs.order .candidates (candidates.map Candidate.mac).dedup).foldlM (candidateTurn pairs fuel src mesh candidates) ⟨[], []⟩

/-! ## The pass over the natflow users -/

/-- The client of a user that only natflow knows; nothing where an address belongs to a node. -/
def fallbackClient (pairs : PairsOrder) (src : Sources) (meshIps : List String) (cmac : String) (nu : NatflowUser) :
    Option Candidate :=
  let isVpn : Bool := nu.accessType = some "vpn"
  let hint := src.dhcpHint cmac
  let ownName := nu.hostname.getD ""
  let hname := if ownName = "" ∨ ownName = "*" then (hint.map Hint.hostname).getD ownName else ownName
  let gathered :=
    gather src meshIps hname
      ((hint.map Hint.ip).toList ++ nu.ip ++ pairs.order (.arpIps cmac) (src.arpIps cmac))
  let ip6List :=
    (pairs.order (.ip6Neigh cmac) (src.ip6Neigh cmac)).foldl
      (fun ip6List nip6 => if nip6 ∈ ip6List then ip6List else ip6List ++ [nip6]) (nu.ip6.foldl addIpv6 [])
  if gathered.isMeshIp then none
  else
    some
      { mac := cmac
        nodeId := "ac"
        accessType := if isVpn then some "vpn" else nu.accessType <|> some "wired"
        ifname := nu.ifname <|> some (if isVpn then "vpn" else "lan")
        port := none
        hostname := some gathered.hname
        ips := gathered.ipList
        ip := some (gathered.ipList.head?.getD "")
        ip6 := ip6List
        icon := some (if isVpn then "vpn" else getDeviceIcon gathered.hname)
        rxSpeed := some (nu.rxSpeedBytes.getD 0)
        txSpeed := some (nu.txSpeedBytes.getD 0)
        rxBytes := some (nu.rxBytes.getD 0)
        txBytes := some (nu.txBytes.getD 0)
        idleTime := nu.idle }

/-- One turn of the loop over `natflow_users`. -/
def fallbackTurn (pairs : PairsOrder) (src : Sources) (mesh : MeshView) (done : Resolved) (cmac : String) : Resolved :=
  match src.natflowUser cmac with
  | none => done
  | some nu =>
      if cmac ∉ done.handledMacs ∧ cmac ∉ mesh.macs ∧ src.localInfo.mac ≠ some cmac ∧
          nu.accessType ≠ some "wireless" ∧ nu.accessType ≠ some "wireless_mesh" then
        ⟨done.finalClients ++ (fallbackClient pairs src mesh.ips cmac nu).toList, cmac :: done.handledMacs⟩
      else done

/-- The pass over `natflow_users`. -/
def fallbackPass (pairs : PairsOrder) (src : Sources) (mesh : MeshView) (done : Resolved) : Resolved :=
  (pairs.order .natflowUsers (src.natflowList.map NatflowUser.hardware).dedup).foldl (fallbackTurn pairs src mesh) done

/-! ## The pass over the VPN users -/

/-- The key of a VPN user. -/
def NatflowUser.vpnKey (vu : NatflowUser) : String :=
  let vip := vu.ip.head?.getD ""
  if vu.hardware ≠ "" then vu.hardware else "VPN:" ++ if vip ≠ "" then vip else vu.ifname.getD "client"

/-- The client of a VPN user. -/
def vpnClient (src : Sources) (vu : NatflowUser) : Candidate :=
  let vip := vu.ip.head?.getD ""
  let dhcpName := if vu.hardware ≠ "" then (src.dhcpHint vu.hardware).map Hint.hostname else none
  let named := vu.ip.filter (· ≠ "")
  let ips := if named = [] ∧ vip ≠ "" then [vip] else named
  { mac := vu.vpnKey
    nodeId := "ac"
    accessType := some "vpn"
    ifname := nonemptyOr vu.ifname (some "vpn")
    port := none
    hostname := some ((nonemptyOr dhcpName vu.hostname).getD "")
    ips := ips
    ip := some (ips.head?.getD "")
    ip6 := vu.ip6.filter (· ≠ "")
    icon := some "vpn"
    rxSpeed := some (vu.rxSpeedBytes.getD 0)
    txSpeed := some (vu.txSpeedBytes.getD 0)
    rxBytes := some (vu.rxBytes.getD 0)
    txBytes := some (vu.txBytes.getD 0)
    idleTime := vu.idle }

/-- One turn of the loop over `natflow_vpn`. -/
def vpnTurn (src : Sources) (mesh : MeshView) (done : Resolved) (vu : NatflowUser) : Resolved :=
  if vu.hardware ∉ mesh.macs ∧ (∀ ipStr ∈ vu.ip, ipStr ∉ mesh.ips) ∧ vu.vpnKey ∉ done.handledMacs ∧
      ¬(vu.hardware ≠ "" ∧ vu.hardware ∈ done.handledMacs) then
    ⟨done.finalClients ++ [vpnClient src vu],
      (if vu.hardware ≠ "" then [vu.hardware] else []) ++ vu.vpnKey :: done.handledMacs⟩
  else done

/-- The pass over `natflow_vpn`. -/
def vpnPass (src : Sources) (mesh : MeshView) (done : Resolved) : Resolved := src.natflowVpn.foldl (vpnTurn src mesh) done

/-! ## Where the clients come from -/

/-- Every way in which a client is listed, with what its turn has checked. -/
inductive Origin (pairs : PairsOrder) (src : Sources) (mesh : MeshView) (candidates : List Candidate) : Candidate → Prop where
  | candidate {cmac : String} {group : List Candidate} {best c : Candidate} (reported : best ∈ candidates)
      (key : best.mac = cmac) (unowned : cmac ∉ mesh.macs)
      (resolved : resolveCandidate pairs src mesh.ips cmac group best = some c) : Origin pairs src mesh candidates c
  | fallback {cmac : String} {nu : NatflowUser} {c : Candidate} (known : src.natflowUser cmac = some nu)
      (unowned : cmac ∉ mesh.macs) (resolved : fallbackClient pairs src mesh.ips cmac nu = some c) :
      Origin pairs src mesh candidates c
  | vpn {vu : NatflowUser} (known : vu ∈ src.natflowVpn) (unowned : vu.hardware ∉ mesh.macs)
      (foreign : ∀ ipStr ∈ vu.ip, ipStr ∉ mesh.ips) : Origin pairs src mesh candidates (vpnClient src vu)

/-- The state of the passes: one client for a key, every key of a client handled, every client with its origin. -/
structure Resolved.Sound (pairs : PairsOrder) (src : Sources) (mesh : MeshView) (candidates : List Candidate)
    (done : Resolved) : Prop where
  distinct : (done.finalClients.map Candidate.mac).Nodup
  handled : ∀ c ∈ done.finalClients, c.mac ∈ done.handledMacs
  origin : ∀ c ∈ done.finalClients, Origin pairs src mesh candidates c

section Passes

variable {pairs : PairsOrder} {fuel : Nat} {src : Sources} {mesh : MeshView} {candidates : List Candidate} {done : Resolved}

theorem Resolved.sound_empty : Resolved.Sound pairs src mesh candidates ⟨[], []⟩ :=
  ⟨List.nodup_nil, fun _ none => absurd none List.not_mem_nil, fun _ none => absurd none List.not_mem_nil⟩

/-- A turn lists at most one client, under a key that was not handled before. -/
theorem Resolved.Sound.extend (sound : done.Sound pairs src mesh candidates) {handled : List String}
    (grows : done.handledMacs ⊆ handled) (new : Option Candidate)
    (fresh : ∀ c ∈ new, Origin pairs src mesh candidates c ∧ c.mac ∉ done.handledMacs ∧ c.mac ∈ handled) :
    Resolved.Sound pairs src mesh candidates ⟨done.finalClients ++ new.toList, handled⟩ := by
  cases new with
  | none =>
      rw [Option.toList_none, List.append_nil]
      exact ⟨sound.distinct, fun c listed => grows (sound.handled c listed), sound.origin⟩
  | some c =>
      obtain ⟨origin, unhandled, handledNow⟩ := fresh c rfl
      constructor
      · rw [Option.toList_some, List.map_append, List.map_singleton, List.nodup_append]
        refine ⟨sound.distinct, List.nodup_singleton _, ?_⟩
        intro mac earlier mac' here same
        obtain ⟨other, listed, rfl⟩ := List.mem_map.mp earlier
        rw [List.mem_singleton] at here
        exact unhandled (here ▸ same ▸ sound.handled other listed)
      · exact List.forall_mem_append.mpr
          ⟨fun other listed => grows (sound.handled other listed), List.forall_mem_singleton.mpr handledNow⟩
      · exact List.forall_mem_append.mpr ⟨sound.origin, List.forall_mem_singleton.mpr origin⟩

/-- The pick comes from the group. -/
theorem pickClient_mem {nodes : List Node} {group : List Candidate} {start : Option Candidate} {rest : List Candidate}
    {best : Candidate} (picked : pickClient nodes fuel group start rest = some (some best)) : start = some best ∨ best ∈ rest := by
  induction rest generalizing start with
  | nil => exact Or.inl (Option.some.inj picked)
  | cons cand rest ih =>
      rw [pickClient] at picked
      split at picked
      · exact (ih picked).imp_right (List.mem_cons_of_mem _)
      · split at picked
        · cases picked
        · rcases ih picked with here | later
          · split_ifs at here with preferred
            · cases here
              exact Or.inr List.mem_cons_self
            · exact Or.inl here
          · exact Or.inr (List.mem_cons_of_mem _ later)

theorem pickClient_isSome {nodes : List Node} (walks : ∀ client candidates, (clientForwardedDownstream nodes fuel client candidates).isSome)
    (group : List Candidate) (start : Option Candidate) (rest : List Candidate) :
    (pickClient nodes fuel group start rest).isSome := by
  induction rest generalizing start with
  | nil => rfl
  | cons cand rest ih =>
      obtain ⟨forwarded, walk⟩ := Option.isSome_iff_exists.mp (walks cand.toClient (group.map Candidate.toClient))
      rw [pickClient, walk]
      split
      · exact ih start
      · exact ih _

/-- The resolved table keeps the key, the node and the access type of the pick. -/
theorem resolveCandidate_keeps {meshIps : List String} {cmac : String} {group : List Candidate} {best c : Candidate}
    (resolved : resolveCandidate pairs src meshIps cmac group best = some c) :
    c.mac = best.mac ∧ c.nodeId = best.nodeId ∧ c.accessType = best.accessType := by
  unfold resolveCandidate at resolved
  extract_lets at resolved
  split at resolved
  · cases resolved
  · obtain rfl := Option.some.inj resolved
    exact ⟨rfl, rfl, rfl⟩

theorem candidateTurn_sound (sound : done.Sound pairs src mesh candidates) {cmac : String} (fresh : cmac ∉ done.handledMacs)
    {next : Resolved} (turn : candidateTurn pairs fuel src mesh candidates done cmac = some next) :
    next.Sound pairs src mesh candidates ∧
      (next.handledMacs = done.handledMacs ∨ next.handledMacs = cmac :: done.handledMacs) := by
  unfold candidateTurn at turn
  split_ifs at turn with owned
  · obtain rfl := Option.some.inj turn
    exact ⟨sound, Or.inl rfl⟩
  · extract_lets group at turn
    split at turn
    · cases turn
    · next best picked =>
        obtain rfl := Option.some.inj turn
        refine ⟨sound.extend (List.subset_cons_self _ _) _ ?_, Or.inr rfl⟩
        intro c resolved
        obtain ⟨pick, rfl, resolved⟩ := Option.bind_eq_some_iff.mp resolved
        obtain ⟨inside, isGroup⟩ := List.mem_filter.mp ((pickClient_mem picked).resolve_left (by simp))
        have key : pick.mac = cmac := of_decide_eq_true isGroup
        rw [(resolveCandidate_keeps resolved).1, key]
        exact ⟨.candidate inside key owned resolved, fresh, List.mem_cons_self⟩

theorem candidatePass_sound (passed : candidatePass pairs fuel src mesh candidates = some done) :
    done.Sound pairs src mesh candidates := by
  have run : ∀ (keys : List String) (first : Resolved), keys.Nodup → (∀ key ∈ keys, key ∉ first.handledMacs) →
      first.Sound pairs src mesh candidates → keys.foldlM (candidateTurn pairs fuel src mesh candidates) first = some done →
      done.Sound pairs src mesh candidates := by
    intro keys
    induction keys with
    | nil =>
        intro first _ _ sound passed
        cases passed
        exact sound
    | cons key rest ih =>
        intro first distinct fresh sound passed
        rw [List.foldlM_cons] at passed
        obtain ⟨next, turn, passed⟩ := Option.bind_eq_some_iff.mp passed
        rw [List.nodup_cons] at distinct
        rw [List.forall_mem_cons] at fresh
        obtain ⟨sound', grown⟩ := candidateTurn_sound sound fresh.1 turn
        refine ih next distinct.2 ?_ sound' passed
        intro later listed
        rcases grown with same | grown
        · rw [same]
          exact fresh.2 later listed
        · rw [grown, List.mem_cons, not_or]
          exact ⟨fun same => distinct.1 (same ▸ listed), fresh.2 later listed⟩
  have distinct := (pairs.perm .candidates (candidates.map Candidate.mac).dedup).nodup_iff.mpr (List.nodup_dedup _)
  exact run _ ⟨[], []⟩ distinct (fun _ _ none => absurd none List.not_mem_nil) Resolved.sound_empty passed

theorem candidatePass_isSome
    (walks : ∀ client candidates, (clientForwardedDownstream mesh.nodes fuel client candidates).isSome) (candidates : List Candidate) :
    (candidatePass pairs fuel src mesh candidates).isSome := by
  have turn : ∀ done cmac, (candidateTurn pairs fuel src mesh candidates done cmac).isSome := by
    intro done cmac
    unfold candidateTurn
    split
    · rfl
    · extract_lets group
      obtain ⟨best, picked⟩ := Option.isSome_iff_exists.mp (pickClient_isSome walks group none group)
      rw [picked]
      rfl
  have run : ∀ (keys : List String) (first : Resolved), (keys.foldlM (candidateTurn pairs fuel src mesh candidates) first).isSome := by
    intro keys
    induction keys with
    | nil => exact fun _ => rfl
    | cons key rest ih =>
        intro first
        obtain ⟨next, taken⟩ := Option.isSome_iff_exists.mp (turn first key)
        rw [List.foldlM_cons, taken]
        exact ih next
  exact run _ _

theorem fallbackClient_keeps {meshIps : List String} {cmac : String} {nu : NatflowUser} {c : Candidate}
    (found : fallbackClient pairs src meshIps cmac nu = some c) :
    c.mac = cmac ∧ c.nodeId = "ac" ∧ (c.accessType = some "vpn" ∨ nu.accessType ≠ some "vpn") := by
  unfold fallbackClient at found
  extract_lets isVpn hint ownName hname gathered ip6List at found
  split at found
  · cases found
  · obtain rfl := Option.some.inj found
    refine ⟨rfl, rfl, ?_⟩
    by_cases vpn : nu.accessType = some "vpn"
    · exact Or.inl (if_pos (decide_eq_true vpn))
    · exact Or.inr vpn

theorem fallbackTurn_sound (sound : done.Sound pairs src mesh candidates) (cmac : String) :
    (fallbackTurn pairs src mesh done cmac).Sound pairs src mesh candidates := by
  unfold fallbackTurn
  split
  · exact sound
  · next nu found =>
      split_ifs with allowed
      · refine sound.extend (List.subset_cons_self _ _) _ ?_
        intro c listed
        rw [(fallbackClient_keeps listed).1]
        exact ⟨.fallback found allowed.2.1 listed, allowed.1, List.mem_cons_self⟩
      · exact sound

theorem vpnTurn_sound (sound : done.Sound pairs src mesh candidates) {vu : NatflowUser} (known : vu ∈ src.natflowVpn) :
    (vpnTurn src mesh done vu).Sound pairs src mesh candidates := by
  unfold vpnTurn
  split
  next allowed =>
      obtain ⟨unowned, foreign, fresh, -⟩ := allowed
      refine sound.extend (fun _ => by simp +contextual) (some (vpnClient src vu)) ?_
      rintro c ⟨rfl⟩
      exact ⟨.vpn known unowned foreign, fresh, by simp [vpnClient]⟩
  next => exact sound

/-- The three passes keep one client for a key. -/
theorem passes_sound (passed : candidatePass pairs fuel src mesh candidates = some done) :
    (vpnPass src mesh (fallbackPass pairs src mesh done)).Sound pairs src mesh candidates := by
  have run : ∀ {α : Type} (turn : Resolved → α → Resolved) (items : List α),
      (∀ done, ∀ item ∈ items, done.Sound pairs src mesh candidates → (turn done item).Sound pairs src mesh candidates) →
      ∀ first : Resolved, first.Sound pairs src mesh candidates → (items.foldl turn first).Sound pairs src mesh candidates := by
    intro α turn items
    induction items with
    | nil => exact fun _ _ sound => sound
    | cons item rest ih =>
        intro keeps first sound
        exact ih (fun done later listed => keeps done later (List.mem_cons_of_mem _ listed)) _
          (keeps first item List.mem_cons_self sound)
  apply run
  · exact fun _ vu known sound => vpnTurn_sound sound known
  · apply run
    · exact fun _ cmac _ sound => fallbackTurn_sound sound cmac
    · exact candidatePass_sound passed

/-! ## Clients beside the nodes -/

/-- The client of a VPN user without a hardware address, under a key that is made up. -/
def MadeUp (src : Sources) (c : Candidate) : Prop := ∃ vu ∈ src.natflowVpn, vu.hardware = "" ∧ c = vpnClient src vu

/-- A client that may be listed beside the nodes. -/
structure Admissible (src : Sources) (mesh : MeshView) (ids : List String) (c : Candidate) : Prop where
  named : c.mac ≠ ""
  listed : c.nodeId ∈ ids
  apart : upper c.mac ∉ mesh.macs ∨ MadeUp src c
  addresses : ∀ ip ∈ mesh.ips, ip ∉ c.ips ∧ c.ip ≠ some ip

/-- What `add_candidate` ensures. -/
structure Reported (ids : List String) (c : Candidate) : Prop where
  named : c.mac ≠ ""
  upper : upper c.mac = c.mac
  listed : c.nodeId ∈ ids

/-- The gathered addresses belong to no node. -/
theorem gather_apart {meshIps : List String} {hname : String} {addresses : List String} :
    ∀ ip ∈ (gather src meshIps hname addresses).ipList, ip ∉ meshIps := by
  have run : ∀ (addresses : List String) (gathered : Gathered), (∀ ip ∈ gathered.ipList, ip ∉ meshIps) →
      ∀ ip ∈ (addresses.foldl (addIpv4 src meshIps) gathered).ipList, ip ∉ meshIps := by
    intro addresses
    induction addresses with
    | nil => exact fun _ apart => apart
    | cons address rest ih =>
        intro gathered apart
        refine ih _ ?_
        unfold addIpv4
        split
        · exact apart
        · next owned =>
            split
            · exact List.forall_mem_append.mpr ⟨apart, by simpa using owned⟩
            · exact apart
  exact run addresses _ (by simp)

theorem primary_apart {meshIps ips : List String} (proper : "" ∉ meshIps) (apart : ∀ ip ∈ ips, ip ∉ meshIps) :
    ∀ ip ∈ meshIps, ip ∉ ips ∧ some (ips.head?.getD "") ≠ some ip := by
  intro ip owned
  refine ⟨fun inside => apart ip inside owned, fun primary => ?_⟩
  cases ips with
  | nil =>
      obtain rfl : "" = ip := Option.some.inj primary
      exact proper owned
  | cons first rest =>
      obtain rfl : first = ip := Option.some.inj primary
      exact apart first List.mem_cons_self owned

theorem resolveCandidate_addresses (proper : "" ∉ mesh.ips) {cmac : String} {group : List Candidate} {best c : Candidate}
    (resolved : resolveCandidate pairs src mesh.ips cmac group best = some c) :
    ∀ ip ∈ mesh.ips, ip ∉ c.ips ∧ c.ip ≠ some ip := by
  unfold resolveCandidate at resolved
  extract_lets at resolved
  split at resolved
  · cases resolved
  · obtain rfl := Option.some.inj resolved
    exact primary_apart proper gather_apart

theorem fallbackClient_addresses (proper : "" ∉ mesh.ips) {cmac : String} {nu : NatflowUser} {c : Candidate}
    (found : fallbackClient pairs src mesh.ips cmac nu = some c) : ∀ ip ∈ mesh.ips, ip ∉ c.ips ∧ c.ip ≠ some ip := by
  unfold fallbackClient at found
  extract_lets isVpn hint ownName hname gathered ip6List at found
  split at found
  · cases found
  · obtain rfl := Option.some.inj found
    exact primary_apart proper gather_apart

theorem hardware_upper (u : NatflowUser) : upper u.hardware = u.hardware := by
  unfold NatflowUser.hardware
  split
  · exact upper_upper _
  · rfl

theorem natflowUser_hardware {cmac : String} {nu : NatflowUser} (found : src.natflowUser cmac = some nu) :
    nu.hardware = cmac ∧ cmac ≠ "" := by
  unfold Sources.natflowUser at found
  have key := List.find?_some found
  rw [decide_eq_true_eq] at key
  have inside := List.mem_reverse.mp (List.mem_of_find?_eq_some found)
  rw [Sources.natflowList, List.mem_filter, decide_eq_true_eq] at inside
  exact ⟨key, key ▸ inside.2⟩

theorem vpnKey_cases (vu : NatflowUser) :
    vu.hardware ≠ "" ∧ vu.vpnKey = vu.hardware ∨ vu.hardware = "" ∧ "VPN:".toList <+: vu.vpnKey.toList := by
  unfold NatflowUser.vpnKey
  by_cases physical : vu.hardware = ""
  · rw [if_neg (not_not_intro physical), String.toList_append]
    exact Or.inr ⟨physical, List.prefix_append _ _⟩
  · rw [if_pos physical]
    exact Or.inl ⟨physical, rfl⟩

theorem vpnKey_ne_empty (vu : NatflowUser) : vu.vpnKey ≠ "" := by
  rcases vpnKey_cases vu with ⟨physical, key⟩ | ⟨-, start⟩
  · rw [key]
    exact physical
  · rintro empty
    simp [empty] at start

theorem vpnClient_addresses (proper : "" ∉ mesh.ips) {vu : NatflowUser} (foreign : ∀ ipStr ∈ vu.ip, ipStr ∉ mesh.ips) :
    ∀ ip ∈ mesh.ips, ip ∉ (vpnClient src vu).ips ∧ (vpnClient src vu).ip ≠ some ip := by
  refine primary_apart proper ?_
  intro ip inside
  simp only [vpnClient] at inside
  split_ifs at inside with lone
  · rw [List.mem_singleton.mp inside]
    cases addresses : vu.ip with
    | nil => simpa using proper
    | cons first rest => exact foreign first (by simp [addresses])
  · exact foreign ip (List.mem_of_mem_filter inside)

theorem Origin.admissible (proper : "" ∉ mesh.ips) {ids : List String} (controller : "ac" ∈ ids)
    (reported : ∀ c ∈ candidates, Reported ids c) {c : Candidate} (origin : Origin pairs src mesh candidates c) :
    Admissible src mesh ids c := by
  cases origin with
  | @candidate cmac group best c inside key unowned resolved =>
      obtain ⟨mac, node, -⟩ := resolveCandidate_keeps resolved
      have known := reported best inside
      refine ⟨?_, ?_, Or.inl ?_, resolveCandidate_addresses proper resolved⟩
      · rw [mac]
        exact known.named
      · rw [node]
        exact known.listed
      · rw [mac, known.upper, key]
        exact unowned
  | @fallback cmac nu c known unowned resolved =>
      obtain ⟨mac, node, -⟩ := fallbackClient_keeps resolved
      obtain ⟨key, named⟩ := natflowUser_hardware known
      refine ⟨?_, ?_, Or.inl ?_, fallbackClient_addresses proper resolved⟩
      · rw [mac]
        exact named
      · rw [node]
        exact controller
      · rw [mac, ← key, hardware_upper, key]
        exact unowned
  | @vpn vu known unowned foreign =>
      have mac : (vpnClient src vu).mac = vu.vpnKey := rfl
      refine ⟨?_, controller, ?_, vpnClient_addresses proper foreign⟩
      · rw [mac]
        exact vpnKey_ne_empty vu
      · rw [mac]
        rcases vpnKey_cases vu with ⟨-, key⟩ | ⟨virtual, -⟩
        · rw [key, hardware_upper]
          exact Or.inl unowned
        · exact Or.inr ⟨vu, known, virtual, rfl⟩

end Passes

end XWrt.Fakemesh
