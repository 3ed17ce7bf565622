import Mathlib.Tactic.IntervalCases
import XWrt.Fakemesh.GetTopology
import XWrt.Foundation.Value

/-!
# The validation of reports

`valid_node_report` and `valid_topology_report` of the rpcd script, on the
dynamic values that a response holds, and the tables of the topology as such
values. A table of typed fields passes the checks of its field types, so that
what decides are the MACs, the roles and the ids.
-/

namespace XWrt.Fakemesh

open XWrt.Foundation XWrt.Foundation.Text XWrt.Foundation.Value

/-! ## The validators -/

/-- `%x%x`, then `count` times `:%x%x`, then the end. -/
def isMacText : Nat → List Char → Bool
  | 0, [high, low] => isHexDigit high && isHexDigit low
  | count + 1, high :: low :: colon :: rest => isHexDigit high && isHexDigit low && colon == ':' && isMacText count rest
  | _, _ => false

/-- `valid_mac`, on a text. -/
def validMac (mac : String) : Bool := isMacText 5 mac.toList

/-- No value, or a text. -/
def isText : Option Value → Bool
  | none => true
  | some (.string _) => true
  | some _ => false

/-- No value, or a number that is neither infinite nor NaN. -/
def isFinite : Option Value → Bool
  | none => true
  | some (.number (.finite _)) => true
  | some _ => false

/-- `valid_fields`, with the words of its two lists. -/
def validFields (record : Value) (strings numbers : List String) : Bool :=
  record.isTable && (strings.all fun field => isText (record.get field)) && numbers.all fun field => isFinite (record.get field)

/-- `valid_array`. -/
def validArray (values : Option Value) (validate : Value → Bool) : Bool :=
  match values with
  | none => true
  | some (.table items fields) => fields.isEmpty && items.all validate
  | some _ => false

/-- No value, a boolean, 0 or 1. -/
def isFlag : Option Value → Bool
  | none => true
  | some (.boolean _) => true
  | some (.number (.finite flag)) => flag = 0 || flag = 1
  | some _ => false

/-- `string_value`. -/
def stringValue : Value → Bool
  | .string _ => true
  | _ => false

/-- `valid_client`. -/
def validClient (client : Value) : Bool :=
  validFields client
      ["mac", "node_id", "access_type", "ifname", "band", "ssid", "hostname", "ip", "port", "port_speed", "icon"]
      ["signal", "noise", "rate_rx", "rate_tx", "inactive_ms", "idle_time", "rx_speed", "tx_speed", "rx_bytes", "tx_bytes"] &&
    ((client.text "mac").any fun mac => mac ≠ "" && (client.text "access_type" = some "vpn" || validMac mac)) &&
    (["associated", "authorized"].all fun field => isFlag (client.get field)) &&
    validArray (client.get "ips") stringValue && validArray (client.get "ip6") stringValue

/-- The check of `upstream`, `backhaul` and `uplink`. -/
def validLink (link : Value) : Bool :=
  validFields link
    ["type", "name", "parent_mac", "parent_bssid", "gateway_ip", "gateway_mac", "ifname", "port", "port_speed", "speed", "ssid",
      "band", "proto", "wan_ip"]
    ["signal", "rx_bitrate", "tx_bitrate", "channel", "freq"]

/-- The check of an entry of `radios`. -/
def validRadio (radio : Value) : Bool := validFields radio ["ifname", "bssid", "ssid", "band"] ["freq", "channel"]

/-- The check of an entry of `wired_ports`. -/
def validPort (port : Value) : Bool := validFields port ["mac", "port", "speed"] [] && (port.text "mac").any validMac

/-- `valid_node_fields`. -/
def validNodeFields (node : Value) : Bool :=
  validFields node
      ["id", "role", "mac", "ip", "hostname", "model", "mesh_id", "band", "mesh_bssid", "parent_id", "parent_name",
        "parent_hostname", "parent_ip"]
      ["uptime", "hop_count"] &&
    (match node.get "online" with
      | none => true
      | some (.boolean _) => true
      | some _ => false) &&
    (["upstream", "backhaul", "uplink"].all fun field => (node.get field).all validLink) &&
    ((node.get "downstream").all fun downstream =>
      validFields downstream [] ["total_count", "wireless_count", "wired_count", "vpn_count"]) &&
    validArray (node.get "clients") validClient && validArray (node.get "radios") validRadio &&
    validArray (node.get "wired_ports") validPort

/-- `valid_node_report`, with an expected MAC. -/
def validNodeReport (report : Value) (meshId expectedMac : String) : Bool :=
  validNodeFields report && (report.text "mac").any validMac && report.text "mesh_id" = some meshId &&
    (expectedMac = "" || (report.text "mac").map upper = some (upper expectedMac))

/-- The callback for the nodes of a topology, with `seen` and `root`; nothing where it returns `false`. -/
def checkNode (state : List String × Bool) (node : Value) : Option (List String × Bool) :=
  match node.text "id" with
  | none => none
  | some id =>
      if ¬validNodeFields node ∨ id = "" ∨ id ∈ state.1 then none
      else if id = "ac" ∧ node.text "role" = some "controller" then some (id :: state.1, true)
      else if node.text "role" ≠ some "agent" ∧ node.text "role" ≠ some "wap" then none
      else some (id :: state.1, state.2)

/-- `valid_topology_report`. -/
def validTopologyReport (topology : Value) (meshId : String) : Bool :=
  validFields topology ["mesh_id", "controller_ip", "current_node_id"] ["timestamp"] && topology.text "mesh_id" = some meshId &&
    ((topology.get "summary").all fun summary =>
      validFields summary ["mesh_mode"]
        ["node_count", "online_agents", "offline_agents", "wireless_nodes", "wired_nodes", "client_count", "wifi_2g", "wifi_5g",
          "wifi_6g", "wired", "vpn", "total_rx_speed", "total_tx_speed", "max_hops"]) &&
    match topology.get "nodes", topology.get "clients" with
    | some (.table nodes fields), some clients =>
        clients.isTable && fields.isEmpty && ((nodes.foldlM checkNode ([], false)).any fun state => state.2) &&
          validArray (some clients) validClient
    | _, _ => false

/-! ## Tables as values -/

/-- A list of texts. -/
def textArray (texts : List String) : Value := array (texts.map .string)

def Link.value (link : Link) : Value :=
  record
    [("type", link.type), ("name", link.name), ("parent_mac", link.parentMac), ("parent_bssid", link.parentBssid),
      ("gateway_ip", link.gatewayIp), ("gateway_mac", link.gatewayMac), ("ifname", link.ifname), ("port", link.port),
      ("port_speed", link.portSpeed), ("speed", link.speed), ("ssid", link.ssid), ("band", link.band), ("proto", link.proto),
      ("wan_ip", link.wanIp)]
    [("signal", link.signal), ("rx_bitrate", link.rxBitrate), ("tx_bitrate", link.txBitrate), ("channel", link.channel),
      ("freq", link.freq)]
    []

def Radio.value (radio : Radio) : Value :=
  record [("ifname", radio.ifname), ("bssid", radio.bssid), ("ssid", radio.ssid), ("band", radio.band)]
    [("freq", radio.freq), ("channel", radio.channel)] []

def WiredPort.value (wp : WiredPort) : Value := record [("mac", wp.mac), ("port", wp.port), ("speed", wp.speed)] [] []

def Candidate.value (c : Candidate) : Value :=
  record
    [("mac", some c.mac), ("node_id", some c.nodeId), ("access_type", c.accessType), ("ifname", c.ifname), ("band", c.band),
      ("ssid", c.ssid), ("hostname", c.hostname), ("ip", c.ip), ("port", c.port), ("port_speed", c.portSpeed), ("icon", c.icon)]
    [("signal", c.signal), ("noise", c.noise), ("rate_rx", c.rateRx), ("rate_tx", c.rateTx), ("inactive_ms", c.inactiveMs),
      ("idle_time", c.idleTime), ("rx_speed", c.rxSpeed), ("tx_speed", c.txSpeed), ("rx_bytes", c.rxBytes),
      ("tx_bytes", c.txBytes)]
    [("ips", some (textArray c.ips)), ("ip6", some (textArray c.ip6)), ("associated", c.associated.map .boolean),
      ("authorized", c.authorized.map .boolean)]

def Counts.value (st : Counts) : Value :=
  record []
    [("total_count", some (st.total : ℚ)), ("wireless_count", some (st.wireless : ℚ)), ("wired_count", some (st.wired : ℚ)),
      ("vpn_count", some (st.vpn : ℚ))]
    []

def MeshNode.value (n : MeshNode) : Value :=
  record
    [("id", some n.id), ("role", n.role), ("mac", n.mac), ("ip", n.ip), ("hostname", n.hostname), ("model", n.model),
      ("mesh_id", n.meshId), ("band", n.band), ("mesh_bssid", n.meshBssid), ("parent_id", n.parentId),
      ("parent_name", n.parentName), ("parent_hostname", n.parentHostname), ("parent_ip", n.parentIp)]
    [("uptime", n.uptime), ("hop_count", some (n.hopCount : ℚ))]
    [("online", some (.boolean n.online)), ("upstream", n.upstream.map Link.value), ("backhaul", n.backhaul.map Link.value),
      ("uplink", n.uplink.map Link.value), ("downstream", n.downstream.map Counts.value),
      ("radios", some (array (n.radios.map Radio.value))), ("wired_ports", some (array (n.wiredPorts.map WiredPort.value)))]

def Summary.value (summary : Summary) : Value :=
  record [("mesh_mode", some summary.meshMode)]
    [("node_count", some (summary.nodeCount : ℚ)), ("online_agents", some (summary.onlineAgents : ℚ)),
      ("offline_agents", some (summary.offlineAgents : ℚ)), ("wireless_nodes", some (summary.wirelessNodes : ℚ)),
      ("wired_nodes", some (summary.wiredNodes : ℚ)), ("client_count", some (summary.clientCount : ℚ)),
      ("wifi_2g", some (summary.wifi2g : ℚ)), ("wifi_5g", some (summary.wifi5g : ℚ)), ("wifi_6g", some (summary.wifi6g : ℚ)),
      ("wired", some (summary.wired : ℚ)), ("vpn", some (summary.vpn : ℚ)), ("total_rx_speed", some summary.totalRxSpeed),
      ("total_tx_speed", some summary.totalTxSpeed), ("max_hops", some (summary.maxHops : ℚ))]
    []

/-- The answer of `get_topology`. -/
def Topology.value (t : Topology) : Value :=
  record [("mesh_id", t.meshId), ("controller_ip", t.controllerIp), ("current_node_id", some t.currentNodeId)]
    [("timestamp", some t.timestamp)]
    [("nodes", some (array (t.nodes.map MeshNode.value))), ("clients", some (array (t.clients.map Candidate.value))),
      ("summary", some t.summary.value)]

/-! ## Values as tables -/

/-- The entries of an array, each read on its own. -/
def entries {α : Type} (value : Value) (name : String) (read : Value → α) : List α :=
  ((value.get name).map Value.items).getD [] |>.map read

/-- `flag_set`. -/
def flagSet : Value → Bool
  | .boolean flag => flag
  | .number (.finite flag) => flag = 1
  | _ => false

def Link.ofValue (value : Value) : Link where
  type := value.text "type"
  ifname := value.text "ifname"
  port := value.text "port"
  name := value.text "name"
  parentMac := value.text "parent_mac"
  parentBssid := value.text "parent_bssid"
  gatewayIp := value.text "gateway_ip"
  gatewayMac := value.text "gateway_mac"
  portSpeed := value.text "port_speed"
  speed := value.text "speed"
  ssid := value.text "ssid"
  band := value.text "band"
  proto := value.text "proto"
  wanIp := value.text "wan_ip"
  signal := value.rational "signal"
  rxBitrate := value.rational "rx_bitrate"
  txBitrate := value.rational "tx_bitrate"
  channel := value.rational "channel"
  freq := value.rational "freq"

def Radio.ofValue (value : Value) : Radio where
  ifname := value.text "ifname"
  bssid := value.text "bssid"
  ssid := value.text "ssid"
  band := value.text "band"
  freq := value.rational "freq"
  channel := value.rational "channel"

def WiredPort.ofValue (value : Value) : WiredPort := ⟨value.text "mac", value.text "port", value.text "speed"⟩

/-- The texts of a list. -/
def texts (value : Value) (name : String) : List String :=
  (entries value name id).filterMap fun
    | .string content => some content
    | _ => none

def Candidate.ofValue (value : Value) : Candidate where
  mac := (value.text "mac").getD ""
  nodeId := (value.text "node_id").getD ""
  accessType := value.text "access_type"
  ifname := value.text "ifname"
  port := value.text "port"
  band := value.text "band"
  ssid := value.text "ssid"
  hostname := value.text "hostname"
  ip := value.text "ip"
  portSpeed := value.text "port_speed"
  icon := value.text "icon"
  ips := texts value "ips"
  ip6 := texts value "ip6"
  associated := (value.get "associated").map flagSet
  authorized := (value.get "authorized").map flagSet
  signal := value.rational "signal"
  noise := value.rational "noise"
  rateRx := value.rational "rate_rx"
  rateTx := value.rational "rate_tx"
  inactiveMs := value.rational "inactive_ms"
  idleTime := value.rational "idle_time"
  rxSpeed := value.rational "rx_speed"
  txSpeed := value.rational "tx_speed"
  rxBytes := value.rational "rx_bytes"
  txBytes := value.rational "tx_bytes"

/-- A report that has been accepted. -/
def NodeReport.ofValue (value : Value) : NodeReport where
  role := value.text "role"
  mac := value.text "mac"
  ip := value.text "ip"
  hostname := value.text "hostname"
  model := value.text "model"
  meshId := value.text "mesh_id"
  band := value.text "band"
  meshBssid := value.text "mesh_bssid"
  uptime := value.rational "uptime"
  upstream := (value.get "upstream").map Link.ofValue
  backhaul := (value.get "backhaul").map Link.ofValue
  radios := entries value "radios" Radio.ofValue
  wiredPorts := entries value "wired_ports" WiredPort.ofValue
  clients := entries value "clients" Candidate.ofValue

/-! ## Typed tables -/

/-- A record passes the check of its field types. -/
theorem validFields_record {texts : List (String × Option String)} {numbers : List (String × Option ℚ)}
    {others : List (String × Option Value)} {strings amounts : List String}
    (text : ∀ name ∈ strings, name ∉ numbers.map Prod.fst ∧ name ∉ others.map Prod.fst)
    (number : ∀ name ∈ amounts, name ∉ texts.map Prod.fst ∧ name ∉ others.map Prod.fst) :
    validFields (record texts numbers others) strings amounts = true := by
  have strings' : (strings.all fun field => isText ((record texts numbers others).get field)) = true := by
    rw [List.all_eq_true]
    intro name listed
    obtain ⟨notNumber, notOther⟩ := text name listed
    cases found : (record texts numbers others).get name with
    | none => rfl
    | some value =>
        rcases get_record_eq_some found with ⟨-, content, rfl⟩ | ⟨isNumber, -⟩ | isOther
        · rfl
        · exact absurd isNumber notNumber
        · exact absurd isOther notOther
  have amounts' : (amounts.all fun field => isFinite ((record texts numbers others).get field)) = true := by
    rw [List.all_eq_true]
    intro name listed
    obtain ⟨notText, notOther⟩ := number name listed
    cases found : (record texts numbers others).get name with
    | none => rfl
    | some value =>
        rcases get_record_eq_some found with ⟨isString, -⟩ | ⟨-, amount, rfl⟩ | isOther
        · exact absurd isString notText
        · rfl
        · exact absurd isOther notOther
  rw [validFields, strings', amounts']
  rfl

/-- An array is valid when its items are. -/
theorem validArray_array {α : Type} (items : List α) (wrap : α → Value) (validate : Value → Bool) :
    validArray (some (array (items.map wrap))) validate = items.all fun item => validate (wrap item) :=
  List.all_map

theorem valid_textArray (texts : List String) : validArray (some (textArray texts)) stringValue = true :=
  (validArray_array texts .string stringValue).trans (List.all_eq_true.mpr fun _ _ => rfl)

theorem Link.valid (link : Link) : validLink link.value = true := validFields_record (by simp) (by simp)

theorem Radio.valid (radio : Radio) : validRadio radio.value = true := validFields_record (by simp) (by simp)

theorem WiredPort.valid_iff (wp : WiredPort) : validPort wp.value = true ↔ wp.mac.any validMac = true := by
  have fields : validFields wp.value ["mac", "port", "speed"] [] = true := validFields_record (by simp) (by simp)
  have mac : wp.value.text "mac" = wp.mac := text_record (by simp) (by simp) (by simp) (by simp)
  rw [validPort, fields, mac, Bool.true_and]

theorem Candidate.valid_iff (c : Candidate) :
    validClient c.value = true ↔ c.mac ≠ "" ∧ (c.accessType = some "vpn" ∨ validMac c.mac = true) := by
  have fields : validFields c.value
      ["mac", "node_id", "access_type", "ifname", "band", "ssid", "hostname", "ip", "port", "port_speed", "icon"]
      ["signal", "noise", "rate_rx", "rate_tx", "inactive_ms", "idle_time", "rx_speed", "tx_speed", "rx_bytes", "tx_bytes"] =
        true := validFields_record (by simp) (by simp)
  have mac : c.value.text "mac" = some c.mac := text_record (by simp) (by simp) (by simp) (by simp)
  have accessType : c.value.text "access_type" = c.accessType := text_record (by simp) (by simp) (by simp) (by simp)
  have associated : c.value.get "associated" = c.associated.map .boolean := get_record_other (by simp) (by simp) (by simp) (by simp)
  have authorized : c.value.get "authorized" = c.authorized.map .boolean := get_record_other (by simp) (by simp) (by simp) (by simp)
  have ips : c.value.get "ips" = some (textArray c.ips) := get_record_other (by simp) (by simp) (by simp) (by simp)
  have ip6 : c.value.get "ip6" = some (textArray c.ip6) := get_record_other (by simp) (by simp) (by simp) (by simp)
  have flag : ∀ flag : Option Bool, isFlag (flag.map .boolean) = true := by rintro (_ | _) <;> rfl
  rw [validClient, fields, mac, accessType, ips, ip6, valid_textArray, valid_textArray]
  simp [associated, authorized, flag]

theorem Counts.valid (st : Counts) :
    validFields st.value [] ["total_count", "wireless_count", "wired_count", "vpn_count"] = true :=
  validFields_record (by simp) (by simp)

theorem Summary.valid (summary : Summary) :
    validFields summary.value ["mesh_mode"]
      ["node_count", "online_agents", "offline_agents", "wireless_nodes", "wired_nodes", "client_count", "wifi_2g", "wifi_5g",
        "wifi_6g", "wired", "vpn", "total_rx_speed", "total_tx_speed", "max_hops"] = true :=
  validFields_record (by simp) (by simp)

/-- The fields of a node are valid when its ports name MACs. -/
theorem MeshNode.valid_iff (n : MeshNode) :
    validNodeFields n.value = true ↔ ∀ wp ∈ n.wiredPorts, wp.mac.any validMac = true := by
  have fields : validFields n.value
      ["id", "role", "mac", "ip", "hostname", "model", "mesh_id", "band", "mesh_bssid", "parent_id", "parent_name",
        "parent_hostname", "parent_ip"] ["uptime", "hop_count"] = true := validFields_record (by simp) (by simp)
  have online : n.value.get "online" = some (.boolean n.online) := get_record_other (by simp) (by simp) (by simp) (by simp)
  have upstream : n.value.get "upstream" = n.upstream.map Link.value := get_record_other (by simp) (by simp) (by simp) (by simp)
  have backhaul : n.value.get "backhaul" = n.backhaul.map Link.value := get_record_other (by simp) (by simp) (by simp) (by simp)
  have uplink : n.value.get "uplink" = n.uplink.map Link.value := get_record_other (by simp) (by simp) (by simp) (by simp)
  have downstream : n.value.get "downstream" = n.downstream.map Counts.value :=
    get_record_other (by simp) (by simp) (by simp) (by simp)
  have clients : n.value.get "clients" = none := get_record_none (by simp) (by simp) (by simp)
  have radios : n.value.get "radios" = some (array (n.radios.map Radio.value)) :=
    get_record_other (by simp) (by simp) (by simp) (by simp)
  have ports : n.value.get "wired_ports" = some (array (n.wiredPorts.map WiredPort.value)) :=
    get_record_other (by simp) (by simp) (by simp) (by simp)
  have link : ∀ link : Option Link, (link.map Link.value).all validLink = true := by
    rintro (_ | link)
    · rfl
    · exact link.valid
  have counts : (n.downstream.map Counts.value).all
      (fun downstream => validFields downstream [] ["total_count", "wireless_count", "wired_count", "vpn_count"]) = true := by
    cases n.downstream with
    | none => rfl
    | some st => exact st.valid
  rw [validNodeFields, fields, online, downstream, counts, clients, radios, ports, validArray_array, validArray_array]
  simp [upstream, backhaul, uplink, link, validArray, Radio.valid, WiredPort.valid_iff]

/-! ## Valid topologies -/

/-- The controller's node. -/
def MeshNode.isRoot (n : MeshNode) : Bool := n.id = "ac" && n.role = some "controller"

/-- What a topology may list, apart from the ids of the other nodes. -/
structure MeshNode.Listable (n : MeshNode) : Prop where
  ports : ∀ wp ∈ n.wiredPorts, wp.mac.any validMac = true
  named : n.id ≠ ""
  role : n.isRoot = true ∨ n.role = some "agent" ∨ n.role = some "wap"

theorem checkNode_eq_some (n : MeshNode) (seen : List String) (root : Bool) (state : List String × Bool) :
    checkNode (seen, root) n.value = some state ↔ n.Listable ∧ n.id ∉ seen ∧ state = (n.id :: seen, root || n.isRoot) := by
  have id : n.value.text "id" = some n.id := text_record (by simp) (by simp) (by simp) (by simp)
  have role : n.value.text "role" = n.role := text_record (by simp) (by simp) (by simp) (by simp)
  have listable : n.Listable ↔ validNodeFields n.value = true ∧ n.id ≠ "" ∧
      (n.isRoot = true ∨ n.role = some "agent" ∨ n.role = some "wap") := by
    rw [n.valid_iff]
    exact ⟨fun listable => ⟨listable.ports, listable.named, listable.role⟩, fun parts => ⟨parts.1, parts.2.1, parts.2.2⟩⟩
  have turn : checkNode (seen, root) n.value =
      if ¬validNodeFields n.value ∨ n.id = "" ∨ n.id ∈ seen then none
      else if n.id = "ac" ∧ n.role = some "controller" then some (n.id :: seen, true)
      else if n.role ≠ some "agent" ∧ n.role ≠ some "wap" then none
      else some (n.id :: seen, root) := by
    rw [checkNode, id, role]
  rw [listable, turn]
  by_cases refused : ¬validNodeFields n.value ∨ n.id = "" ∨ n.id ∈ seen
  · rw [if_pos refused]
    refine iff_of_false (by simp) ?_
    rintro ⟨⟨fields, named, -⟩, fresh, -⟩
    rcases refused with invalid | unnamed | repeated
    · exact invalid fields
    · exact named unnamed
    · exact fresh repeated
  · have accepted := refused
    rw [not_or, not_not, not_or] at accepted
    rw [if_neg refused]
    by_cases controller : n.id = "ac" ∧ n.role = some "controller"
    · have isRoot : n.isRoot = true := by simp [MeshNode.isRoot, controller]
      rw [if_pos controller, isRoot, Bool.or_true]
      simp [accepted, eq_comm]
    · have notRoot : n.isRoot = false := by simpa [MeshNode.isRoot] using controller
      rw [if_neg controller, notRoot, Bool.or_false]
      by_cases other : n.role ≠ some "agent" ∧ n.role ≠ some "wap"
      · simp [other]
      · have agent : n.role = some "agent" ∨ n.role = some "wap" := by
          rw [not_and_or, not_not, not_not] at other
          exact other
        rw [if_neg other]
        simp [accepted, agent, eq_comm]

theorem checkNodes_eq_some (nodes : List MeshNode) (seen : List String) (root : Bool) (state : List String × Bool) :
    (nodes.map MeshNode.value).foldlM checkNode (seen, root) = some state ↔
      (∀ n ∈ nodes, n.Listable ∧ n.id ∉ seen) ∧ (nodes.map MeshNode.id).Nodup ∧
        state = ((nodes.map MeshNode.id).reverse ++ seen, root || nodes.any MeshNode.isRoot) := by
  induction nodes generalizing seen root with
  | nil => simp [eq_comm]
  | cons n rest ih =>
      rw [List.map_cons, List.foldlM_cons, Option.bind_eq_bind, Option.bind_eq_some_iff]
      constructor
      · rintro ⟨next, turn, others⟩
        obtain ⟨listable, fresh, rfl⟩ := (checkNode_eq_some n seen root next).mp turn
        obtain ⟨listables, distinct, rfl⟩ := (ih _ _).mp others
        refine ⟨?_, ?_, ?_⟩
        · rw [List.forall_mem_cons]
          exact ⟨⟨listable, fresh⟩, fun m later => ⟨(listables m later).1, fun old => (listables m later).2 (List.mem_cons_of_mem _ old)⟩⟩
        · rw [List.map_cons, List.nodup_cons]
          refine ⟨fun again => ?_, distinct⟩
          obtain ⟨m, later, same⟩ := List.mem_map.mp again
          exact (listables m later).2 (same ▸ List.mem_cons_self)
        · simp [Bool.or_assoc]
      · rintro ⟨listables, distinct, rfl⟩
        rw [List.forall_mem_cons] at listables
        rw [List.map_cons, List.nodup_cons] at distinct
        refine ⟨_, (checkNode_eq_some n seen root _).mpr ⟨listables.1.1, listables.1.2, rfl⟩, (ih _ _).mpr ⟨?_, distinct.2, ?_⟩⟩
        · intro m later
          refine ⟨(listables.2 m later).1, fun old => ?_⟩
          rcases List.mem_cons.mp old with same | old
          · exact distinct.1 (same ▸ List.mem_map_of_mem later)
          · exact (listables.2 m later).2 old
        · simp [Bool.or_assoc]

/-- What an agent accepts as the topology of its mesh. -/
structure Topology.Acceptable (t : Topology) (meshId : String) : Prop where
  mesh : t.meshId = some meshId
  nodes : ∀ n ∈ t.nodes, n.Listable
  distinct : (t.nodes.map MeshNode.id).Nodup
  root : ∃ n ∈ t.nodes, n.isRoot = true
  clients : ∀ c ∈ t.clients, c.mac ≠ "" ∧ (c.accessType = some "vpn" ∨ validMac c.mac = true)

theorem validTopologyReport_iff (t : Topology) (meshId : String) :
    validTopologyReport t.value meshId = true ↔ t.Acceptable meshId := by
  have fields : validFields t.value ["mesh_id", "controller_ip", "current_node_id"] ["timestamp"] = true :=
    validFields_record (by simp) (by simp)
  have mesh : t.value.text "mesh_id" = t.meshId := text_record (by simp) (by simp) (by simp) (by simp)
  have summary : t.value.get "summary" = some t.summary.value := get_record_other (by simp) (by simp) (by simp) (by simp)
  have nodes : t.value.get "nodes" = some (array (t.nodes.map MeshNode.value)) :=
    get_record_other (by simp) (by simp) (by simp) (by simp)
  have clients : t.value.get "clients" = some (array (t.clients.map Candidate.value)) :=
    get_record_other (by simp) (by simp) (by simp) (by simp)
  have checked : (((t.nodes.map MeshNode.value).foldlM checkNode ([], false)).any fun state => state.2) = true ↔
      (∀ n ∈ t.nodes, n.Listable) ∧ (t.nodes.map MeshNode.id).Nodup ∧ ∃ n ∈ t.nodes, n.isRoot = true := by
    simp [Option.any_eq_true, checkNodes_eq_some]
  have listed : validArray (some (array (t.clients.map Candidate.value))) validClient = true ↔
      ∀ c ∈ t.clients, c.mac ≠ "" ∧ (c.accessType = some "vpn" ∨ validMac c.mac = true) := by
    rw [validArray_array, List.all_eq_true]
    exact forall₂_congr fun c _ => c.valid_iff
  rw [validTopologyReport, fields, mesh, summary, nodes, clients, Option.all_some, t.summary.valid, Bool.true_and, Bool.and_true,
    Bool.and_eq_true, decide_eq_true_eq]
  constructor
  · rintro ⟨mesh, rest⟩
    have rest : ((((t.nodes.map MeshNode.value).foldlM checkNode ([], false)).any fun state => state.2) &&
        validArray (some (array (t.clients.map Candidate.value))) validClient) = true := rest
    rw [Bool.and_eq_true, checked, listed] at rest
    obtain ⟨⟨nodes, distinct, root⟩, clients⟩ := rest
    exact ⟨mesh, nodes, distinct, root, clients⟩
  · rintro ⟨mesh, nodes, distinct, root, clients⟩
    have rest := (Bool.and_eq_true _ _).mpr ⟨checked.mpr ⟨nodes, distinct, root⟩, listed.mpr clients⟩
    exact ⟨mesh, rest⟩

/-! ## Accepted reports -/

/-- The MACs of the ports and of the clients other than VPN users are well formed. -/
structure NodeReport.ValidMacs (report : NodeReport) : Prop where
  ports : ∀ wp ∈ report.wiredPorts, wp.mac.any validMac = true
  clients : ∀ c ∈ report.clients, c.mac ≠ "" ∧ (c.accessType = some "vpn" ∨ validMac c.mac = true)

theorem mem_entries {α : Type} {value : Value} {name : String} {read : Value → α} {validate : Value → Bool}
    (valid : validArray (value.get name) validate = true) {entry : α} (listed : entry ∈ entries value name read) :
    ∃ item, validate item = true ∧ read item = entry := by
  obtain ⟨item, inside, same⟩ := List.mem_map.mp listed
  refine ⟨item, ?_, same⟩
  cases found : value.get name with
  | none => simp [found] at inside
  | some values =>
      rw [found] at valid inside
      cases values with
      | table items fields =>
          have all := ((Bool.and_eq_true _ _).mp valid).2
          exact List.all_eq_true.mp all item inside
      | boolean _ => simp [Value.items] at inside
      | number _ => simp [Value.items] at inside
      | string _ => simp [Value.items] at inside

/-- An accepted report has well-formed MACs. -/
theorem validNodeReport_macs {value : Value} {meshId expectedMac : String}
    (accepted : validNodeReport value meshId expectedMac = true) : (NodeReport.ofValue value).ValidMacs := by
  simp only [validNodeReport, validNodeFields, Bool.and_eq_true] at accepted
  obtain ⟨⟨⟨⟨⟨⟨-, clients⟩, -⟩, ports⟩, -⟩, -⟩, -⟩ := accepted
  constructor
  · intro wp listed
    obtain ⟨item, valid, rfl⟩ := mem_entries ports listed
    exact ((Bool.and_eq_true _ _).mp valid).2
  · intro c listed
    obtain ⟨item, valid, rfl⟩ := mem_entries clients listed
    simp only [validClient, Bool.and_eq_true] at valid
    obtain ⟨⟨⟨⟨-, key⟩, -⟩, -⟩, -⟩ := valid
    obtain ⟨mac, named, rest⟩ := (Option.any_eq_true _ _).mp key
    simpa [Candidate.ofValue, named] using rest

theorem mem_hexDigits {char : Char} (digit : isHexDigit char = true) : char ∈ "0123456789abcdefABCDEF".toList := by
  simp only [isHexDigit, Char.isDigit, Bool.or_eq_true, Bool.and_eq_true, decide_eq_true_eq, ge_iff_le, Char.le_def,
    UInt32.le_iff_toNat_le] at digit
  have numbers : (48 ≤ char.toNat ∧ char.toNat ≤ 57) ∨ (97 ≤ char.toNat ∧ char.toNat ≤ 102) ∨
      (65 ≤ char.toNat ∧ char.toNat ≤ 70) := or_assoc.mp digit
  rw [← Char.ofNat_toNat char]
  generalize char.toNat = code at numbers
  rcases numbers with ⟨low, high⟩ | ⟨low, high⟩ | ⟨low, high⟩
  · interval_cases code <;> decide
  · interval_cases code <;> decide
  · interval_cases code <;> decide

theorem isHexDigit_toUpper {char : Char} (digit : isHexDigit char = true) : isHexDigit char.toUpper = true := by
  have all : "0123456789abcdefABCDEF".toList.all (fun char => isHexDigit char.toUpper) = true := by decide
  exact List.all_eq_true.mp all char (mem_hexDigits digit)

theorem isMacText_toUpper {count : Nat} {text : List Char} (mac : isMacText count text = true) :
    isMacText count (text.map Char.toUpper) = true := by
  fun_induction isMacText count text with
  | case1 high low =>
      rw [Bool.and_eq_true] at mac
      simp [isMacText, isHexDigit_toUpper mac.1, isHexDigit_toUpper mac.2]
  | case2 count high low colon rest ih =>
      simp only [Bool.and_eq_true, beq_iff_eq] at mac
      obtain ⟨⟨⟨first, second⟩, rfl⟩, later⟩ := mac
      simp only [List.map_cons, isMacText, isHexDigit_toUpper first, isHexDigit_toUpper second, ih later]
      decide
  | case3 => cases mac

theorem validMac_upper {mac : String} (valid : validMac mac = true) : validMac (upper mac) = true := by
  rw [validMac, toList_upper]
  exact isMacText_toUpper valid

end XWrt.Fakemesh
