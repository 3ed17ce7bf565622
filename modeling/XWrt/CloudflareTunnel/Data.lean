import Mathlib.Data.List.AList
import Mathlib.Data.List.Infix
import Mathlib.Data.List.Perm.Basic
import Mathlib.Tactic.SplitIfs

/-!
# Data of the Cloudflare Tunnel plugin

What `core.lua` reads and writes: the Cloudflare objects it is answered with,
the state it saves between runs, its settings, and the errors it raises. The
last part is the account on the server and what each request does to it.
-/

namespace XWrt.CloudflareTunnel

/-- The API scopes of `runtime.lua`. -/
inductive Scope
  | zone
  | dns
  | tunnel
  deriving DecidableEq, Repr

/-- The error codes of `core.lua` and of the functions `runtime.lua` hands it. -/
inductive Code
  | settings
  | token
  | hostname
  | zone
  | certificate
  | conflict
  | api
  | network
  | permission (scope : Scope)
  | rateLimit
  | storage
  | process
  | service
  | password
  | origin
  deriving DecidableEq, Repr

/-- The table raised by `fail(code, message)`. -/
structure Failure where
  code : Code
  message : String
  deriving DecidableEq, Repr

/-- An error raised outside `core.lua`; only `core.lua` reports conflicts. -/
structure Outage extends Failure where
  not_conflict : code ≠ .conflict

theorem network_ne_conflict : Code.network ≠ .conflict := by decide

structure Zone where
  id : String
  name : String
  status : String
  /-- `zone.account.id`, where the zone has an account with a string id -/
  account : Option String
  deriving DecidableEq, Repr

/-- An ingress rule; `others` are the fields the plugin only copies. -/
structure Rule where
  hostname : Option String
  service : Option String
  path : Option String := none
  noTLSVerify : Option Bool := none
  others : List (String × String) := []
  deriving DecidableEq, Repr

/-- A tunnel configuration; `others` are the fields the plugin only copies. -/
structure Config where
  ingress : List Rule
  others : List (String × String) := []
  deriving DecidableEq, Repr

structure Tunnel where
  id : String
  accountId : String
  name : String
  remoteConfig : Option Bool
  configSrc : Option String
  config : Config
  deriving DecidableEq, Repr

structure DnsRecord where
  id : String
  zoneId : String
  type : String
  name : String
  content : String
  proxied : Bool
  ttl : ℕ
  comment : String
  deriving DecidableEq, Repr

/-! ## The saved state -/

/-- An entry of `state.tunnels`, kept under the account's id. -/
structure SavedTunnel where
  id : Option String
  name : String
  pending : Bool
  deriving DecidableEq, Repr

/-- An entry of `state.dns`, kept under `dnsKey zoneId hostname`. -/
structure SavedDns where
  id : Option String
  zoneId : String
  hostname : String
  tunnelId : String
  owned : Bool
  pending : Bool
  deriving DecidableEq, Repr

/-- `state.active` -/
structure Active where
  accountId : String
  zoneId : String
  tunnelId : String
  hostname : String
  dnsId : String
  origin : String
  deriving DecidableEq, Repr

structure SavedState where
  tunnels : AList fun _ : String => SavedTunnel
  dns : AList fun _ : String => SavedDns
  active : Option Active
  httpsOk : Bool
  dnsCachePending : Bool
  checkedAt : ℕ
  deriving DecidableEq

/-- The state before the first run. -/
def SavedState.empty : SavedState :=
  { tunnels := ∅, dns := ∅, active := none, httpsOk := false, dnsCachePending := false, checkedAt := 0 }

/-- `local key = zid .. "/" .. hostname` -/
def dnsKey (zoneId hostname : String) : String := zoneId ++ "/" ++ hostname

/-- The name a tunnel is reached under, `tunnel.id .. ".cfargotunnel.com"`. -/
def target (tunnelId : String) : String := tunnelId ++ ".cfargotunnel.com"

structure Settings where
  hostname : String
  apiToken : String
  deriving DecidableEq, Repr

/-- What `ctx.verify` reports. -/
structure Check where
  connected : Bool
  httpsOk : Bool
  dnsCachePending : Bool
  deriving DecidableEq, Repr

/-- What `deploy` returns. -/
structure Deployment where
  hostname : String
  tunnelId : String
  httpsOk : Bool
  connected : Bool
  dnsCachePending : Bool
  warnings : List String
  deriving DecidableEq, Repr

/-! ## Lua patterns -/

/-- `%x` -/
def isHex (c : Char) : Bool :=
  ('0' ≤ c ∧ c ≤ '9') ∨ ('a' ≤ c ∧ c ≤ 'f') ∨ ('A' ≤ c ∧ c ≤ 'F')

/-- A pattern in which `x` stands for a hexadecimal digit and any other character for itself. -/
def matchesHex : List Char → List Char → Bool
  | [], [] => true
  | 'x' :: pattern, c :: value => isHex c && matchesHex pattern value
  | p :: pattern, c :: value => p == c && matchesHex pattern value
  | _, _ => false

/-- `local function id(value)` -/
def isId (value : String) : Bool := value.toList.length == 32 && value.toList.all isHex

/-- `local function uuid(value)` -/
def isUuid (value : String) : Bool :=
  matchesHex "xxxxxxxx-xxxx-xxxx-xxxx-xxxxxxxxxxxx".toList value.toList

/-- `[A-Za-z0-9_+/=%-]` -/
def isTokenChar (c : Char) : Bool :=
  c.isAlphanum || c == '_' || c == '+' || c == '/' || c == '=' || c == '-'

/-- The check on a connector token. -/
def isConnectorToken (value : String) : Bool :=
  !value.toList.isEmpty && value.toList.length ≤ 4096 && value.toList.all isTokenChar

/-! ## The server -/

/-- A request of `core.lua`: its method, the parts of its path, and its body. -/
inductive Request
  | getZones (name : String)
  | getRecords (zoneId hostname : String)
  | getTunnels (accountId name : String)
  | postTunnel (accountId name configSrc : String)
  | getConfig (accountId tunnelId : String)
  | getToken (accountId tunnelId : String)
  | postRecord (zoneId type name content : String) (proxied : Bool) (ttl : ℕ) (comment : String)
  | patchRecord (zoneId recordId : String) (proxied : Bool)
  | putConfig (accountId tunnelId : String) (config : Config)
  | getRecord (zoneId recordId : String)
  | deleteRecord (zoneId recordId : String)
  deriving DecidableEq, Repr

inductive Method
  | get
  | post
  | put
  | patch
  | delete
  deriving DecidableEq, Repr

def Request.method : Request → Method
  | .getZones .. | .getRecords .. | .getTunnels .. | .getConfig .. | .getToken .. | .getRecord .. => .get
  | .postTunnel .. | .postRecord .. => .post
  | .putConfig .. => .put
  | .patchRecord .. => .patch
  | .deleteRecord .. => .delete

/-- The reply to the creation of a tunnel, which may carry its connector token. -/
structure NewTunnel where
  tunnel : Tunnel
  token : Option String
  deriving DecidableEq, Repr

/-- The type of the result a request is answered with. -/
abbrev Request.Answer : Request → Type
  | .getZones .. => List Zone
  | .getRecords .. => List DnsRecord
  | .getTunnels .. => List Tunnel
  | .postTunnel .. => NewTunnel
  | .getConfig .. => Config
  | .getToken .. => String
  | .postRecord .. | .patchRecord .. | .getRecord .. => DnsRecord
  | .putConfig .. | .deleteRecord .. => Unit

/-- What does not change at Cloudflare: the zones the token reads, and the ids and
tokens given out, numbered by the objects created before. -/
structure Cloud where
  zones : List Zone
  tunnelId : ℕ → String
  recordId : ℕ → String
  issuedToken : ℕ → Option String
  connectorToken : String → String

/-- The tunnels and records at Cloudflare, and how many were created. -/
structure Remote where
  tunnels : List Tunnel
  records : List DnsRecord
  created : ℕ
  deriving DecidableEq, Repr

/-- The tunnel after the configuration of a tunnel, which may be this one. -/
def Tunnel.configured (accountId tunnelId : String) (config : Config) (tunnel : Tunnel) : Tunnel :=
  if tunnel.accountId = accountId ∧ tunnel.id = tunnelId then { tunnel with config := config } else tunnel

section Configured

variable (accountId tunnelId : String) (config : Config) (tunnel : Tunnel)

@[simp]
theorem Tunnel.configured_id : (tunnel.configured accountId tunnelId config).id = tunnel.id := by
  unfold configured
  split_ifs <;> rfl

@[simp]
theorem Tunnel.configured_accountId : (tunnel.configured accountId tunnelId config).accountId = tunnel.accountId := by
  unfold configured
  split_ifs <;> rfl

@[simp]
theorem Tunnel.configured_name : (tunnel.configured accountId tunnelId config).name = tunnel.name := by
  unfold configured
  split_ifs <;> rfl

end Configured

def Cloud.zonesNamed (cloud : Cloud) (name : String) : List Zone :=
  (cloud.zones.filter fun zone => zone.name = name).take 50

namespace Remote

def recordsNamed (remote : Remote) (zoneId hostname : String) : List DnsRecord :=
  remote.records.filter fun record => record.zoneId = zoneId ∧ record.name = hostname

def tunnelsNamed (remote : Remote) (accountId name : String) : List Tunnel :=
  remote.tunnels.filter fun tunnel => tunnel.accountId = accountId ∧ tunnel.name = name

def tunnel? (remote : Remote) (accountId tunnelId : String) : Option Tunnel :=
  remote.tunnels.find? fun tunnel => tunnel.accountId = accountId ∧ tunnel.id = tunnelId

def record? (remote : Remote) (zoneId recordId : String) : Option DnsRecord :=
  remote.records.find? fun record => record.zoneId = zoneId ∧ record.id = recordId

theorem tunnel?_eq_some {remote : Remote} {accountId tunnelId : String} {tunnel : Tunnel}
    (found : remote.tunnel? accountId tunnelId = some tunnel) :
    tunnel ∈ remote.tunnels ∧ tunnel.accountId = accountId ∧ tunnel.id = tunnelId := by
  unfold tunnel? at found
  exact ⟨List.mem_of_find?_eq_some found, by simpa using List.find?_some found⟩

theorem record?_eq_some {remote : Remote} {zoneId recordId : String} {record : DnsRecord}
    (found : remote.record? zoneId recordId = some record) :
    record ∈ remote.records ∧ record.zoneId = zoneId ∧ record.id = recordId := by
  unfold record? at found
  exact ⟨List.mem_of_find?_eq_some found, by simpa using List.find?_some found⟩

def setConfig (remote : Remote) (accountId tunnelId : String) (config : Config) : Remote :=
  { remote with tunnels := remote.tunnels.map (·.configured accountId tunnelId config) }

def setProxied (remote : Remote) (zoneId recordId : String) (proxied : Bool) : Remote :=
  { remote with
    records := remote.records.map fun record =>
      if record.zoneId = zoneId ∧ record.id = recordId then { record with proxied := proxied } else record }

def dropRecord (remote : Remote) (zoneId recordId : String) : Remote :=
  { remote with
    records := remote.records.eraseP fun record => record.zoneId = zoneId ∧ record.id = recordId }

end Remote

/-- The answer to a request and the account after it, as `f.api` of `tests/deploy.lua`.
There is no answer for an object that does not exist: `runtime.lua` makes it an error. -/
def serve (cloud : Cloud) : (request : Request) → Remote → Option request.Answer × Remote
  | .getZones name, remote => (some (cloud.zonesNamed name), remote)
  | .getRecords zoneId hostname, remote => (some ((remote.recordsNamed zoneId hostname).take 100), remote)
  | .getTunnels accountId name, remote => (some ((remote.tunnelsNamed accountId name).take 100), remote)
  | .postTunnel accountId name configSrc, remote =>
      let tunnel : Tunnel :=
        { id := cloud.tunnelId remote.created, accountId := accountId, name := name
          remoteConfig := some (configSrc == "cloudflare"), configSrc := some configSrc
          config := { ingress := [] } }
      (some { tunnel := tunnel, token := cloud.issuedToken remote.created },
        { remote with tunnels := tunnel :: remote.tunnels, created := remote.created + 1 })
  | .getConfig accountId tunnelId, remote => ((remote.tunnel? accountId tunnelId).map Tunnel.config, remote)
  | .getToken accountId tunnelId, remote =>
      ((remote.tunnel? accountId tunnelId).map fun tunnel => cloud.connectorToken tunnel.id, remote)
  | .postRecord zoneId type name content proxied ttl comment, remote =>
      let record : DnsRecord :=
        { id := cloud.recordId remote.created, zoneId := zoneId, type := type, name := name
          content := content, proxied := proxied, ttl := ttl, comment := comment }
      (some record, { remote with records := record :: remote.records, created := remote.created + 1 })
  | .patchRecord zoneId recordId proxied, remote =>
      ((remote.record? zoneId recordId).map fun record => { record with proxied := proxied },
        remote.setProxied zoneId recordId proxied)
  | .putConfig accountId tunnelId config, remote =>
      ((remote.tunnel? accountId tunnelId).map fun _ => (), remote.setConfig accountId tunnelId config)
  | .getRecord zoneId recordId, remote => (remote.record? zoneId recordId, remote)
  | .deleteRecord zoneId recordId, remote =>
      ((remote.record? zoneId recordId).map fun _ => (), remote.dropRecord zoneId recordId)

/-- Only `GET` leaves the account as it is, and it always does. -/
theorem serve_get {cloud : Cloud} {request : Request} (remote : Remote) (get : request.method = .get) :
    (serve cloud request remote).2 = remote := by
  cases request <;> first | rfl | cases get

end XWrt.CloudflareTunnel
