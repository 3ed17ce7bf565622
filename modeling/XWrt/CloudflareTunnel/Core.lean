import Mathlib.Data.List.Basic
import XWrt.Foundation.Wp
import XWrt.CloudflareTunnel.Data

/-!
# Deployment of a Cloudflare Tunnel

`core.deploy`, phase by phase. A run works on the account, the saved state on
disk and its own copy of that state; every call of `ctx` may fail before it
takes effect or after it. `World.log` records the requests of the runs.
-/

namespace XWrt.CloudflareTunnel

open Foundation

/-- What becomes of one call of `ctx`. -/
inductive Outcome
  | served
  /-- the call fails before it takes effect -/
  | refused (outage : Outage)
  /-- the call takes effect, and then fails -/
  | lost (outage : Outage)

/-- A request of a run, the answer that reached the run, the state the run was working
on, and the account after the request. -/
structure Event where
  request : Request
  answer : Option request.Answer
  state : SavedState
  remote : Remote

structure World where
  remote : Remote
  /-- the state file -/
  disk : SavedState
  /-- the `state` table of the run -/
  mem : SavedState
  /-- what becomes of the next calls of `ctx`; later ones are served -/
  outcomes : List Outcome
  /-- the requests of all runs, oldest first -/
  log : List Event
  /-- the stage last shown to the user -/
  stage : String
  /-- the token the connector was last started with -/
  connector : Option String

/-- The world after a request. -/
def World.record (w : World) (request : Request) (answer : Option request.Answer) (remote : Remote) : World :=
  { w with remote := remote, log := w.log ++ [(⟨request, answer, w.mem, remote⟩ : Event)] }

/-- The world once the outcome of one more call is decided. -/
def World.next (w : World) : World := { w with outcomes := w.outcomes.tail }

/-- The `ctx` table: `order` is the order in which `pairs` goes through the keys of a table. -/
structure Ctx where
  deviceId : String
  origin : String
  cloud : Cloud
  verify : String → String → String → Check
  time : ℕ
  order : (keys : List String) → { order : List String // order.Perm keys }

abbrev Deploy := EStateM Failure World

/-- `local function fail(code, message)` -/
def fail {α : Type} (code : Code) (message : String) : Deploy α := throw ⟨code, message⟩

/-- A check that ends the run when it does not hold. -/
def require (holds : Bool) (code : Code) (message : String) : Deploy Unit :=
  if holds then pure () else fail code message

/-- A pure part of the program that may fail. -/
def lift {α : Type} : Except Failure α → Deploy α
  | .ok value => pure value
  | .error failure => throw failure

/-! ## The calls of `ctx` -/

/-- The outcome of the next call. -/
def nextOutcome : Deploy Outcome := do
  let w ← get
  set w.next
  pure (w.outcomes.head?.getD .served)

/-- A call of `ctx` that is not a request. -/
def call {α : Type} (action : Deploy α) : Deploy α := do
  match ← nextOutcome with
  | .served => action
  | .refused outage => throw outage.toFailure
  | .lost outage =>
      let _ ← action
      throw outage.toFailure

/-- The request takes effect; `delivered` says whether the answer reaches the run. -/
def exchange (cloud : Cloud) (request : Request) (delivered : Bool) : Deploy (Option request.Answer) := do
  let w ← get
  let answer := (serve cloud request w.remote).1
  set (w.record request (if delivered then answer else none) (serve cloud request w.remote).2)
  pure answer

/-- `ctx.api`: a request about an object that does not exist is an error of the API. -/
def api (ctx : Ctx) (request : Request) : Deploy request.Answer := do
  match ← nextOutcome with
  | .served =>
      match ← exchange ctx.cloud request true with
      | some answer => pure answer
      | none => fail .api "Cloudflare API HTTP 404"
  | .refused outage =>
      modify fun w => w.record request none w.remote
      throw outage.toFailure
  | .lost outage =>
      let _ ← exchange ctx.cloud request false
      throw outage.toFailure

def progress (stage : String) : Deploy Unit := call (modify fun w => { w with stage := stage })

/-- `ctx.save(state)` -/
def save : Deploy Unit := call (modify fun w => { w with disk := w.mem })

def activate (token : String) : Deploy Unit := call (modify fun w => { w with connector := some token })

/-- An assignment to a field of `state`. -/
def assign (change : SavedState → SavedState) : Deploy Unit := modify fun w => { w with mem := change w.mem }

def setTunnel (accountId : String) (saved : SavedTunnel) : Deploy Unit :=
  assign fun state => { state with tunnels := state.tunnels.insert accountId saved }

def setDns (key : String) (saved : SavedDns) : Deploy Unit :=
  assign fun state => { state with dns := state.dns.insert key saved }

/-! ## The zone of a hostname -/

/-- `candidate:match("^[^.]+%.(.+)$") or ""` -/
def parentDomain (candidate : List Char) : List Char :=
  if candidate.head? = some '.' then [] else (candidate.dropWhile (· != '.')).tail

theorem parentDomain_length_lt {candidate : List Char} (dotted : '.' ∈ candidate) :
    (parentDomain candidate).length < candidate.length := by
  have nonempty : 0 < candidate.length := List.length_pos_of_mem dotted
  unfold parentDomain
  split
  · exact nonempty
  · have shorter : (candidate.dropWhile (· != '.')).length ≤ candidate.length :=
      (List.dropWhile_suffix _).length_le
    rw [List.length_tail]
    omega

/-- The domains the hostname is in, the longest first, as long as they have a dot. -/
def candidates (candidate : List Char) : List String :=
  if _dotted : '.' ∈ candidate then String.ofList candidate :: candidates (parentDomain candidate) else []
termination_by candidate.length
decreasing_by exact parentDomain_length_lt _dotted

/-- The checks on the active zone that was found. -/
def acceptZone (hostname : String) (zone : Zone) : Except Failure Zone :=
  if !isId zone.id || !(zone.account.any isId) then
    .error ⟨.api, "Cloudflare returned an invalid zone or account ID."⟩
  else if hostname = zone.name then
    .error ⟨.hostname, "Enter a subdomain, not the zone's root domain."⟩
  else if '.' ∈ hostname.toList.take (hostname.toList.length - zone.name.toList.length - 1) then
    .error ⟨.certificate, "Use a first-level subdomain for a free certificate, such as abc.example.com."⟩
  else .ok zone

def isActive (name : String) (zone : Zone) : Bool := zone.name == name && zone.status == "active"

/-- The loop of `M.find_zone` over the candidates that are left. -/
def searchZone (ctx : Ctx) (hostname : String) : List String → Deploy Zone
  | [] => fail .zone "No active Cloudflare zone matches this hostname. Check Zone Read permission and the token's zone scope."
  | candidate :: rest => do
      let zones ← api ctx (.getZones candidate)
      match List.find? (isActive candidate) zones with
      | some zone => lift (acceptZone hostname zone)
      | none => searchZone ctx hostname rest

/-- `M.find_zone` -/
def findZone (ctx : Ctx) (hostname : String) : Deploy Zone :=
  searchZone ctx hostname (candidates hostname.toList)

/-! ## Pure checks -/

/-- The loop over the listed tunnels. -/
def namedTunnel (name : String) : Option Tunnel → List Tunnel → Except Failure (Option Tunnel)
  | tunnel, [] => .ok tunnel
  | tunnel, item :: rest =>
      if item.name = name then
        match tunnel with
        | some _ => .error ⟨.conflict, "More than one tunnel has this router's tunnel name."⟩
        | none => namedTunnel name (some item) rest
      else namedTunnel name tunnel rest

/-- `origin:match("^https://")` -/
def isHttps (origin : String) : Bool := "https://".toList.isPrefixOf origin.toList

/-- The loop of `ingress_for`: the rules that stay, and the last rule without a hostname. -/
def keptRules (hostname origin : String) (active : Option Active) :
    List Rule → Except Failure (List Rule × Option Rule)
  | [] => .ok ([], none)
  | rule :: rest =>
      match rule.hostname with
      | none => do
          let (rules, catchall) ← keptRules hostname origin active rest
          pure (rules, some (catchall.getD rule))
      | some name =>
          if name = hostname then
            if rule.service ≠ some origin then
              .error ⟨.conflict, "This tunnel hostname already points to a different service."⟩
            else keptRules hostname origin active rest
          else
            match active.filter fun active => name = active.hostname with
            | some active' =>
                if rule.service ≠ some active'.origin then
                  .error ⟨.conflict, "The previously managed tunnel route was changed outside this plugin."⟩
                else keptRules hostname origin active rest
            | none => do
                let (rules, catchall) ← keptRules hostname origin active rest
                pure (rule :: rules, catchall)

/-- The route to the local service; over loopback, HTTPS is not verified. -/
def routeRule (hostname origin : String) : Rule :=
  { hostname := some hostname, service := some origin
    noTLSVerify := if isHttps origin then some true else none }

def ingressFor (config : Config) (hostname origin : String) (active : Option Active) : Except Failure Config := do
  let (rules, catchall) ← keptRules hostname origin active config.ingress
  pure { config with
    ingress := rules ++ [routeRule hostname origin,
      catchall.getD { hostname := none, service := some "http_status:404" }] }

def matchingDns (records : List DnsRecord) (hostname target : String) : Except Failure (Option DnsRecord) :=
  match records with
  | [] => .ok none
  | record :: rest =>
      if rest ≠ [] ∨ record.name ≠ hostname ∨ record.type ≠ "CNAME" ∨ record.content ≠ target then
        .error ⟨.conflict, "The hostname already has a DNS record pointing elsewhere. It was not changed."⟩
      else .ok (some record)

/-! ## The phases of `M.deploy` -/

/-- What the first requests of a run find. -/
structure Survey where
  zone : Zone
  accountId : String
  records : List DnsRecord
  tunnel : Option Tunnel

/-- `local name = "xwrt-" .. ctx.device_id` -/
def Ctx.tunnelName (ctx : Ctx) : String := "xwrt-" ++ ctx.deviceId

def survey (ctx : Ctx) (hostname : String) : Deploy Survey := do
  -- `ctx.origin()` checks the local service
  call (pure ())
  progress "zone"
  let zone ← findZone ctx hostname
  let accountId := zone.account.getD ""
  let records ← api ctx (.getRecords zone.id hostname)
  let tunnels ← api ctx (.getTunnels accountId ctx.tunnelName)
  let tunnel ← lift (namedTunnel ctx.tunnelName none tunnels)
  pure { zone := zone, accountId := accountId, records := records, tunnel := tunnel }

/-- The saved entry names the tunnel, or was left by a creation of unknown outcome. -/
def SavedTunnel.manages (saved : SavedTunnel) (name : String) (tunnel : Tunnel) : Bool :=
  saved.id == some tunnel.id || (saved.pending && saved.name == name)

def reconcileTunnel (ctx : Ctx) (found : Survey) : Deploy Unit := do
  let saved := (← get).mem.tunnels.lookup found.accountId
  match found.tunnel with
  | some tunnel => do
      require (saved.any (·.manages ctx.tunnelName tunnel)) .conflict
        "A tunnel with this router's name already exists but is not managed by this plugin."
      require (tunnel.remoteConfig != some false && tunnel.configSrc != some "local") .conflict
        "This tunnel is locally managed."
      if saved.any SavedTunnel.pending then
        setTunnel found.accountId { id := some tunnel.id, name := ctx.tunnelName, pending := false }
        save
      else pure ()
  | none =>
      require (saved.isNone || found.records.isEmpty) .conflict
        "The saved tunnel is missing, but the hostname still has a DNS record."

/-- The tunnel of the run. The intent is saved before a tunnel is created, so that a run
whose answer is lost is recognised by the next. -/
def ensureTunnel (ctx : Ctx) (accountId : String) : Option Tunnel → Deploy NewTunnel
  | some tunnel => pure { tunnel := tunnel, token := none }
  | none => do
      setTunnel accountId { id := none, name := ctx.tunnelName, pending := true }
      save
      let made ← api ctx (.postTunnel accountId ctx.tunnelName "cloudflare")
      require (isUuid made.tunnel.id) .api "Cloudflare returned an invalid tunnel ID."
      setTunnel accountId { id := some made.tunnel.id, name := ctx.tunnelName, pending := false }
      save
      pure made

/-- The configuration to publish, and the token of the connector. -/
def prepareRoute (ctx : Ctx) (hostname accountId : String) (made : NewTunnel) : Deploy (Config × String) := do
  require (isUuid made.tunnel.id) .api "Cloudflare returned an invalid tunnel ID."
  let current ← api ctx (.getConfig accountId made.tunnel.id)
  let active := (← get).mem.active.filter fun active => active.tunnelId = made.tunnel.id
  let config ← lift (ingressFor current hostname ctx.origin active)
  let token ← match made.token with
    | some token => pure token
    | none => api ctx (.getToken accountId made.tunnel.id)
  require (isConnectorToken token) .api "Cloudflare returned an invalid connector token."
  pure (config, token)

/-- A record whose creation was left pending is taken over. -/
def adoptRecord (key tunnelId : String) : Option DnsRecord → Deploy Unit
  | none => pure ()
  | some record => do
      match (← get).mem.dns.lookup key with
      | some saved =>
          if saved.pending && saved.tunnelId == tunnelId then
            setDns key { saved with id := some record.id, pending := false }
            save
          else pure ()
      | none => pure ()

/-- The record of the run. -/
def ensureRecord (ctx : Ctx) (zoneId hostname tunnelId : String) : Option DnsRecord → Deploy DnsRecord
  | none => do
      setDns (dnsKey zoneId hostname)
        { id := none, zoneId := zoneId, hostname := hostname, tunnelId := tunnelId, owned := true, pending := true }
      save
      let record ← api ctx (.postRecord zoneId "CNAME" hostname (target tunnelId) true 1
        ("Managed by X-WRT Cloudflare Tunnel (" ++ ctx.deviceId ++ ")"))
      require (isId record.id) .api "Cloudflare returned an invalid DNS record ID."
      setDns (dnsKey zoneId hostname)
        { id := some record.id, zoneId := zoneId, hostname := hostname, tunnelId := tunnelId, owned := true, pending := false }
      save
      pure record
  | some record => do
      if record.proxied then pure record
      else
        let saved := (← get).mem.dns.lookup (dnsKey zoneId hostname)
        require (saved.any fun saved => saved.id == some record.id && saved.owned) .conflict
          "The existing DNS record is not proxied and is not managed by this plugin."
        let _ ← api ctx (.patchRecord zoneId record.id true)
        pure record

def publish (ctx : Ctx) (active : Active) (config : Config) (token : String) : Deploy Unit := do
  progress "configure"
  api ctx (.putConfig active.accountId active.tunnelId config)
  progress "start"
  activate token
  assign fun state => { state with active := some active }
  save

/-- The record to look at for an old entry: without an id it is searched by its hostname. -/
def oldRecordId (ctx : Ctx) (key : String) (old : SavedDns) : Deploy (Option String) :=
  match old.id with
  | some recordId => pure (some recordId)
  | none => do
      match ← api ctx (.getRecords old.zoneId old.hostname) with
      | [only] =>
          setDns key { old with id := some only.id }
          pure (some only.id)
      | _ => pure none

/-- The function under `pcall`. -/
def removeOld (ctx : Ctx) (key : String) (old : SavedDns) : Deploy Unit := do
  match ← oldRecordId ctx key old with
  | none => pure ()
  | some recordId =>
      let existing ← api ctx (.getRecord old.zoneId recordId)
      if existing.name = old.hostname ∧ existing.type = "CNAME" ∧ existing.content = target old.tunnelId then
        api ctx (.deleteRecord old.zoneId recordId)
      else pure ()

/-- One turn of the loop over `state.dns`. -/
def cleanUpKey (ctx : Ctx) (key : String) (warnings : List String) (oldKey : String) : Deploy (List String) := do
  match ((← get).mem.dns.lookup oldKey).filter fun old => oldKey ≠ key ∧ old.owned with
  | none => pure warnings
  | some old =>
      let ok ← tryCatch (do removeOld ctx oldKey old; pure true) fun _ => pure false
      if ok then
        assign fun state => { state with dns := state.dns.erase oldKey }
        pure warnings
      else pure (warnings ++ ["An old DNS record could not be removed; check its zone permissions."])

def cleanUp (ctx : Ctx) (key : String) : Deploy (List String) := do
  (ctx.order (← get).mem.dns.keys).val.foldlM (cleanUpKey ctx key) []

def finish (ctx : Ctx) (hostname accountId tunnelId : String) (warnings : List String) : Deploy Deployment := do
  progress "https"
  let check ← call (pure (ctx.verify hostname accountId tunnelId))
  assign fun state =>
    { state with httpsOk := check.httpsOk, dnsCachePending := check.dnsCachePending, checkedAt := ctx.time }
  save
  pure { hostname := hostname, tunnelId := tunnelId, httpsOk := check.httpsOk, connected := check.connected
         dnsCachePending := check.dnsCachePending, warnings := warnings }

/-- `M.deploy` -/
def deploy (ctx : Ctx) (settings : Settings) : Deploy Deployment := do
  let hostname := settings.hostname
  let found ← survey ctx hostname
  reconcileTunnel ctx found
  let listed ← lift (matchingDns found.records hostname
    ((found.tunnel.map fun tunnel => target tunnel.id).getD ""))
  progress "tunnel"
  let made ← ensureTunnel ctx found.accountId found.tunnel
  let (config, token) ← prepareRoute ctx hostname found.accountId made
  progress "dns"
  adoptRecord (dnsKey found.zone.id hostname) made.tunnel.id listed
  let record ← ensureRecord ctx found.zone.id hostname made.tunnel.id listed
  publish ctx
    { accountId := found.accountId, zoneId := found.zone.id, tunnelId := made.tunnel.id
      hostname := hostname, dnsId := record.id, origin := ctx.origin } config token
  let warnings ← cleanUp ctx (dnsKey found.zone.id hostname)
  finish ctx hostname found.accountId made.tunnel.id warnings

/-- A run of the worker: it reads the state file and deploys. -/
structure Run where
  ctx : Ctx
  settings : Settings
  outcomes : List Outcome

def World.restart (w : World) (outcomes : List Outcome) : World := { w with mem := w.disk, outcomes := outcomes }

/-- The world after a run, whether it returns or fails. -/
def Run.after (run : Run) (w : World) : World :=
  finalState (deploy run.ctx run.settings) (w.restart run.outcomes)

/-- The world before the first run. -/
def World.initial (remote : Remote) : World :=
  { remote := remote, disk := .empty, mem := .empty, outcomes := [], log := [], stage := "", connector := none }

/-! ## The account of `tests/deploy.lua` -/

/-- An id that ends in the number of the object. -/
def numbered (start : String) (n : ℕ) : String :=
  start ++ String.ofList ["0123456789abcdef".toList.getD (n % 16) '0']

/-- `fixture()`: a zone, a device, and a local service that answers. -/
def fixture : Ctx where
  deviceId := "aabbcc112233"
  origin := "http://127.0.0.1:80"
  cloud :=
    { zones := [{ id := "11111111111111111111111111111111", name := "example.com", status := "active"
                  account := some "22222222222222222222222222222222" }]
      tunnelId := numbered "00000000-0000-4000-8000-00000000000"
      recordId := numbered "0000000000000000000000000000000"
      issuedToken := fun _ => some "connector-token-created"
      connectorToken := fun _ => "connector-token" }
  verify := fun _ _ _ => { connected := true, httpsOk := true, dnsCachePending := false }
  time := 1000
  order := fun keys => ⟨keys, List.Perm.refl keys⟩

/-- `f.deploy(hostname)`, with outcomes for its first calls -/
def Ctx.run (ctx : Ctx) (hostname : String) (outcomes : List Outcome) : Run :=
  { ctx := ctx, settings := { hostname := hostname, apiToken := "test-token-test-token-" }, outcomes := outcomes }

end XWrt.CloudflareTunnel
