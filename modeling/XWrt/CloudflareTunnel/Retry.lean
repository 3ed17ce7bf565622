import XWrt.CloudflareTunnel.Rules

/-!
# Retrying a deployment

A device that deploys again and again on an account nobody else edits, its
calls failing before or after they take effect, never has two tunnels or two
records of one hostname: what a run leaves behind is recognised by the next,
through the id it saved or the marker it saved before a creation. A deployment
in which no call fails therefore succeeds, with the tunnel and record there are.
-/

namespace XWrt.CloudflareTunnel

open Foundation

/-- What the runs of one device on one account have in common, and the hostnames they deploy. -/
structure Site where
  tunnelName : String
  origin : String
  cloud : Cloud
  accountId : String
  names : List String

def Ctx.site (ctx : Ctx) (accountId : String) (names : List String) : Site :=
  { tunnelName := ctx.tunnelName, origin := ctx.origin, cloud := ctx.cloud, accountId := accountId, names := names }

/-- All records of the hostname, in any zone. -/
def Remote.recordsOf (remote : Remote) (hostname : String) : List DnsRecord :=
  remote.records.filter fun record => record.name = hostname

/-- The tunnels of the account that have the device's name. -/
def Site.own (site : Site) (remote : Remote) : List Tunnel := remote.tunnelsNamed site.accountId site.tunnelName

structure AtMostOne (site : Site) (remote : Remote) : Prop where
  tunnel : (site.own remote).length ≤ 1
  record : ∀ hostname ∈ site.names, (remote.recordsOf hostname).length ≤ 1

/-- Every rule with a hostname leads to the service. -/
def Routes (origin : String) (rules : List Rule) : Prop :=
  ∀ rule ∈ rules, ∀ name, rule.hostname = some name → rule.service = some origin

/-- A tunnel that every run takes for its own, with routes to the local service only. -/
structure TunnelSound (site : Site) (remote : Remote) (tunnel : Tunnel) : Prop where
  found : remote.tunnel? site.accountId tunnel.id = some tunnel
  uuid : isUuid tunnel.id = true
  remotely : (tunnel.remoteConfig != some false && tunnel.configSrc != some "local") = true
  routes : Routes site.origin tunnel.config.ingress

/-- A record that every run of its hostname takes for its own. -/
structure RecordSound (site : Site) (remote : Remote) (record : DnsRecord) : Prop where
  content : ∃ tunnel ∈ site.own remote, record.content = target tunnel.id
  type : record.type = "CNAME"
  proxied : record.proxied = true
  zone : ∃ zone, hostZone site.cloud record.name = .ok zone ∧ record.zoneId = zone.id

/-- The account between two requests. -/
structure Tidy (site : Site) (remote : Remote) : Prop where
  single : AtMostOne site remote
  tunnels : ∀ tunnel ∈ site.own remote, TunnelSound site remote tunnel
  records : ∀ record ∈ remote.records, record.name ∈ site.names → RecordSound site remote record

/-- What a saved state knows of the account. -/
structure Recalls (site : Site) (remote : Remote) (state : SavedState) : Prop where
  tunnel : ∀ tunnel ∈ site.own remote,
    ∃ saved, state.tunnels.lookup site.accountId = some saved ∧ saved.manages site.tunnelName tunnel = true
  active : ∀ active, state.active = some active → active.origin = site.origin
  keys : ∀ {key saved}, state.dns.lookup key = some saved → key = dnsKey saved.zoneId saved.hostname

variable {site : Site} {remote : Remote} {state : SavedState} {ctx : Ctx} {w : World} {hostname : String}

theorem mem_own {tunnel : Tunnel} :
    tunnel ∈ site.own remote ↔ tunnel ∈ remote.tunnels ∧ tunnel.accountId = site.accountId ∧ tunnel.name = site.tunnelName := by
  simp [Site.own, Remote.tunnelsNamed]

theorem mem_recordsOf {record : DnsRecord} :
    record ∈ remote.recordsOf hostname ↔ record ∈ remote.records ∧ record.name = hostname := by
  simp [Remote.recordsOf]

/-! ## What the requests of a run do to the account -/

theorem Tidy.own_eq (tidy : Tidy site remote) {tunnel : Tunnel} (inside : tunnel ∈ site.own remote) :
    site.own remote = [tunnel] := by
  have single := tidy.single.tunnel
  match shape : site.own remote with
  | [] => simp [shape] at inside
  | [only] =>
      rw [shape, List.mem_singleton] at inside
      rw [inside]
  | _ :: _ :: _ => simp [shape] at single

theorem Tidy.recordsOf_eq (tidy : Tidy site remote) {record : DnsRecord} (inside : record ∈ remote.records)
    (named : record.name ∈ site.names) : remote.recordsOf record.name = [record] := by
  have single := tidy.single.record record.name named
  have member := mem_recordsOf.mpr ⟨inside, rfl⟩
  match shape : remote.recordsOf record.name with
  | [] => simp [shape] at member
  | [only] =>
      rw [shape, List.mem_singleton] at member
      rw [member]
  | _ :: _ :: _ => simp [shape] at single

/-- Without a tunnel of the device there is no record of its hostnames. -/
theorem Tidy.no_records (tidy : Tidy site remote) (none : site.own remote = []) :
    ∀ record ∈ remote.records, record.name ∉ site.names := by
  intro record inside named
  obtain ⟨tunnel, own, -⟩ := (tidy.records record inside named).content
  simp [none] at own

theorem Tidy.dropRecord (tidy : Tidy site remote) (zoneId recordId : String) :
    Tidy site (remote.dropRecord zoneId recordId) where
  single :=
    ⟨tidy.single.tunnel, fun hostname named =>
      Nat.le_trans (List.eraseP_sublist.filter _).length_le (tidy.single.record hostname named)⟩
  tunnels := fun tunnel own =>
    have sound := tidy.tunnels tunnel own
    ⟨sound.found, sound.uuid, sound.remotely, sound.routes⟩
  records := fun record inside named =>
    have sound := tidy.records record (List.mem_of_mem_eraseP inside) named
    ⟨sound.content, sound.type, sound.proxied, sound.zone⟩

/-- Deleting a record leaves every other one. -/
theorem mem_dropRecord {zoneId recordId : String} {existing record : DnsRecord}
    (found : remote.record? zoneId recordId = some existing) (inside : record ∈ remote.records) (other : record ≠ existing) :
    record ∈ (remote.dropRecord zoneId recordId).records := by
  obtain ⟨matched, before, after, split, passed⟩ := List.find?_eq_some_iff_append.mp found
  have remaining : (remote.dropRecord zoneId recordId).records = before ++ after := by
    have unmatched : ∀ record ∈ before, ¬ decide (record.zoneId = zoneId ∧ record.id = recordId) = true :=
      fun record earlier => by simpa only [Bool.not_eq_true', Bool.not_eq_true] using passed record earlier
    rw [Remote.dropRecord, split, List.eraseP_append_right _ unmatched]
    simp only [List.eraseP_cons, matched, cond_true]
  rw [split, List.mem_append, List.mem_cons] at inside
  rw [remaining, List.mem_append]
  rcases inside with earlier | here | later
  · exact .inl earlier
  · exact absurd here other
  · exact .inr later

/-- The account after the creation of a tunnel. -/
def Remote.addTunnel (remote : Remote) (tunnel : Tunnel) : Remote :=
  { remote with tunnels := tunnel :: remote.tunnels, created := remote.created + 1 }

/-- The account after the creation of a record. -/
def Remote.addRecord (remote : Remote) (record : DnsRecord) : Remote :=
  { remote with records := record :: remote.records, created := remote.created + 1 }

/-- The first tunnel of the device. -/
theorem Tidy.addTunnel {tunnel : Tunnel} (tidy : Tidy site remote) (first : site.own remote = [])
    (account : tunnel.accountId = site.accountId) (name : tunnel.name = site.tunnelName) (uuid : isUuid tunnel.id = true)
    (remotely : (tunnel.remoteConfig != some false && tunnel.configSrc != some "local") = true)
    (rules : tunnel.config.ingress = []) :
    Tidy site (remote.addTunnel tunnel) ∧ site.own (remote.addTunnel tunnel) = [tunnel] := by
  have own : site.own (remote.addTunnel tunnel) = [tunnel] := by
    have rest : site.own (remote.addTunnel tunnel) = tunnel :: site.own remote := by
      simp [Site.own, Remote.tunnelsNamed, Remote.addTunnel, account, name]
    rw [rest, first]
  refine ⟨⟨⟨by simp [own], tidy.single.record⟩, fun other inside => ?_, fun record inside named => ?_⟩, own⟩
  · rw [own, List.mem_singleton] at inside
    subst inside
    exact ⟨by simp [Remote.tunnel?, Remote.addTunnel, account], uuid, remotely, by simp [Routes, rules]⟩
  · exact absurd named (tidy.no_records first record inside)

/-- The first record of a hostname. -/
theorem Tidy.addRecord {record : DnsRecord} (tidy : Tidy site remote) (first : remote.recordsOf record.name = [])
    (sound : RecordSound site remote record) : Tidy site (remote.addRecord record) where
  single := by
    refine ⟨tidy.single.tunnel, fun hostname named => ?_⟩
    by_cases here : record.name = hostname
    · subst here
      have only : (remote.addRecord record).recordsOf record.name = record :: remote.recordsOf record.name := by
        simp [Remote.recordsOf, Remote.addRecord]
      simp [only, first]
    · have others : (remote.addRecord record).recordsOf hostname = remote.recordsOf hostname := by
        simp [Remote.recordsOf, Remote.addRecord, here]
      rw [others]
      exact tidy.single.record hostname named
  tunnels := fun tunnel own =>
    have sound := tidy.tunnels tunnel own
    ⟨sound.found, sound.uuid, sound.remotely, sound.routes⟩
  records := fun other inside named => by
    have earlier : RecordSound site remote other := by
      rcases List.mem_cons.mp inside with rfl | earlier
      · exact sound
      · exact tidy.records other earlier named
    exact ⟨earlier.content, earlier.type, earlier.proxied, earlier.zone⟩

/-- The device's tunnel with another configuration. -/
theorem Tidy.setConfig {tunnel : Tunnel} {config : Config} (tidy : Tidy site remote) (own : site.own remote = [tunnel])
    (routes : Routes site.origin config.ingress) :
    Tidy site (remote.setConfig site.accountId tunnel.id config) ∧
      site.own (remote.setConfig site.accountId tunnel.id config) = [{ tunnel with config := config }] := by
  have member : tunnel ∈ site.own remote := own ▸ List.mem_singleton_self tunnel
  obtain ⟨-, account, name⟩ := mem_own.mp member
  have sound := tidy.tunnels tunnel member
  have configured : tunnel.configured site.accountId tunnel.id config = { tunnel with config := config } :=
    if_pos ⟨account, rfl⟩
  have own' : site.own (remote.setConfig site.accountId tunnel.id config) = [{ tunnel with config := config }] := by
    have mapped : site.own (remote.setConfig site.accountId tunnel.id config) =
        (site.own remote).map (·.configured site.accountId tunnel.id config) := by
      simp [Site.own, Remote.tunnelsNamed, Remote.setConfig, List.filter_map, Function.comp_def]
    rw [mapped, own, List.map_singleton, configured]
  refine ⟨⟨⟨by simp [own'], tidy.single.record⟩, fun other inside => ?_, fun record inside named => ?_⟩, own'⟩
  · rw [own', List.mem_singleton] at inside
    subst inside
    refine ⟨?_, sound.uuid, sound.remotely, routes⟩
    have found := sound.found
    unfold Remote.tunnel? at found ⊢
    simp only [Remote.setConfig, List.find?_map, Function.comp_def, Tunnel.configured_accountId, Tunnel.configured_id]
    rw [found, Option.map_some, configured]
  · have earlier := tidy.records record inside named
    refine ⟨?_, earlier.type, earlier.proxied, earlier.zone⟩
    obtain ⟨tunnel', inside', content⟩ := earlier.content
    rw [own, List.mem_singleton] at inside'
    exact ⟨_, own' ▸ List.mem_singleton_self _, by rw [content, inside']⟩

/-! ## The merge of the route -/

theorem keptRules_of_routes {origin : String} {active : Option Active} {rules : List Rule} (hostname : String) (routes : Routes origin rules)
    (same : ∀ managed, active = some managed → managed.origin = origin) :
    ∃ kept catchall, keptRules hostname origin active rules = .ok (kept, catchall) ∧ Routes origin kept ∧
      ∀ rule, catchall = some rule → rule.hostname = none := by
  induction rules with
  | nil => exact ⟨[], none, rfl, by simp [Routes], by simp⟩
  | cons rule rest ih =>
      obtain ⟨kept, catchall, merged, keptRoutes, bare⟩ := ih fun rule inside => routes rule (List.mem_cons_of_mem _ inside)
      unfold keptRules
      cases named : rule.hostname with
      | none =>
          refine ⟨kept, some (catchall.getD rule), by simp [merged, bind, Except.bind, pure, Except.pure], keptRoutes, ?_⟩
          rintro other same
          cases catchall with
          | none =>
              cases same
              exact named
          | some last =>
              cases same
              exact bare last rfl
      | some name =>
          have service := routes rule List.mem_cons_self name named
          by_cases here : name = hostname
          · refine ⟨kept, catchall, ?_, keptRoutes, bare⟩
            simp only [here, if_true, service, ne_eq, not_true_eq_false, if_false, merged]
          · simp only [here, if_false]
            cases managed : active.filter fun active => name = active.hostname with
            | some active' =>
                rw [Option.filter_eq_some_iff] at managed
                refine ⟨kept, catchall, ?_, keptRoutes, bare⟩
                simp only [service, same active' managed.1, ne_eq, not_true_eq_false, if_false, merged]
            | none =>
                refine ⟨rule :: kept, catchall, by simp [merged, bind, Except.bind, pure, Except.pure], ?_, bare⟩
                intro other inside
                rcases List.mem_cons.mp inside with rfl | later
                · exact routes other List.mem_cons_self
                · exact keptRoutes other later

theorem ingressFor_of_routes {origin : String} {active : Option Active} {config : Config} (hostname : String)
    (routes : Routes origin config.ingress) (same : ∀ managed, active = some managed → managed.origin = origin) :
    ∃ merged, ingressFor config hostname origin active = .ok merged ∧ Routes origin merged.ingress := by
  obtain ⟨kept, catchall, rules, keptRoutes, bare⟩ := keptRules_of_routes hostname routes same
  refine ⟨_, by simp only [ingressFor, rules, bind, Except.bind, pure, Except.pure]; rfl, fun rule inside name named => ?_⟩
  simp only [List.mem_append, List.mem_cons, List.not_mem_nil, or_false] at inside
  rcases inside with earlier | rfl | rfl
  · exact keptRoutes rule earlier name named
  · rfl
  · cases catchall with
    | none => cases named
    | some last => rw [Option.getD_some, bare last rfl] at named; cases named

/-! ## The assertion of a run -/

/-- The account is tidy and both copies of the state recall it; it was never otherwise
than with at most one tunnel and record of each name. The tunnels `held` and the records
`stay`ing are still there, and with `calm` no call fails. -/
structure Sound (site : Site) (calm : Prop) (held : List String) (stay : List DnsRecord) (w : World) : Prop where
  tidy : Tidy site w.remote
  disk : Recalls site w.remote w.disk
  mem : Recalls site w.remote w.mem
  log : ∀ event ∈ w.log, AtMostOne site event.remote
  held : ∀ tunnelId ∈ held, ∃ tunnel ∈ site.own w.remote, tunnel.id = tunnelId
  stay : ∀ record ∈ stay, record ∈ w.remote.records
  calm : calm → w.Calm

variable {calm : Prop} {held : List String} {stay : List DnsRecord}

theorem Sound.weaken {held' : List String} {stay' : List DnsRecord} (sound : Sound site calm held stay w)
    (fewer : held' ⊆ held) (fewer' : stay' ⊆ stay) : Sound site calm held' stay' w :=
  { sound with
    held := fun tunnelId member => sound.held tunnelId (fewer member)
    stay := fun record member => sound.stay record (fewer' member) }

/-- Only the device's tunnels count for what a state recalls. -/
theorem Recalls.congr {remote' : Remote} {state' : SavedState} (recalls : Recalls site remote state)
    (own : ∀ tunnel' ∈ site.own remote', ∃ tunnel ∈ site.own remote, tunnel'.id = tunnel.id)
    (tunnels : state'.tunnels = state.tunnels) (dns : state'.dns = state.dns) (active : state'.active = state.active) :
    Recalls site remote' state' where
  tunnel := by
    intro tunnel' inside
    obtain ⟨tunnel, inside', id⟩ := own tunnel' inside
    obtain ⟨saved, entry, manages⟩ := recalls.tunnel tunnel inside'
    exact ⟨saved, tunnels ▸ entry, by simpa only [SavedTunnel.manages, id] using manages⟩
  active := active ▸ recalls.active
  keys := dns ▸ recalls.keys

/-- A request that leaves the account tidy, with the tunnels and records that have to stay. -/
theorem Sound.record {request : Request} (sound : Sound site calm held stay w) (answer : Option request.Answer)
    (remote : Remote) (tidy : Tidy site remote)
    (own : ∀ tunnel' ∈ site.own remote, ∃ tunnel ∈ site.own w.remote, tunnel'.id = tunnel.id)
    (held' : ∀ tunnelId ∈ held, ∃ tunnel ∈ site.own remote, tunnel.id = tunnelId)
    (stay' : ∀ record ∈ stay, record ∈ remote.records) : Sound site calm held stay (w.record request answer remote) where
  tidy := tidy
  disk := sound.disk.congr own rfl rfl rfl
  mem := sound.mem.congr own rfl rfl rfl
  log := by
    intro event inside
    rcases List.mem_append.mp inside with earlier | last
    · exact sound.log event earlier
    · rw [List.mem_singleton.mp last]
      exact tidy.single
  held := held'
  stay := stay'
  calm := sound.calm

/-- A request without effect. -/
theorem Sound.attempt {request : Request} (sound : Sound site calm held stay w) (answer : Option request.Answer) :
    Sound site calm held stay (w.record request answer w.remote) :=
  sound.record answer _ sound.tidy (fun tunnel inside => ⟨tunnel, inside, rfl⟩) sound.held sound.stay

theorem Sound.withMem (sound : Sound site calm held stay w) (recalls : Recalls site w.remote state) :
    Sound site calm held stay { w with mem := state } :=
  ⟨sound.tidy, sound.disk, recalls, sound.log, sound.held, sound.stay, sound.calm⟩

theorem Recalls.insertRecord (recalls : Recalls site remote state) (key : String) (saved : SavedDns)
    (place : key = dnsKey saved.zoneId saved.hostname) :
    Recalls site remote { state with dns := state.dns.insert key saved } where
  tunnel := recalls.tunnel
  active := recalls.active
  keys := by
    intro key' saved' entry
    by_cases here : key' = key
    · subst here
      rw [AList.lookup_insert] at entry
      cases entry
      exact place
    · rw [AList.lookup_insert_ne here] at entry
      exact recalls.keys entry

theorem Recalls.insertTunnel (recalls : Recalls site remote state) (saved : SavedTunnel)
    (manages : ∀ tunnel ∈ site.own remote, saved.manages site.tunnelName tunnel = true) :
    Recalls site remote { state with tunnels := state.tunnels.insert site.accountId saved } where
  tunnel := fun tunnel inside => ⟨saved, AList.lookup_insert _, manages tunnel inside⟩
  active := recalls.active
  keys := recalls.keys

/-- The state has the marker of a pending creation of the tunnel. -/
def Marked (site : Site) (state : SavedState) : Prop :=
  state.tunnels.lookup site.accountId = some { id := none, name := site.tunnelName, pending := true }

/-- A state with the marker recalls any tunnel of the device. -/
theorem Recalls.of_marked (recalls : Recalls site remote state) (marked : Marked site state) (remote' : Remote) :
    Recalls site remote' state where
  tunnel := fun tunnel _ => ⟨_, marked, by simp [SavedTunnel.manages]⟩
  active := recalls.active
  keys := recalls.keys

theorem sound_stable : Stable (Sound site calm held stay) where
  next := fun sound => ⟨sound.tidy, sound.disk, sound.mem, sound.log, sound.held, sound.stay, fun calm => (sound.calm calm).next⟩
  shown := fun _ sound => ⟨sound.tidy, sound.disk, sound.mem, sound.log, sound.held, sound.stay, sound.calm⟩
  connector := fun _ sound => ⟨sound.tidy, sound.disk, sound.mem, sound.log, sound.held, sound.stay, sound.calm⟩
  read := fun answer _ sound => sound.attempt answer
  saved := fun sound => ⟨sound.tidy, sound.mem, sound.mem, sound.log, sound.held, sound.stay, sound.calm⟩
  checked := fun _ _ _ sound => sound.withMem (sound.mem.congr (fun tunnel inside => ⟨tunnel, inside, rfl⟩) rfl rfl rfl)

theorem sound_sweeps {key : String} (kept : ∀ record ∈ stay, key = dnsKey record.zoneId record.name) :
    Sweeps key (Sound site calm held stay) where
  toStable := sound_stable
  found := by
    intro w oldKey old only sound entry _ _ _ _
    have place := sound.mem.keys entry
    exact sound.withMem (sound.mem.insertRecord _ _ place)
  removed := by
    intro w oldKey old recordId existing answer remote sound entry other _ _ there confirmed reached
    rcases reached with rfl | rfl
    · exact sound.attempt answer
    · refine sound.record answer _ (sound.tidy.dropRecord _ _) (fun tunnel inside => ⟨tunnel, inside, rfl⟩) sound.held ?_
      intro record inside
      refine mem_dropRecord there (sound.stay record inside) ?_
      rintro rfl
      -- the record of the run has another key than the one to be deleted
      obtain ⟨-, zone, -⟩ := Remote.record?_eq_some there
      rw [kept record inside, zone, confirmed.name] at other
      exact other (sound.mem.keys entry)
  forgotten := by
    intro w oldKey sound _
    refine sound.withMem ⟨sound.mem.tunnel, sound.mem.active, fun {key' saved'} entry => ?_⟩
    by_cases here : key' = oldKey
    · rw [here, AList.lookup_erase] at entry
      cases entry
    · rw [AList.lookup_erase_ne here] at entry
      exact sound.mem.keys entry

/-! ## The phases of a run -/

/-- What Cloudflare documents of its ids and tokens, with all active zones in the account. -/
structure Site.Reliable (site : Site) : Prop where
  zones : ∀ zone ∈ site.cloud.zones, zone.status = "active" → isId zone.id = true ∧ zone.account = some site.accountId
  account : isId site.accountId = true
  tunnelId : ∀ n, isUuid (site.cloud.tunnelId n) = true
  recordId : ∀ n, isId (site.cloud.recordId n) = true
  issued : ∀ n token, site.cloud.issuedToken n = some token → isConnectorToken token = true
  token : ∀ tunnelId, isConnectorToken (site.cloud.connectorToken tunnelId) = true

variable {accountId : String} {names : List String} {found : Survey} {w₀ : World}

/-- A list that is the only choice for a tunnel of the name. -/
theorem namedTunnel_toList {name : String} {items : List Tunnel} (single : items.length ≤ 1)
    (named : ∀ item ∈ items, item.name = name) :
    ∃ tunnel : Option Tunnel, namedTunnel name none items = .ok tunnel ∧ tunnel.toList = items := by
  match items with
  | [] => exact ⟨none, rfl, rfl⟩
  | [item] => exact ⟨some item, by simp [namedTunnel, named], rfl⟩
  | _ :: _ :: _ => simp at single

theorem Tidy.namedTunnel (tidy : Tidy site remote) :
    ∃ tunnel : Option Tunnel,
      CloudflareTunnel.namedTunnel site.tunnelName none ((remote.tunnelsNamed site.accountId site.tunnelName).take 100) =
        .ok tunnel ∧ tunnel.toList = site.own remote := by
  have short : (site.own remote).take 100 = site.own remote :=
    List.take_of_length_le (Nat.le_trans tidy.single.tunnel (by decide))
  change ∃ tunnel, CloudflareTunnel.namedTunnel _ _ ((site.own remote).take 100) = _ ∧ _
  rw [short]
  exact namedTunnel_toList tidy.single.tunnel fun item inside => (mem_own.mp inside).2.2

theorem survey_sound (sound : Sound (ctx.site accountId names) calm held stay w) (reliable : (ctx.site accountId names).Reliable) :
    wp (survey ctx hostname)
      (fun found w' => Sound (ctx.site accountId names) calm held stay w' ∧ found.Seen ctx hostname w w' ∧
        found.accountId = accountId ∧ found.tunnel.toList = (ctx.site accountId names).own w'.remote)
      (fun _ w' => Sound (ctx.site accountId names) calm held stay w' ∧
        (calm → ∀ zone, hostZone ctx.cloud hostname ≠ .ok zone)) w := by
  have account {zone : Zone} {owner : String} (ok : hostZone ctx.cloud hostname = .ok zone) (owned : zone.account = some owner) :
      owner = accountId := by
    obtain ⟨inside, active, -, -⟩ := zoneOf_eq_ok ok
    exact Option.some.inj (owned.symm.trans (reliable.zones zone inside active).2)
  obtain ⟨tunnel, unique, own⟩ := sound.tidy.namedTunnel
  refine wp_mono (sound_stable.survey_spec sound) ?_ ?_
  · rintro found w' ⟨sound', seen⟩
    have here := account seen.zone seen.account
    refine ⟨sound', seen, here, ?_⟩
    have same := seen.tunnel
    rw [here] at same
    rw [seen.same.remote, ← own, Except.ok.inj (same.symm.trans unique)]
  · rintro failure w' ⟨sound', fails⟩
    refine ⟨sound', fun calm zone ok => ?_⟩
    rcases fails (sound.calm calm) with rejected | ⟨zone', owner, ok', owned, ambiguous⟩
    · rw [rejected] at ok
      cases ok
    · rw [account ok' owned] at ambiguous
      cases ambiguous.symm.trans unique

/-- The records of a hostname are those in its zone. -/
theorem Tidy.recordsNamed_eq {zone : Zone} (tidy : Tidy site remote) (named : hostname ∈ site.names)
    (ok : hostZone site.cloud hostname = .ok zone) : remote.recordsNamed zone.id hostname = remote.recordsOf hostname := by
  refine List.filter_congr fun record inside => ?_
  by_cases name : record.name = hostname
  · subst name
    obtain ⟨zone', ok', there⟩ := (tidy.records record inside named).zone
    cases ok.symm.trans ok'
    simp [there]
  · simp [name]

/-- The surveyed account passes the checks on its tunnel. -/
theorem Sound.settled (sound : Sound (ctx.site found.accountId names) calm held stay w) (named : hostname ∈ names)
    (seen : found.Seen ctx hostname w₀ w)
    (own : found.tunnel.toList = (ctx.site found.accountId names).own w.remote) : found.settled ctx w.mem = true := by
  unfold Survey.settled
  cases listed : found.tunnel with
  | some tunnel =>
      rw [listed] at own
      have inside : tunnel ∈ (ctx.site found.accountId names).own w.remote := own ▸ List.mem_singleton_self tunnel
      obtain ⟨saved, entry, manages⟩ := sound.mem.tunnel tunnel inside
      have manages' : saved.manages ctx.tunnelName tunnel = true := manages
      have entry' : w.mem.tunnels.lookup found.accountId = some saved := entry
      simp only [entry', Option.any_some, manages', Bool.true_and]
      exact (sound.tidy.tunnels tunnel inside).remotely
  | none =>
      rw [listed] at own
      have empty : found.records = [] := by
        rw [seen.records, ← seen.same.remote, sound.tidy.recordsNamed_eq named seen.zone]
        refine List.eq_nil_iff_forall_not_mem.mpr fun record inside => ?_
        obtain ⟨there, rfl⟩ := mem_recordsOf.mp (List.mem_of_mem_take inside)
        exact sound.tidy.no_records own.symm record there named
      simp [empty]

/-- The surveyed records pass the check against the tunnel. -/
theorem Sound.matchingDns (sound : Sound (ctx.site accountId names) calm held stay w) (named : hostname ∈ names)
    (seen : found.Seen ctx hostname w₀ w) (own : found.tunnel.toList = (ctx.site accountId names).own w.remote) :
    ∃ listed : Option DnsRecord,
      CloudflareTunnel.matchingDns found.records hostname ((found.tunnel.map fun tunnel => target tunnel.id).getD "") = .ok listed ∧
        listed.toList = w.remote.recordsOf hostname := by
  have single := sound.tidy.single.record hostname named
  rw [seen.records, ← seen.same.remote, sound.tidy.recordsNamed_eq named seen.zone,
    List.take_of_length_le (Nat.le_trans single (by decide))]
  match shape : w.remote.recordsOf hostname with
  | [] => exact ⟨none, rfl, rfl⟩
  | [record] =>
      refine ⟨some record, ?_, rfl⟩
      obtain ⟨inside, rfl⟩ := mem_recordsOf.mp (shape ▸ List.mem_singleton_self record)
      obtain ⟨⟨tunnel, there, content⟩, type, -, -⟩ := sound.tidy.records record inside named
      rw [← own, Option.mem_toList] at there
      simp [CloudflareTunnel.matchingDns, type, content, there]
  | _ :: _ :: _ => simp [shape] at single

/-- A request that is answered: it fails only when the run is not calm. -/
theorem wp_api_answered {request : Request} {done : request.Answer → World → Prop} {failed : World → Prop}
    {given : request.Answer} {remote : Remote} (serves : serve ctx.cloud request w.remote = (some given, remote))
    (answered : done given (w.next.record request (some given) remote))
    (broken : ∀ remote', remote' = w.remote ∨ remote' = remote → failed (w.next.record request none remote')) :
    wp (api ctx request) done (fun _ w' => failed w' ∧ ¬ w.Calm) w := by
  refine wp_api (fun answer served => ?_) fun failure remote' _ reached missing => ?_
  · rw [serves] at served ⊢
    cases served
    exact answered
  · rw [serves] at reached
    exact ⟨broken remote' reached, fun calm => by simpa [serves] using missing calm⟩

/-- The creation of the first tunnel, with its marker saved. -/
theorem postTunnel_sound (reliable : (ctx.site accountId names).Reliable)
    (sound : Sound (ctx.site accountId names) calm [] stay w) (first : (ctx.site accountId names).own w.remote = [])
    (disk : Marked (ctx.site accountId names) w.disk) (mem : Marked (ctx.site accountId names) w.mem) :
    wp (api ctx (.postTunnel accountId ctx.tunnelName "cloudflare"))
      (fun made w' => Sound (ctx.site accountId names) calm [made.tunnel.id] stay w' ∧
        (ctx.site accountId names).own w'.remote = [made.tunnel] ∧ w'.remote.records = w.remote.records ∧
        isUuid made.tunnel.id = true ∧ ∀ token, made.token = some token → isConnectorToken token = true)
      (fun _ w' => Sound (ctx.site accountId names) calm [] stay w' ∧ ¬ w.Calm) w := by
  have uuid : isUuid (ctx.cloud.tunnelId w.remote.created) = true := reliable.tunnelId _
  generalize made : ({ id := ctx.cloud.tunnelId w.remote.created, accountId := accountId, name := ctx.tunnelName
                       remoteConfig := some ("cloudflare" == "cloudflare"), configSrc := some "cloudflare"
                       config := { ingress := [] } } : Tunnel) = tunnel
  have serves : serve ctx.cloud (.postTunnel accountId ctx.tunnelName "cloudflare") w.remote =
      (some { tunnel := tunnel, token := ctx.cloud.issuedToken w.remote.created }, w.remote.addTunnel tunnel) := by
    rw [← made]
    rfl
  obtain ⟨tidy, own⟩ : Tidy (ctx.site accountId names) (w.remote.addTunnel tunnel) ∧
      (ctx.site accountId names).own (w.remote.addTunnel tunnel) = [tunnel] := by
    subst made
    exact sound.tidy.addTunnel first rfl rfl uuid rfl rfl
  have added (answer : Option NewTunnel) : Sound (ctx.site accountId names) calm [tunnel.id] stay
      (w.next.record (.postTunnel accountId ctx.tunnelName "cloudflare") answer (w.remote.addTunnel tunnel)) := by
    refine ⟨tidy, sound.disk.of_marked disk _, sound.mem.of_marked mem _, fun event inside => ?_, ?_, sound.stay,
      fun calm => (sound.calm calm).next⟩
    · rcases List.mem_append.mp inside with earlier | last
      · exact sound.log event earlier
      · rw [List.mem_singleton.mp last]
        exact tidy.single
    · simp [own]
  refine wp_api_answered serves ⟨added _, own, rfl, ?_, ?_⟩ fun remote' reached => ?_
  · exact made ▸ uuid
  · exact reliable.issued _
  · rcases reached with rfl | rfl
    · exact (sound_stable.next sound).attempt none
    · exact (added none).weaken (List.nil_subset _) (List.Subset.refl _)

/-- The tunnel of the run, listed or created. -/
theorem ensureTunnel_sound {tunnel : Option Tunnel} (reliable : (ctx.site accountId names).Reliable)
    (sound : Sound (ctx.site accountId names) calm held stay w) (own : tunnel.toList = (ctx.site accountId names).own w.remote) :
    wp (ensureTunnel ctx accountId tunnel)
      (fun made w' => Sound (ctx.site accountId names) calm (made.tunnel.id :: held) stay w' ∧
        w'.remote.records = w.remote.records ∧ ∀ token, made.token = some token → isConnectorToken token = true)
      (fun _ w' => Sound (ctx.site accountId names) calm held stay w' ∧ ¬ calm) w := by
  cases tunnel with
  | some tunnel =>
      have inside : tunnel ∈ (ctx.site accountId names).own w.remote := own ▸ List.mem_singleton_self tunnel
      refine ⟨⟨sound.tidy, sound.disk, sound.mem, sound.log, fun tunnelId member => ?_, sound.stay, sound.calm⟩, rfl, by simp⟩
      rcases List.mem_cons.mp member with rfl | earlier
      · exact ⟨tunnel, inside, rfl⟩
      · exact sound.held tunnelId earlier
  | none =>
      have first : (ctx.site accountId names).own w.remote = [] := own.symm
      obtain rfl : held = [] := by
        refine List.eq_nil_iff_forall_not_mem.mpr fun tunnelId member => ?_
        obtain ⟨tunnel, inside, -⟩ := sound.held tunnelId member
        simp [first] at inside
      have marked := sound.withMem (sound.mem.insertTunnel { id := none, name := ctx.tunnelName, pending := true }
        (by simp [first]))
      refine wp_bind.mpr (wp_assign.mpr (wp_seq (sound_stable.save_spec marked) ?_ ?_))
      case refine_2 =>
          rintro failure w' ⟨sound', -, uncalm⟩
          exact ⟨sound', fun calm => uncalm (sound.calm calm)⟩
      rintro - w₁ ⟨sound₁, here⟩
      have first₁ : (ctx.site accountId names).own w₁.remote = [] := here ▸ first
      have marker : Marked (ctx.site accountId names) w₁.disk ∧ Marked (ctx.site accountId names) w₁.mem := by
        rw [here]
        exact ⟨AList.lookup_insert _, AList.lookup_insert _⟩
      have records₁ : w₁.remote.records = w.remote.records := by rw [here]; rfl
      refine wp_seq (postTunnel_sound reliable sound₁ first₁ marker.1 marker.2) ?_ ?_
      case refine_2 =>
          rintro failure w' ⟨sound', uncalm⟩
          exact ⟨sound', fun calm => uncalm (sound₁.calm calm)⟩
      rintro made w₂ ⟨sound₂, own₂, records₂, uuid, tokens⟩
      refine wp_bind.mpr (wp_require (fun _ => ?_) fun invalid => absurd (uuid.symm.trans invalid) (by simp))
      have entered := sound₂.withMem (sound₂.mem.insertTunnel (ctx.tunnelEntry made.tunnel.id)
        (by simp [own₂, SavedTunnel.manages, Ctx.tunnelEntry]))
      refine wp_bind.mpr (wp_assign.mpr (wp_seq (sound_stable.save_spec entered) ?_ ?_))
      · rintro - w₃ ⟨sound₃, rfl⟩
        exact ⟨sound₃, records₂.trans records₁, tokens⟩
      · rintro failure w' ⟨sound', -, uncalm⟩
        exact ⟨sound'.weaken (List.nil_subset _) (List.Subset.refl _), fun calm => uncalm (sound₂.calm calm)⟩

/-- The route of the run merges into the configuration of its tunnel. -/
theorem Sound.route {tunnelId : String} (sound : Sound (ctx.site accountId names) calm (tunnelId :: held) stay w)
    (hostname : String) :
    isUuid tunnelId = true ∧ ∃ tunnel config, (ctx.site accountId names).own w.remote = [tunnel] ∧ tunnel.id = tunnelId ∧
      routeOn ctx hostname accountId tunnelId w = some (.ok config) ∧ Routes ctx.origin config.ingress := by
  obtain ⟨tunnel, inside, rfl⟩ := sound.held tunnelId List.mem_cons_self
  have good := sound.tidy.tunnels tunnel inside
  obtain ⟨config, merged, routes⟩ := ingressFor_of_routes hostname good.routes fun managed
    (here : (w.mem.active.filter fun active => active.tunnelId = tunnel.id) = some managed) =>
      sound.mem.active managed (Option.filter_eq_some_iff.mp here).1
  refine ⟨good.uuid, tunnel, config, sound.tidy.own_eq inside, rfl, ?_, routes⟩
  have there : w.remote.tunnel? accountId tunnel.id = some tunnel := good.found
  rw [routeOn, there]
  exact congrArg some merged

/-- The creation of the first record of the hostname. -/
theorem postRecord_sound {tunnelId : String} {zone : Zone} (reliable : (ctx.site accountId names).Reliable)
    (sound : Sound (ctx.site accountId names) calm (tunnelId :: held) stay w) (first : w.remote.recordsOf hostname = [])
    (ok : hostZone ctx.cloud hostname = .ok zone) (comment : String) :
    wp (api ctx (.postRecord zone.id "CNAME" hostname (target tunnelId) true 1 comment))
      (fun record w' => Sound (ctx.site accountId names) calm (tunnelId :: held) (record :: stay) w' ∧
        record.name = hostname ∧ isId record.id = true)
      (fun _ w' => Sound (ctx.site accountId names) calm (tunnelId :: held) stay w' ∧ ¬ w.Calm) w := by
  have valid : isId (ctx.cloud.recordId w.remote.created) = true := reliable.recordId _
  generalize made : ({ id := ctx.cloud.recordId w.remote.created, zoneId := zone.id, type := "CNAME", name := hostname
                       content := target tunnelId, proxied := true, ttl := 1, comment := comment } : DnsRecord) = record
  have serves : serve ctx.cloud (.postRecord zone.id "CNAME" hostname (target tunnelId) true 1 comment) w.remote =
      (some record, w.remote.addRecord record) := by
    rw [← made]
    rfl
  obtain ⟨tunnel, inside, id⟩ := sound.held tunnelId List.mem_cons_self
  have tidy : Tidy (ctx.site accountId names) (w.remote.addRecord record) := by
    subst made
    exact sound.tidy.addRecord first ⟨⟨tunnel, inside, by rw [id]⟩, rfl, rfl, zone, ok, rfl⟩
  have added (answer : Option (Request.postRecord zone.id "CNAME" hostname (target tunnelId) true 1 comment).Answer) :
      Sound (ctx.site accountId names) calm (tunnelId :: held) stay (w.next.record (.postRecord zone.id "CNAME" hostname (target tunnelId) true 1 comment) answer (w.remote.addRecord record)) :=
    (sound_stable.next sound).record answer _ tidy (fun tunnel inside => ⟨tunnel, inside, rfl⟩) sound.held
      fun other inside => List.mem_cons_of_mem _ (sound.stay other inside)
  refine wp_api_answered serves ?_ fun remote' reached => ?_
  · have sound' := added (some record)
    refine ⟨⟨sound'.tidy, sound'.disk, sound'.mem, sound'.log, sound'.held, fun other inside => ?_, sound'.calm⟩, ?_, ?_⟩
    · rcases List.mem_cons.mp inside with rfl | earlier
      · exact List.mem_cons_self
      · exact sound'.stay other earlier
    · rw [← made]
    · rw [← made]
      exact valid
  · rcases reached with rfl | rfl
    · exact (sound_stable.next sound).attempt none
    · exact added none

/-- The record of the run, listed or created. -/
theorem ensureRecord_sound {tunnelId : String} {zone : Zone} {listed : Option DnsRecord}
    (reliable : (ctx.site accountId names).Reliable) (sound : Sound (ctx.site accountId names) calm (tunnelId :: held) stay w)
    (named : hostname ∈ names) (ok : hostZone ctx.cloud hostname = .ok zone)
    (records : listed.toList = w.remote.recordsOf hostname) :
    wp (ensureRecord ctx zone.id hostname tunnelId listed)
      (fun record w' => Sound (ctx.site accountId names) calm (tunnelId :: held) (record :: stay) w' ∧ record.name = hostname)
      (fun _ w' => Sound (ctx.site accountId names) calm (tunnelId :: held) stay w' ∧ ¬ calm) w := by
  cases listed with
  | some record =>
      have member : record ∈ w.remote.recordsOf hostname := records ▸ List.mem_singleton_self record
      obtain ⟨inside, rfl⟩ := mem_recordsOf.mp member
      simp only [ensureRecord, (sound.tidy.records record inside named).proxied, if_true]
      refine ⟨⟨sound.tidy, sound.disk, sound.mem, sound.log, sound.held, fun other member => ?_, sound.calm⟩, rfl⟩
      rcases List.mem_cons.mp member with rfl | earlier
      · exact inside
      · exact sound.stay other earlier
  | none =>
      have marked := sound.withMem (sound.mem.insertRecord (dnsKey zone.id hostname)
        { id := none, zoneId := zone.id, hostname := hostname, tunnelId := tunnelId, owned := true, pending := true } rfl)
      refine wp_bind.mpr (wp_assign.mpr (wp_seq (sound_stable.save_spec marked) ?_ ?_))
      case refine_2 =>
          rintro failure w' ⟨sound', -, uncalm⟩
          exact ⟨sound', fun calm => uncalm (sound.calm calm)⟩
      rintro - w₁ ⟨sound₁, here⟩
      have first₁ : w₁.remote.recordsOf hostname = [] := here ▸ records.symm
      refine wp_seq (postRecord_sound reliable sound₁ first₁ ok _) ?_ ?_
      case refine_2 =>
          rintro failure w' ⟨sound', uncalm⟩
          exact ⟨sound', fun calm => uncalm (sound₁.calm calm)⟩
      rintro record w₂ ⟨sound₂, name, valid⟩
      refine wp_bind.mpr (wp_require (fun _ => ?_) fun invalid => absurd (valid.symm.trans invalid) (by simp))
      have entered := sound₂.withMem (sound₂.mem.insertRecord (dnsKey zone.id hostname)
        { id := some record.id, zoneId := zone.id, hostname := hostname, tunnelId := tunnelId, owned := true, pending := false } rfl)
      refine wp_bind.mpr (wp_assign.mpr (wp_seq (sound_stable.save_spec entered) ?_ ?_))
      · rintro - w₃ ⟨sound₃, -⟩
        exact ⟨sound₃, name⟩
      · rintro failure w' ⟨sound', -, uncalm⟩
        exact ⟨sound'.weaken (List.Subset.refl _) (List.subset_cons_self _ _), fun calm => uncalm (sound₂.calm calm)⟩

/-- The configuration of the device's tunnel. -/
theorem Sound.configure {tunnelId : String} {config : Config} (sound : Sound site calm (tunnelId :: held) stay w)
    (routes : Routes site.origin config.ingress) (answer : Option Unit) :
    Sound site calm (tunnelId :: held) stay (w.record (.putConfig site.accountId tunnelId config) answer
      (w.remote.setConfig site.accountId tunnelId config)) := by
  obtain ⟨tunnel, inside, rfl⟩ := sound.held _ List.mem_cons_self
  have own := sound.tidy.own_eq inside
  obtain ⟨tidy, own'⟩ := sound.tidy.setConfig own routes
  refine sound.record _ _ tidy (fun tunnel' inside' => ⟨tunnel, inside, ?_⟩) (fun tunnelId member => ?_) sound.stay
  · rw [own', List.mem_singleton] at inside'
    rw [inside']
  · obtain ⟨earlier, inside', id⟩ := sound.held tunnelId member
    rw [own, List.mem_singleton] at inside'
    exact ⟨_, own' ▸ List.mem_singleton_self _, by rw [← id, inside']⟩

/-- The publication of the route keeps the routes of the tunnel to the local service. -/
theorem publish_sound {active : Active} {config : Config} {token : String}
    (sound : Sound (ctx.site active.accountId names) calm (active.tunnelId :: held) stay w)
    (origin : active.origin = ctx.origin) (routes : Routes ctx.origin config.ingress) :
    wp (publish ctx active config token)
      (fun _ w' => Sound (ctx.site active.accountId names) calm (active.tunnelId :: held) stay w')
      (fun _ w' => Sound (ctx.site active.accountId names) calm (active.tunnelId :: held) stay w' ∧ ¬ calm) w := by
  refine wp_mono (sound_stable.publish_spec sound ?_ fun sound' => ?_) (fun _ _ done => done) ?_
  · intro w' answer remote _ sound' reached
    rcases reached with rfl | rfl
    · exact sound'.attempt answer
    · exact sound'.configure routes answer
  · refine sound'.withMem ⟨sound'.mem.tunnel, fun active' same => ?_, sound'.mem.keys⟩
    cases same
    exact origin
  · rintro failure w' ⟨sound', -, missing⟩
    refine ⟨sound', fun calm => ?_⟩
    obtain ⟨tunnel, inside, id⟩ := sound.held _ List.mem_cons_self
    have there : w.remote.tunnel? active.accountId tunnel.id = some tunnel := (sound.tidy.tunnels tunnel inside).found
    rw [id, missing (sound.calm calm)] at there
    cases there

/-- Whatever becomes of its calls, a run keeps the account tidy. It ends with its tunnel
and record in place unless a call failed or its hostname has no zone. -/
theorem deploy_sound (settings : Settings) (reliable : (ctx.site accountId names).Reliable) (named : settings.hostname ∈ names)
    (sound : Sound (ctx.site accountId names) calm held stay w) (same : ∀ record ∈ stay, record.name = settings.hostname) :
    wp (deploy ctx settings)
      (fun result w' => ∃ record, record.name = settings.hostname ∧
        Sound (ctx.site accountId names) calm (result.tunnelId :: held) (record :: stay) w')
      (fun _ w' => Sound (ctx.site accountId names) calm held stay w' ∧
        (calm → ∀ zone, hostZone ctx.cloud settings.hostname ≠ .ok zone)) w := by
  refine wp_seq (survey_sound sound reliable) ?_ fun _ _ fails => fails
  rintro found w₁ ⟨sound₁, seen, rfl, own₁⟩
  have settled := sound₁.settled named seen own₁
  refine wp_seq (sound_stable.reconcileTunnel_spec sound₁ ?_) ?_ ?_
  · intro tunnel here _
    refine sound₁.withMem (sound₁.mem.insertTunnel (ctx.tunnelEntry tunnel.id) fun other inside => ?_)
    rw [here] at own₁
    rw [← own₁, Option.mem_toList, Option.some.injEq] at inside
    simp [SavedTunnel.manages, Ctx.tunnelEntry, inside]
  case refine_3 =>
      rintro failure w' ⟨sound', -, -, fails⟩
      refine ⟨sound', fun calm => ?_⟩
      rw [fails (sound₁.calm calm)] at settled
      cases settled
  rintro - w₂ ⟨sound₂, -, remote₂, -⟩
  obtain ⟨listed, matched, records₁⟩ := sound₁.matchingDns named seen own₁
  refine wp_bind.mpr (wp_lift (fun listed' matched' => ?_) fun failure fails => ?_)
  case refine_2 => cases fails.symm.trans matched
  obtain rfl : listed' = listed := Except.ok.inj (matched'.symm.trans matched)
  refine wp_seq (sound_stable.progress_spec sound₂) ?_ ?_
  case refine_2 =>
      rintro failure w' ⟨sound', -, uncalm⟩
      exact ⟨sound', fun calm => absurd (sound₂.calm calm) uncalm⟩
  rintro - w₃ ⟨sound₃, rfl⟩
  refine wp_seq (ensureTunnel_sound reliable sound₃ ?_) ?_ ?_
  case refine_1 => exact own₁.trans (congrArg _ remote₂.symm)
  case refine_3 =>
      rintro failure w' ⟨sound', uncalm⟩
      exact ⟨sound', fun calm => absurd calm uncalm⟩
  rintro made w₄ ⟨sound₄, records₄, tokens⟩
  have fewer : held ⊆ made.tunnel.id :: held := List.subset_cons_self _ _
  obtain ⟨uuid, tunnel, config, own₄, id₄, route, routes⟩ := sound₄.route settings.hostname
  refine wp_seq (sound_stable.prepareRoute_spec sound₄) ?_ ?_
  case refine_2 =>
      rintro failure w' ⟨sound', -, fails⟩
      exact ⟨sound'.weaken fewer (List.Subset.refl _),
        fun calm => absurd route (fails (sound₄.calm calm) uuid tokens (reliable.token _) config)⟩
  rintro ⟨config', token⟩ w₅ ⟨sound₅, same₅, route'⟩
  obtain rfl : config = config' := by
    rw [route] at route'
    exact Except.ok.inj (Option.some.inj route')
  refine wp_seq (sound_stable.progress_spec sound₅) ?_ ?_
  case refine_2 =>
      rintro failure w' ⟨sound', -, uncalm⟩
      exact ⟨sound'.weaken fewer (List.Subset.refl _), fun calm => absurd (sound₅.calm calm) uncalm⟩
  rintro - w₆ ⟨sound₆, rfl⟩
  refine wp_seq (sound_stable.adoptRecord_spec sound₆ ?_) ?_ ?_
  case refine_1 =>
      intro record saved _ entry _
      have place := sound₆.mem.keys entry
      exact sound₆.withMem (sound₆.mem.insertRecord _ _ place)
  case refine_3 =>
      rintro failure w' ⟨sound', -, uncalm⟩
      exact ⟨sound'.weaken fewer (List.Subset.refl _), fun calm => absurd (sound₆.calm calm) uncalm⟩
  rintro - w₇ ⟨sound₇, remote₇⟩
  have records₇ : listed'.toList = w₇.remote.recordsOf settings.hostname := by
    have unchanged : w₇.remote.records = w₁.remote.records := by
      rw [remote₇]
      exact (congrArg Remote.records same₅.remote).trans (records₄.trans (congrArg Remote.records remote₂))
    rw [records₁, Remote.recordsOf, Remote.recordsOf, unchanged]
  refine wp_seq (ensureRecord_sound reliable sound₇ named seen.zone records₇) ?_ ?_
  case refine_2 =>
      rintro failure w' ⟨sound', uncalm⟩
      exact ⟨sound'.weaken fewer (List.Subset.refl _), fun calm => absurd calm uncalm⟩
  rintro record w₈ ⟨sound₈, name⟩
  refine wp_seq (publish_sound sound₈ rfl routes) ?_ ?_
  case refine_2 =>
      rintro failure w' ⟨sound', uncalm⟩
      exact ⟨sound'.weaken fewer (List.subset_cons_self _ _), fun calm => absurd calm uncalm⟩
  rintro - w₉ sound₉
  have keys : ∀ other ∈ record :: stay, dnsKey found.zone.id settings.hostname = dnsKey other.zoneId other.name := by
    intro other member
    have name' : other.name = settings.hostname := by
      rcases List.mem_cons.mp member with rfl | earlier
      · exact name
      · exact same other earlier
    obtain ⟨zone, ok, there⟩ := (sound₉.tidy.records other (sound₉.stay other member) (name' ▸ named)).zone
    rw [name'] at ok
    rw [there, name', Except.ok.inj (seen.zone.symm.trans ok)]
  refine wp_seq ((sound_sweeps keys).cleanUp_spec sound₉) ?_ fun _ _ fails => fails.elim
  intro warnings w₁₀ sound₁₀
  refine wp_mono (sound_stable.finish_spec sound₁₀) ?_ ?_
  · rintro result w₁₁ ⟨sound₁₁, id⟩
    exact ⟨record, name, id ▸ sound₁₁⟩
  · rintro failure w' ⟨sound', -, uncalm⟩
    exact ⟨sound'.weaken fewer (List.subset_cons_self _ _), fun calm => absurd (sound₁₀.calm calm) uncalm⟩

/-! ## Histories -/

/-- The run is one of the device, on a hostname of the site. -/
structure Run.At (run : Run) (site : Site) : Prop where
  same : run.ctx.site site.accountId site.names = site
  named : run.settings.hostname ∈ site.names

theorem Sound.restart (sound : Sound site False [] [] w) (outcomes : List Outcome) (held : List String) (stay : List DnsRecord)
    (present : ∀ tunnelId ∈ held, ∃ tunnel ∈ site.own w.remote, tunnel.id = tunnelId)
    (present' : ∀ record ∈ stay, record ∈ w.remote.records) :
    Sound site (∀ outcome ∈ outcomes, outcome = .served) held stay (w.restart outcomes) :=
  ⟨sound.tidy, sound.disk, sound.disk, sound.log, present, present', id⟩

theorem Run.sound (run : Run) (here : run.At site) (reliable : site.Reliable) (sound : Sound site False [] [] w) :
    Sound site False [] [] (run.after w) := by
  have reliable' := here.same.symm ▸ reliable
  have start := sound.restart run.outcomes [] [] (by simp) (by simp)
  rw [← here.same] at start
  have spec := deploy_sound run.settings reliable' here.named start (by simp)
  rw [here.same] at spec
  refine finalState_of_wp (wp_mono spec ?_ ?_)
  · rintro result w' ⟨record, -, sound'⟩
    exact { sound'.weaken (List.nil_subset _) (List.nil_subset _) with calm := False.elim }
  · rintro failure w' ⟨sound', -⟩
    exact { sound' with calm := False.elim }

theorem history_sound (reliable : site.Reliable) (runs : List Run) (here : ∀ run ∈ runs, run.At site)
    (sound : Sound site False [] [] w) : Sound site False [] [] (runs.foldl (fun w run => run.after w) w) := by
  induction runs generalizing w with
  | nil => exact sound
  | cons run runs ih =>
      exact ih (fun run inside => here run (List.mem_cons_of_mem _ inside))
        (run.sound (here run List.mem_cons_self) reliable sound)

/-! ## Hostnames that can be deployed -/

/-- `label.parent` is one level below an active zone, and is not one itself. -/
structure FirstLevel (cloud : Cloud) (label parent : String) : Prop where
  nonempty : label ≠ ""
  undotted : '.' ∉ label.toList
  dotted : '.' ∈ parent.toList
  active : ∃ zone ∈ cloud.zonesNamed parent, zone.status = "active"
  proper : ∀ zone ∈ cloud.zonesNamed (label ++ "." ++ parent), zone.status ≠ "active"

theorem parentDomain_eq {label parent : List Char} (nonempty : label ≠ []) (undotted : '.' ∉ label) :
    parentDomain (label ++ '.' :: parent) = parent := by
  have dropped : (label ++ '.' :: parent).dropWhile (· != '.') = '.' :: parent := by
    rw [List.dropWhile_append_of_pos fun c inside => by simpa using fun (same : c = '.') => undotted (same ▸ inside)]
    simp
  cases label with
  | nil => contradiction
  | cons c rest =>
      have head : c ≠ '.' := fun same => undotted (same ▸ List.mem_cons_self)
      rw [parentDomain, if_neg (by simpa using head), dropped, List.tail_cons]

theorem candidates_cons {candidate : List Char} (dotted : '.' ∈ candidate) :
    candidates candidate = String.ofList candidate :: candidates (parentDomain candidate) := by
  rw [candidates, dif_pos dotted]

theorem hostZone_of_firstLevel {label parent : String} (reliable : site.Reliable) (first : FirstLevel site.cloud label parent) :
    ∃ zone, hostZone site.cloud (label ++ "." ++ parent) = .ok zone := by
  have chars : (label ++ "." ++ parent).toList = label.toList ++ '.' :: parent.toList := by
    simp [String.toList_append]
  have names : candidates (label ++ "." ++ parent).toList =
      (label ++ "." ++ parent) :: parent :: candidates (parentDomain parent.toList) := by
    have nonempty : label.toList ≠ [] := fun none => first.nonempty (String.toList_eq_nil_iff.mp none)
    rw [candidates_cons (by simp [chars]), String.ofList_toList, chars, parentDomain_eq nonempty first.undotted,
      candidates_cons first.dotted, String.ofList_toList]
  have unzoned : (site.cloud.zonesNamed (label ++ "." ++ parent)).find? (isActive (label ++ "." ++ parent)) = none := by
    refine List.find?_eq_none.mpr fun zone inside => ?_
    simp [isActive, first.proper zone inside]
  obtain ⟨zone, found⟩ : ∃ zone, (site.cloud.zonesNamed parent).find? (isActive parent) = some zone := by
    obtain ⟨zone, inside, active⟩ := first.active
    have name : zone.name = parent := by simpa using List.of_mem_filter (List.mem_of_mem_take inside)
    exact Option.isSome_iff_exists.mp (List.find?_isSome.mpr ⟨zone, inside, by simp [isActive, name, active]⟩)
  obtain ⟨name, active⟩ : zone.name = parent ∧ zone.status = "active" := by
    simpa [isActive] using List.find?_some found
  have inside := List.mem_of_mem_filter (List.mem_of_mem_take (List.mem_of_find?_eq_some found))
  obtain ⟨valid, account⟩ := reliable.zones zone inside active
  refine ⟨zone, ?_⟩
  have proper : label ++ "." ++ parent ≠ zone.name := by
    intro same
    have lengths := congrArg (fun name : String => name.toList.length) (same.trans name)
    simp only [chars, List.length_append, List.length_cons] at lengths
    omega
  have start : (label ++ "." ++ parent).toList.take
      ((label ++ "." ++ parent).toList.length - zone.name.toList.length - 1) = label.toList := by
    have length : (label.toList ++ '.' :: parent.toList).length - parent.toList.length - 1 = label.toList.length := by
      rw [List.length_append, List.length_cons]
      omega
    rw [chars, name, length, List.take_left]
  unfold hostZone
  simp only [names, zoneOf, unzoned, found, acceptZone, start]
  rw [if_neg (by simp [valid, account, reliable.account]), if_neg proper, if_neg first.undotted]

/-! ## Retrying -/

/-- The world after the runs of a device whose state is empty at first. -/
def history (runs : List Run) (remote : Remote) : World := runs.foldl (fun w run => run.after w) (.initial remote)

/-- A run in which no call fails succeeds and ends with one tunnel and one record, those
that were there before if there were any. -/
theorem Run.succeeds (run : Run) (here : run.At site) (reliable : site.Reliable) (sound : Sound site False [] [] w)
    {zone : Zone} (ok : hostZone site.cloud run.settings.hostname = .ok zone)
    (calm : ∀ outcome ∈ run.outcomes, outcome = .served) :
    ∃ result w' tunnel record, deploy run.ctx run.settings (w.restart run.outcomes) = .ok result w' ∧
      site.own w'.remote = [tunnel] ∧ tunnel.id = result.tunnelId ∧ w'.remote.recordsOf run.settings.hostname = [record] ∧
      (∀ earlier ∈ site.own w.remote, earlier.id = tunnel.id) ∧
      ∀ earlier ∈ w.remote.recordsOf run.settings.hostname, earlier = record := by
  have reliable' := here.same.symm ▸ reliable
  have start := sound.restart run.outcomes ((site.own w.remote).map Tunnel.id) (w.remote.recordsOf run.settings.hostname)
    (by simp) fun record inside => (mem_recordsOf.mp inside).1
  rw [← here.same] at start
  have spec := deploy_sound run.settings reliable' here.named start fun record inside => (mem_recordsOf.mp inside).2
  rw [here.same] at spec
  cases outcome : deploy run.ctx run.settings (w.restart run.outcomes) with
  | error failure w' =>
      have cloud : run.ctx.cloud = site.cloud := congrArg Site.cloud here.same
      exact absurd ok (cloud ▸ (wp_failed spec outcome).2 calm zone)
  | ok result w' =>
      obtain ⟨record, name, sound'⟩ := wp_done spec outcome
      obtain ⟨tunnel, inside, id⟩ := sound'.held _ List.mem_cons_self
      have own := sound'.tidy.own_eq inside
      have records := sound'.tidy.recordsOf_eq (sound'.stay record List.mem_cons_self) (name ▸ here.named)
      rw [name] at records
      refine ⟨result, w', tunnel, record, rfl, own, id, records, fun earlier member => ?_, fun earlier member => ?_⟩
      · obtain ⟨still, inside', id'⟩ := sound'.held earlier.id (List.mem_cons_of_mem _ (List.mem_map_of_mem member))
        rw [own, List.mem_singleton] at inside'
        rw [← id', inside']
      · have still := mem_recordsOf.mpr ⟨sound'.stay earlier (List.mem_cons_of_mem _ member), (mem_recordsOf.mp member).2⟩
        rw [records, List.mem_singleton] at still
        exact still

theorem sound_initial (unmade : site.own remote = []) (unnamed : ∀ record ∈ remote.records, record.name ∉ site.names) :
    Sound site False [] [] (.initial remote) := by
  have single : AtMostOne site remote := by
    refine ⟨by simp [unmade], fun hostname named => ?_⟩
    have none : remote.recordsOf hostname = [] :=
      List.filter_eq_nil_iff.mpr fun record inside same => unnamed record inside (of_decide_eq_true same ▸ named)
    simp [none]
  have recalls : Recalls site remote .empty :=
    ⟨by simp [unmade], by simp [SavedState.empty], fun entry => by cases entry⟩
  have tidy : Tidy site remote :=
    ⟨single, by simp [unmade], fun record inside named => absurd named (unnamed record inside)⟩
  exact ⟨tidy, recalls, recalls, by simp [World.initial], by simp, by simp, False.elim⟩

/-- From an account without the device's tunnel and without records of its hostnames, and
whatever becomes of the calls: there never are two tunnels or two records of a hostname,
and a run of a first-level hostname in which no call fails succeeds with what there is. -/
theorem deploy_retry_safe (site : Site) (reliable : site.Reliable) (remote : Remote) (unmade : site.own remote = [])
    (unnamed : ∀ record ∈ remote.records, record.name ∉ site.names) (runs : List Run) (here : ∀ run ∈ runs, run.At site) :
    AtMostOne site remote ∧ (∀ event ∈ (history runs remote).log, AtMostOne site event.remote) ∧
      AtMostOne site (history runs remote).remote ∧
      ∀ (run : Run) (label parent : String), run.At site → run.settings.hostname = label ++ "." ++ parent →
        FirstLevel site.cloud label parent → (∀ outcome ∈ run.outcomes, outcome = .served) →
        ∃ result w' tunnel record,
          deploy run.ctx run.settings ((history runs remote).restart run.outcomes) = .ok result w' ∧
            site.own w'.remote = [tunnel] ∧ tunnel.id = result.tunnelId ∧
            w'.remote.recordsOf run.settings.hostname = [record] ∧
            (∀ earlier ∈ site.own (history runs remote).remote, earlier.id = tunnel.id) ∧
            ∀ earlier ∈ (history runs remote).remote.recordsOf run.settings.hostname, earlier = record := by
  have sound := history_sound reliable runs here (sound_initial unmade unnamed)
  refine ⟨(sound_initial unmade unnamed).tidy.single, sound.log, sound.tidy.single, fun run label parent here' same first calm => ?_⟩
  obtain ⟨zone, ok⟩ := hostZone_of_firstLevel reliable first
  exact run.succeeds here' reliable sound (same ▸ ok) calm

theorem numbered_mod (start : String) (n : ℕ) : numbered start (n % 16) = numbered start n := by
  rw [numbered, numbered, Nat.mod_mod]

/-- The account of the fixture, with the hostnames to deploy. -/
def fixtureSite : Site := fixture.site "22222222222222222222222222222222" ["router.example.com", "router.deep.example.com"]

theorem fixtureSite_reliable : fixtureSite.Reliable where
  zones := by decide +kernel
  account := by decide +kernel
  tunnelId := fun n => by
    have valid : ∀ digit < 16, isUuid (numbered "00000000-0000-4000-8000-00000000000" digit) = true := by decide +kernel
    have last := valid (n % 16) (Nat.mod_lt n (by decide))
    rwa [numbered_mod] at last
  recordId := fun n => by
    have valid : ∀ digit < 16, isId (numbered "0000000000000000000000000000000" digit) = true := by decide +kernel
    have last := valid (n % 16) (Nat.mod_lt n (by decide))
    rwa [numbered_mod] at last
  issued := by
    rintro n token same
    cases same
    decide +kernel
  token := fun _ => (by decide +kernel : isConnectorToken "connector-token" = true)

def vacant : Remote := { tunnels := [], records := [], created := 0 }

/-- A run whose creation of the tunnel loses its answer. -/
def interrupted : Run := fixture.run "router.example.com" (List.replicate 8 .served ++
  [.lost { code := .network, message := "response lost after create", not_conflict := network_ne_conflict }])

theorem deploy_retry_safe_interrupted :
    ∃ result w' tunnel record,
      deploy fixture (fixture.run "router.example.com" []).settings ((history [interrupted] vacant).restart []) = .ok result w' ∧
        fixtureSite.own w'.remote = [tunnel] ∧ w'.remote.recordsOf "router.example.com" = [record] := by
  have interruptedAt : interrupted.At fixtureSite := ⟨rfl, by decide +kernel⟩
  obtain ⟨-, -, -, succeeds⟩ := deploy_retry_safe fixtureSite fixtureSite_reliable vacant rfl (by simp [vacant])
    [interrupted] (by simpa using interruptedAt)
  obtain ⟨result, w', tunnel, record, returns, own, -, records, -⟩ :=
    succeeds (fixture.run "router.example.com" []) "router" "example.com" ⟨rfl, by decide +kernel⟩ (by decide +kernel)
      ⟨by decide, by decide, by decide, by decide +kernel, by decide +kernel⟩ (by simp [Ctx.run])
  exact ⟨result, w', tunnel, record, returns, own, records⟩

/-- A hostname more than one level below its zone lies inside an active zone, and its
deployment fails although no call does. -/
theorem deep_hostname_is_refused :
    ¬ ∀ (site : Site) (remote : Remote) (run : Run), site.Reliable → site.own remote = [] →
        (∀ record ∈ remote.records, record.name ∉ site.names) → run.At site →
        (∃ zone ∈ site.cloud.zones, zone.status = "active" ∧ ∃ labels, run.settings.hostname = labels ++ "." ++ zone.name) →
        (∀ outcome ∈ run.outcomes, outcome = .served) →
        ∃ result w', deploy run.ctx run.settings ((history [] remote).restart run.outcomes) = .ok result w' := by
  intro claim
  obtain ⟨result, w', returns⟩ := claim fixtureSite vacant (fixture.run "router.deep.example.com" []) fixtureSite_reliable rfl
    (by simp [vacant]) ⟨rfl, by decide +kernel⟩
    ⟨_, List.mem_cons_self, rfl, "router.deep", by decide +kernel⟩ (by simp [Ctx.run])
  have raises : raised? (deploy fixture (fixture.run "router.deep.example.com" []).settings) ((history [] vacant).restart []) =
      some ⟨.certificate, "Use a first-level subdomain for a free certificate, such as abc.example.com."⟩ := by
    decide +kernel
  cases (eq_error_of_raised? raises).symm.trans returns

end XWrt.CloudflareTunnel
