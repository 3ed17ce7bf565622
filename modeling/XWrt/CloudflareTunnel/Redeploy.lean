import Mathlib.Data.List.Chain
import XWrt.CloudflareTunnel.Published
import XWrt.CloudflareTunnel.Retry

/-!
# Redeploying

Deployments of one device on an account nobody else edits, all their calls
served, with any hostnames and any origins. Between two of them the tunnel has
one route, the recorded one. The next deployment takes it over, except where it
keeps the hostname and changes the origin: the merge then compares the route
with the new origin and not with the recorded one.
-/

namespace XWrt.CloudflareTunnel

open Foundation

variable {site : Site} {remote : Remote} {ctx : Ctx} {w w' : World} {hostname origin : String}
variable {active : Option Active} {tunnels : List Tunnel}

/-! ## The recorded route -/

/-- The routes of the tunnels are the recorded one, and it is there. -/
structure Current (tunnels : List Tunnel) (active : Option Active) : Prop where
  route : ∀ managed, active = some managed → ∃ tunnel ∈ tunnels, managed.tunnelId = tunnel.id ∧
    ∃ rule ∈ tunnel.config.ingress, rule.hostname = some managed.hostname ∧ rule.service = some managed.origin
  rules : ∀ tunnel ∈ tunnels, ∀ rule ∈ tunnel.config.ingress, ∀ name, rule.hostname = some name →
    ∃ managed, active = some managed ∧ managed.hostname = name ∧ rule.service = some managed.origin

/-- The hostname has a zone, and is not the recorded one with another origin. -/
structure Admits (ctx : Ctx) (active : Option Active) (hostname : String) : Prop where
  zone : ∃ zone, hostZone ctx.cloud hostname = .ok zone
  origin : ∀ managed, active = some managed → managed.hostname = hostname → managed.origin = ctx.origin

/-- The only tunnel is the one of the recorded route. -/
theorem Current.filter {tunnel : Tunnel} (current : Current [tunnel] active) :
    (active.filter fun managed => managed.tunnelId = tunnel.id) = active := by
  cases recorded : active with
  | none => rfl
  | some managed =>
      obtain ⟨other, inside, id, -⟩ := current.route managed recorded
      rw [List.mem_singleton] at inside
      rw [Option.filter_some, if_pos (by simpa [inside] using id)]

theorem Current.merges_iff {tunnel : Tunnel} (current : Current [tunnel] active) :
    (∃ merged, ingressFor tunnel.config hostname origin active = .ok merged) ↔
      ∀ managed, active = some managed → managed.hostname = hostname → managed.origin = origin := by
  rw [ingressFor_ok_iff]
  constructor
  · intro agrees managed recorded same
    obtain ⟨other, inside, -, rule, member, named, service⟩ := current.route managed recorded
    rw [List.mem_singleton.mp inside] at member
    have leads := agrees rule member _ named
    rw [if_pos same, service] at leads
    exact Option.some.inj leads
  · intro same rule member name named
    obtain ⟨managed, recorded, rfl, service⟩ := current.rules tunnel (List.mem_singleton_self _) rule member name named
    split_ifs with requested
    · rw [service, same managed recorded requested]
    · intro managed' recorded' _
      rw [service, Option.some.inj (recorded.symm.trans recorded')]

/-- After the merge the only route is the new one. -/
theorem Current.merged {tunnel : Tunnel} {config : Config} (current : Current [tunnel] active)
    (merged : ingressFor tunnel.config hostname origin active = .ok config) :
    routeRule hostname origin ∈ config.ingress ∧
      ∀ rule ∈ config.ingress, ∀ name, rule.hostname = some name → name = hostname ∧ rule.service = some origin := by
  rw [ingressFor_rules merged]
  constructor
  · simp [mergedRules]
  · intro rule inside name named
    rcases named_mergedRules inside named with rfl | ⟨earlier, stayed⟩
    · exact ⟨(Option.some.inj named).symm, rfl⟩
    · -- Every rule with a hostname was the recorded route, which does not stay.
      obtain ⟨managed, recorded, same, -⟩ := current.rules tunnel (List.mem_singleton_self _) rule earlier name named
      simp [stays, named, recorded, same] at stayed

/-- Both copies of the state record the route of the device's tunnel. -/
structure UpToDate (site : Site) (active : Option Active) (w : World) : Prop where
  current : Current (site.own w.remote) active
  disk : w.disk.active = active
  mem : w.mem.active = active

theorem UpToDate.congr (upToDate : UpToDate site active w) (own : site.own w'.remote = site.own w.remote)
    (disk : w'.disk.active = w.disk.active ∨ w'.disk.active = w.mem.active) (mem : w'.mem.active = w.mem.active) :
    UpToDate site active w' where
  current := own ▸ upToDate.current
  disk := by
    rcases disk with kept | saved
    · exact kept.trans upToDate.disk
    · exact saved.trans upToDate.mem
  mem := mem.trans upToDate.mem

theorem upToDate_sweeps (site : Site) (active : Option Active) (key : String) : Sweeps key (UpToDate site active) where
  next := fun upToDate => upToDate.congr rfl (.inl rfl) rfl
  shown := fun _ upToDate => upToDate.congr rfl (.inl rfl) rfl
  connector := fun _ upToDate => upToDate.congr rfl (.inl rfl) rfl
  read := fun _ _ upToDate => upToDate.congr rfl (.inl rfl) rfl
  saved := fun upToDate => upToDate.congr rfl (.inr rfl) rfl
  checked := fun _ _ _ upToDate => upToDate.congr rfl (.inl rfl) rfl
  found := fun upToDate _ _ _ _ _ => upToDate.congr rfl (.inl rfl) rfl
  removed := by
    intro w oldKey old recordId existing answer remote upToDate _ _ _ _ _ _ reached
    refine upToDate.congr ?_ (.inl rfl) rfl
    rcases reached with rfl | rfl <;> rfl
  forgotten := fun upToDate _ => upToDate.congr rfl (.inl rfl) rfl

theorem upToDate_stable (site : Site) (active : Option Active) : Stable (UpToDate site active) :=
  (upToDate_sweeps site active "").toStable

/-- A new tunnel has no rules. -/
theorem Current.addTunnel {tunnel : Tunnel} (current : Current (site.own remote) active) (blank : tunnel.config.ingress = []) :
    Current (site.own (remote.addTunnel tunnel)) active where
  route := by
    intro managed recorded
    obtain ⟨earlier, inside, rest⟩ := current.route managed recorded
    obtain ⟨member, named⟩ := mem_own.mp inside
    exact ⟨earlier, mem_own.mpr ⟨List.mem_cons_of_mem _ member, named⟩, rest⟩
  rules := by
    intro other inside rule member
    obtain ⟨listed, named⟩ := mem_own.mp inside
    rcases List.mem_cons.mp listed with rfl | earlier
    · rw [blank] at member
      cases member
    · exact current.rules other (mem_own.mpr ⟨earlier, named⟩) rule member

variable {accountId : String} {names : List String}

theorem ensureTunnel_upToDate {tunnel : Option Tunnel} (upToDate : UpToDate site active w) :
    wp (ensureTunnel ctx accountId tunnel) (fun _ w' => UpToDate site active w') (fun _ w' => UpToDate site active w') w := by
  apply (upToDate_stable site active).ensureTunnel_spec upToDate
  · exact fun saved upToDate => upToDate.congr rfl (.inl rfl) rfl
  · intro w answer remote upToDate reached
    rcases reached with rfl | rfl
    · exact upToDate.congr rfl (.inl rfl) rfl
    · exact ⟨upToDate.current.addTunnel rfl, upToDate.disk, upToDate.mem⟩

theorem ensureRecord_upToDate {zoneId tunnelId : String} {listed : Option DnsRecord} (upToDate : UpToDate site active w) :
    wp (ensureRecord ctx zoneId hostname tunnelId listed) (fun _ w' => UpToDate site active w')
      (fun _ w' => UpToDate site active w') w := by
  apply (upToDate_stable site active).ensureRecord_spec upToDate
  · exact fun upToDate => upToDate.congr rfl (.inl rfl) rfl
  · intro w type name comment answer remote upToDate reached
    refine upToDate.congr ?_ (.inl rfl) rfl
    rcases reached with rfl | rfl <;> rfl
  · exact fun upToDate _ _ _ _ => upToDate.congr rfl (.inl rfl) rfl
  · intro w recordId saved answer remote upToDate _ _ _ reached
    refine upToDate.congr ?_ (.inl rfl) rfl
    rcases reached with rfl | rfl <;> rfl

/-! ## The publication -/

/-- The world after a publication in which every call is served. -/
structure Publishes (managed : Active) (config : Config) (w w' : World) : Prop where
  remote : w'.remote = w.remote.setConfig managed.accountId managed.tunnelId config
  mem : w'.mem = { w.mem with active := some managed }
  disk : w'.disk = { w.mem with active := some managed }
  log : w'.log = w.log ++ [(⟨.putConfig managed.accountId managed.tunnelId config, some (), w.mem, w'.remote⟩ : Event)]
  calm : w'.Calm

theorem publish_calm {managed : Active} {config : Config} {token : String} (calm : w.Calm)
    (there : w.remote.tunnel? managed.accountId managed.tunnelId ≠ none) :
    wp (publish ctx managed config token) (fun _ w' => Publishes managed config w w') (fun _ _ => False) w := by
  unfold publish
  apply wp_bind.mpr
  apply wp_progress
  case broken => exact fun _ _ uncalm => uncalm calm
  apply wp_bind.mpr
  apply wp_api
  case broken =>
      intro failure remote _ _ missing
      have gone := missing calm.next
      simp only [serve, Option.map_eq_none_iff] at gone
      exact there gone
  intro answer served
  apply wp_bind.mpr
  apply wp_progress
  case broken => exact fun _ _ uncalm => uncalm calm.next.next
  apply wp_bind.mpr
  refine wp_call rfl ?_ fun _ _ uncalm _ => uncalm calm.next.next.next
  apply wp_bind.mpr
  apply wp_assign.mpr
  apply wp_save
  case broken => exact fun _ _ uncalm _ => uncalm calm.next.next.next.next
  exact ⟨rfl, rfl, rfl, rfl, calm.next.next.next.next.next⟩

theorem Remote.setConfig_setConfig (remote : Remote) (accountId tunnelId : String) (first second : Config) :
    (remote.setConfig accountId tunnelId first).setConfig accountId tunnelId second =
      remote.setConfig accountId tunnelId second := by
  have configured (tunnel : Tunnel) :
      (tunnel.configured accountId tunnelId first).configured accountId tunnelId second =
        tunnel.configured accountId tunnelId second := by
    by_cases here : tunnel.accountId = accountId ∧ tunnel.id = tunnelId <;> simp [Tunnel.configured, here]
  simp [setConfig, Function.comp_def, configured]

/-- The origin only counts for the routes. -/
theorem Tidy.toward (tidy : Tidy site remote) (routes : ∀ tunnel ∈ site.own remote, Routes origin tunnel.config.ingress) :
    Tidy { site with origin := origin } remote where
  single := ⟨tidy.single.tunnel, tidy.single.record⟩
  tunnels := fun tunnel own =>
    have sound := tidy.tunnels tunnel own
    ⟨sound.found, sound.uuid, sound.remotely, routes tunnel own⟩
  records := fun record inside named =>
    have sound := tidy.records record inside named
    ⟨sound.content, sound.type, sound.proxied, sound.zone⟩

/-- The device's tunnel with a configuration for another origin: it is as if its rules were removed first. -/
theorem Tidy.reroute {tunnel : Tunnel} {config : Config} (tidy : Tidy site remote) (own : site.own remote = [tunnel])
    (routes : Routes origin config.ingress) :
    Tidy { site with origin := origin } (remote.setConfig site.accountId tunnel.id config) ∧
      site.own (remote.setConfig site.accountId tunnel.id config) = [{ tunnel with config := config }] := by
  have clear : Routes site.origin ({ ingress := [] } : Config).ingress := by simp [Routes]
  obtain ⟨cleared, own'⟩ := tidy.setConfig own clear
  have toward : Tidy { site with origin := origin } (remote.setConfig site.accountId tunnel.id { ingress := [] }) :=
    cleared.toward (by simp [own', Routes])
  have again := toward.setConfig own' routes
  rwa [Remote.setConfig_setConfig] at again

variable {calm : Prop} {held : List String} {stay : List DnsRecord}

theorem Sound.published {managed : Active} {tunnel : Tunnel} {config : Config} (sound : Sound site True held stay w)
    (own : site.own w.remote = [tunnel]) (account : managed.accountId = site.accountId) (id : managed.tunnelId = tunnel.id)
    (routes : Routes managed.origin config.ingress) (publishes : Publishes managed config w w') :
    Sound { site with origin := managed.origin } True [] [] w' := by
  obtain ⟨remote, mem, disk, log, calm⟩ := publishes
  rw [account, id] at remote
  obtain ⟨tidy, own'⟩ := sound.tidy.reroute own routes
  rw [← remote] at tidy own'
  have recalls : Recalls { site with origin := managed.origin } w'.remote { w.mem with active := some managed } := by
    constructor
    · intro tunnel' inside
      obtain ⟨saved, entry, manages⟩ := sound.mem.tunnel tunnel (own ▸ List.mem_singleton_self _)
      obtain rfl : tunnel' = { tunnel with config := config } := List.mem_singleton.mp (own' ▸ inside)
      exact ⟨saved, entry, manages⟩
    · rintro active' same
      cases same
      rfl
    · exact sound.mem.keys
  refine ⟨tidy, disk ▸ recalls, mem ▸ recalls, ?_, by simp, by simp, fun _ => calm⟩
  intro event inside
  rw [log] at inside
  rcases List.mem_append.mp inside with earlier | last
  · have single := sound.log event earlier
    exact ⟨single.tunnel, single.record⟩
  · rw [List.mem_singleton.mp last]
    exact tidy.single

theorem UpToDate.published {managed : Active} {tunnel : Tunnel} {config : Config} (tidy : Tidy site w.remote)
    (own : site.own w.remote = [tunnel]) (account : managed.accountId = site.accountId) (id : managed.tunnelId = tunnel.id)
    (route : routeRule managed.hostname managed.origin ∈ config.ingress)
    (only : ∀ rule ∈ config.ingress, ∀ name, rule.hostname = some name →
      name = managed.hostname ∧ rule.service = some managed.origin)
    (publishes : Publishes managed config w w') : UpToDate { site with origin := managed.origin } (some managed) w' := by
  obtain ⟨remote, mem, disk, -, -⟩ := publishes
  rw [account, id] at remote
  have routes : Routes managed.origin config.ingress := fun rule inside name named => (only rule inside name named).2
  have own' := (tidy.reroute own routes).2
  rw [← remote] at own'
  refine ⟨⟨?_, ?_⟩, by rw [disk], by rw [mem]⟩
  · rintro managed' same
    cases same
    have inside : { tunnel with config := config } ∈ site.own w'.remote := own' ▸ List.mem_singleton.mpr rfl
    exact ⟨_, inside, id, _, route, rfl, rfl⟩
  · intro tunnel' inside rule member name named
    obtain rfl : tunnel' = { tunnel with config := config } := List.mem_singleton.mp (own' ▸ inside)
    obtain ⟨rfl, service⟩ := only rule member name named
    exact ⟨managed, rfl, rfl, service⟩

/-! ## A run -/

/-- The device with another local service. -/
def Ctx.toward (ctx : Ctx) (origin : String) : Ctx := { ctx with origin := origin }

theorem searchZone_toward (candidates : List String) :
    searchZone (ctx.toward origin) hostname candidates = searchZone ctx hostname candidates := by
  induction candidates with
  | nil => rfl
  | cons candidate rest ih =>
      unfold searchZone
      rw [ih]
      rfl

theorem survey_toward : survey (ctx.toward origin) hostname = survey ctx hostname := by
  unfold survey findZone
  rw [searchZone_toward]
  rfl

theorem ensureTunnel_toward (tunnel : Option Tunnel) :
    ensureTunnel (ctx.toward origin) accountId tunnel = ensureTunnel ctx accountId tunnel := by
  cases tunnel <;> rfl

theorem ensureRecord_toward {zoneId tunnelId : String} (listed : Option DnsRecord) :
    ensureRecord (ctx.toward origin) zoneId hostname tunnelId listed = ensureRecord ctx zoneId hostname tunnelId listed := by
  cases listed <;> rfl

/-- The tunnel of a run, and what the merge of its route depends on. -/
theorem Sound.merge {tunnelId : String} (sound : Sound ((ctx.toward origin).site accountId names) True [tunnelId] stay w)
    (upToDate : UpToDate ((ctx.toward origin).site accountId names) active w) (hostname : String) :
    ∃ tunnel, ((ctx.toward origin).site accountId names).own w.remote = [tunnel] ∧ tunnel.id = tunnelId ∧
      isUuid tunnelId = true ∧ w.remote.tunnel? accountId tunnelId = some tunnel ∧ Current [tunnel] active ∧
      routeOn ctx hostname accountId tunnelId w = some (ingressFor tunnel.config hostname ctx.origin active) := by
  obtain ⟨tunnel, inside, rfl⟩ := sound.held tunnelId List.mem_cons_self
  have own := sound.tidy.own_eq inside
  have good := sound.tidy.tunnels tunnel inside
  have there : w.remote.tunnel? accountId tunnel.id = some tunnel := good.found
  have current : Current [tunnel] active := own ▸ upToDate.current
  refine ⟨tunnel, own, rfl, good.uuid, there, current, ?_⟩
  rw [routeOn, there, upToDate.mem, current.filter]
  rfl

/-- The clean-up and the check at the end of a run. -/
theorem cleanUp_again {key tunnelId : String} (sound : Sound site True [] [] w) (upToDate : UpToDate site active w) :
    wp (cleanUp ctx key >>= finish ctx hostname accountId tunnelId)
      (fun _ w' => Sound site True [] [] w' ∧ UpToDate site active w') (fun _ _ => False) w := by
  have sweeps : Sweeps key fun w => Sound site True [] [] w ∧ UpToDate site active w :=
    (sound_sweeps (by simp)).and (upToDate_sweeps site active key)
  refine wp_seq (sweeps.cleanUp_spec ⟨sound, upToDate⟩) ?_ fun _ _ never => never.elim
  rintro warnings w₁ ⟨sound₁, upToDate₁⟩
  refine wp_mono (sweeps.finish_spec ⟨sound₁, upToDate₁⟩) (fun _ _ finished => finished.1) ?_
  rintro failure w' ⟨-, -, uncalm⟩
  exact uncalm (sound₁.calm trivial)

/-- A run whose calls are all served succeeds exactly when its hostname has a zone and is not
the recorded one with another origin; its route is then the recorded one. -/
theorem deploy_again (settings : Settings) (reliable : (ctx.site accountId names).Reliable) (named : settings.hostname ∈ names)
    (sound : Sound ((ctx.toward origin).site accountId names) True [] [] w)
    (upToDate : UpToDate ((ctx.toward origin).site accountId names) active w) :
    wp (deploy ctx settings)
      (fun _ w' => Admits ctx active settings.hostname ∧ Sound (ctx.site accountId names) True [] [] w' ∧
        ∃ managed, managed.hostname = settings.hostname ∧ managed.origin = ctx.origin ∧
          UpToDate (ctx.site accountId names) (some managed) w')
      (fun _ _ => ¬Admits ctx active settings.hostname) w := by
  have reliable' : ((ctx.toward origin).site accountId names).Reliable :=
    ⟨reliable.zones, reliable.account, reliable.tunnelId, reliable.recordId, reliable.issued, reliable.token⟩
  have stable (held : List String) (stay : List DnsRecord) : Stable fun w =>
      Sound ((ctx.toward origin).site accountId names) True held stay w ∧
        UpToDate ((ctx.toward origin).site accountId names) active w :=
    sound_stable.and (upToDate_stable _ active)
  have surveyed : wp (survey (ctx.toward origin) settings.hostname) _ _ w := survey_sound sound reliable'
  rw [survey_toward] at surveyed
  refine wp_seq (wp_and surveyed ((upToDate_stable _ active).survey_spec upToDate)) ?_ ?failing
  case failing =>
      rintro failure w' ⟨⟨-, fails⟩, -⟩ admits
      obtain ⟨zone, ok⟩ := admits.zone
      exact fails trivial zone ok
  rintro found w₁ ⟨⟨sound₁, seen, rfl, own₁⟩, upToDate₁, -⟩
  have settled : found.settled ctx w₁.mem = true := sound₁.settled named seen own₁
  refine wp_seq ((stable [] []).reconcileTunnel_spec ⟨sound₁, upToDate₁⟩ ?adopted) ?_ ?failing
  case adopted =>
      intro tunnel here _
      refine ⟨sound₁.withMem (sound₁.mem.insertTunnel (ctx.tunnelEntry tunnel.id) fun other inside => ?_),
        upToDate₁.congr rfl (.inl rfl) rfl⟩
      rw [here] at own₁
      rw [← own₁, Option.mem_toList, Option.some.injEq] at inside
      simp [SavedTunnel.manages, Ctx.tunnelEntry, inside]
  case failing =>
      rintro failure w' ⟨-, -, -, fails⟩
      cases settled.symm.trans (fails (sound₁.calm trivial))
  rintro - w₂ ⟨⟨sound₂, upToDate₂⟩, -, remote₂, -⟩
  obtain ⟨listed, matched, records₁⟩ := sound₁.matchingDns named seen own₁
  refine wp_bind.mpr (wp_lift (fun listed' matched' => ?_) fun failure fails => ?failing)
  case failing => cases fails.symm.trans matched
  obtain rfl : listed' = listed := Except.ok.inj (matched'.symm.trans matched)
  refine wp_seq ((stable [] []).progress_spec ⟨sound₂, upToDate₂⟩) ?_ ?failing
  case failing =>
      rintro failure w' ⟨-, -, uncalm⟩
      exact absurd (sound₂.calm trivial) uncalm
  rintro - w₃ ⟨⟨sound₃, upToDate₃⟩, rfl⟩
  have own₃ : found.tunnel.toList = ((ctx.toward origin).site found.accountId names).own w₂.remote :=
    own₁.trans (congrArg _ remote₂.symm)
  have ensured : wp (ensureTunnel (ctx.toward origin) found.accountId found.tunnel) _ _ _ :=
    wp_and (ensureTunnel_sound reliable' sound₃ own₃) (ensureTunnel_upToDate upToDate₃)
  rw [ensureTunnel_toward] at ensured
  refine wp_seq ensured ?_ ?failing
  case failing =>
      rintro failure w' ⟨⟨-, uncalm⟩, -⟩
      exact absurd trivial uncalm
  rintro made w₄ ⟨⟨sound₄, records₄, tokens⟩, upToDate₄⟩
  obtain ⟨tunnel, own₄, id, uuid, there, current, route⟩ := sound₄.merge upToDate₄ settings.hostname
  refine wp_seq ((stable [made.tunnel.id] []).prepareRoute_spec ⟨sound₄, upToDate₄⟩) ?_ ?failing
  case failing =>
      rintro failure w' ⟨-, -, fails⟩ admits
      obtain ⟨merged, ok⟩ := current.merges_iff.mpr admits.origin
      apply fails (sound₄.calm trivial) uuid tokens (reliable.token _) merged
      rw [route, ok]
  rintro ⟨config, token⟩ w₅ ⟨⟨sound₅, upToDate₅⟩, same₅, merged⟩
  rw [route, Option.some.injEq] at merged
  have admits : Admits ctx active settings.hostname := ⟨⟨found.zone, seen.zone⟩, current.merges_iff.mp ⟨config, merged⟩⟩
  refine wp_seq ((stable [made.tunnel.id] []).progress_spec ⟨sound₅, upToDate₅⟩) ?_ ?failing
  case failing =>
      rintro failure w' ⟨-, -, uncalm⟩
      exact absurd (sound₅.calm trivial) uncalm
  rintro - w₆ ⟨⟨sound₆, upToDate₆⟩, rfl⟩
  refine wp_seq ((stable [made.tunnel.id] []).adoptRecord_spec ⟨sound₆, upToDate₆⟩ ?adopted) ?_ ?failing
  case adopted =>
      intro record saved _ entry _
      have place := sound₆.mem.keys entry
      exact ⟨sound₆.withMem (sound₆.mem.insertRecord _ _ place), upToDate₆.congr rfl (.inl rfl) rfl⟩
  case failing =>
      rintro failure w' ⟨-, -, uncalm⟩
      exact absurd (sound₆.calm trivial) uncalm
  rintro - w₇ ⟨⟨sound₇, upToDate₇⟩, remote₇⟩
  have records₇ : listed'.toList = w₇.remote.recordsOf settings.hostname := by
    have unchanged : w₇.remote.records = w₁.remote.records := by
      rw [remote₇]
      exact (congrArg Remote.records same₅.remote).trans (records₄.trans (congrArg Remote.records remote₂))
    rw [records₁, Remote.recordsOf, Remote.recordsOf, unchanged]
  have ensured' : wp (ensureRecord (ctx.toward origin) found.zone.id settings.hostname made.tunnel.id listed') _ _ _ :=
    wp_and (ensureRecord_sound reliable' sound₇ named seen.zone records₇) (ensureRecord_upToDate upToDate₇)
  rw [ensureRecord_toward] at ensured'
  refine wp_seq ensured' ?_ ?failing
  case failing =>
      rintro failure w' ⟨⟨-, uncalm⟩, -⟩
      exact absurd trivial uncalm
  rintro record w₈ ⟨⟨sound₈, -⟩, upToDate₈⟩
  obtain ⟨tunnel', own₈, id', -, there', -⟩ := sound₈.merge upToDate₈ settings.hostname
  obtain ⟨new, only⟩ := current.merged merged
  refine wp_seq (publish_calm (sound₈.calm trivial) (by rw [there']; simp)) ?_ fun _ _ never => never.elim
  rintro - w₉ publishes
  have sound₉ : Sound (ctx.site found.accountId names) True [] [] w₉ :=
    sound₈.published own₈ rfl id'.symm (fun rule inside name named => (only rule inside name named).2) publishes
  have upToDate₉ : UpToDate (ctx.site found.accountId names) _ w₉ :=
    UpToDate.published sound₈.tidy own₈ rfl id'.symm new only publishes
  refine wp_mono (cleanUp_again sound₉ upToDate₉) ?_ fun _ _ never => never.elim
  rintro result w₁₀ ⟨sound₁₀, upToDate₁₀⟩
  exact ⟨admits, sound₁₀, _, rfl, rfl, upToDate₁₀⟩

/-! ## Histories -/

/-- The run is one of the device, on a hostname of the site, and all its calls are served. -/
structure Run.On (run : Run) (site : Site) : Prop where
  same : run.ctx.site site.accountId site.names = { site with origin := run.ctx.origin }
  named : run.settings.hostname ∈ site.names
  served : ∀ outcome ∈ run.outcomes, outcome = .served

def Run.Returns (run : Run) (w : World) : Prop :=
  ∃ result w', deploy run.ctx run.settings (w.restart run.outcomes) = .ok result w'

/-- Every run succeeds in the world that the runs before it leave. -/
def AllReturn (runs : List Run) (remote : Remote) : Prop :=
  ∀ before run, before ++ [run] <+: runs → run.Returns (history before remote)

/-- A run of the same hostname has the same origin. -/
def Run.KeepsOrigin (run next : Run) : Prop :=
  run.settings.hostname = next.settings.hostname → run.ctx.origin = next.ctx.origin

/-- The world after a successful run, or before the first. -/
structure Resting (site : Site) (last : Option Run) (w : World) : Prop where
  sound : ∃ origin, Sound { site with origin := origin } False [] [] w
  current : Current (site.own w.remote) w.disk.active
  last : (w.disk.active.map fun managed => (managed.hostname, managed.origin)) =
    last.map fun run => (run.settings.hostname, run.ctx.origin)

variable {run : Run} {last : Option Run}

theorem Resting.admits_iff (resting : Resting site last w) :
    Admits run.ctx w.disk.active run.settings.hostname ↔
      (∃ zone, hostZone run.ctx.cloud run.settings.hostname = .ok zone) ∧ ∀ before ∈ last, before.KeepsOrigin run := by
  have recorded := resting.last
  constructor
  · intro admits
    refine ⟨admits.zone, ?_⟩
    rintro before rfl same
    rw [Option.map_some, Option.map_eq_some_iff] at recorded
    obtain ⟨managed, active, route⟩ := recorded
    rw [Prod.mk.injEq] at route
    exact route.2.symm.trans (admits.origin managed active (route.1.trans same))
  · rintro ⟨zone, keeps⟩
    refine ⟨zone, fun managed active same => ?_⟩
    rw [active, Option.map_some, eq_comm, Option.map_eq_some_iff] at recorded
    obtain ⟨before, rfl, route⟩ := recorded
    rw [Prod.mk.injEq] at route
    exact route.2.symm.trans (keeps before rfl (route.1.trans same))

theorem Resting.again (resting : Resting site last w) (on : run.On site) (reliable : site.Reliable) :
    (run.Returns w ↔ (∃ zone, hostZone site.cloud run.settings.hostname = .ok zone) ∧
      ∀ before ∈ last, before.KeepsOrigin run) ∧ (run.Returns w → Resting site (some run) (run.after w)) := by
  obtain ⟨origin, sound⟩ := resting.sound
  have cloud : run.ctx.cloud = site.cloud := congrArg Site.cloud on.same
  have here : run.ctx.site site.accountId site.names = { site with origin := run.ctx.origin } := on.same
  have toward : (run.ctx.toward origin).site site.accountId site.names = { site with origin := origin } :=
    congrArg (fun site : Site => { site with origin := origin }) on.same
  have reliable' : (run.ctx.site site.accountId site.names).Reliable := by
    rw [here]
    exact ⟨reliable.zones, reliable.account, reliable.tunnelId, reliable.recordId, reliable.issued, reliable.token⟩
  have start : Sound ((run.ctx.toward origin).site site.accountId site.names) True [] [] (w.restart run.outcomes) := by
    rw [toward]
    exact { sound.restart run.outcomes [] [] (by simp) (by simp) with calm := fun _ => on.served }
  have upToDate : UpToDate ((run.ctx.toward origin).site site.accountId site.names) w.disk.active (w.restart run.outcomes) := by
    rw [toward]
    exact ⟨resting.current, rfl, rfl⟩
  have spec := deploy_again run.settings reliable' on.named start upToDate
  rw [resting.admits_iff, cloud, here] at spec
  unfold Run.Returns Run.after finalState
  unfold wp at spec
  cases outcome : deploy run.ctx run.settings (w.restart run.outcomes) with
  | error failure w' =>
      rw [outcome] at spec
      have fails : ¬∃ result w'', (EStateM.Result.error failure w' : EStateM.Result Failure World Deployment) = .ok result w'' :=
        fun ⟨_, _, impossible⟩ => nomatch impossible
      exact ⟨iff_of_false fails spec, fun returns => absurd returns fails⟩
  | ok result w' =>
      rw [outcome] at spec
      obtain ⟨admits, sound', managed, hostname, origin, upToDate'⟩ := spec
      refine ⟨iff_of_true ⟨result, w', rfl⟩ admits, fun _ => ⟨⟨_, { sound' with calm := False.elim }⟩, ?_, ?_⟩⟩
      · have current := upToDate'.current
        rw [← upToDate'.disk] at current
        exact current
      · rw [upToDate'.disk, Option.map_some, Option.map_some, hostname, origin]

theorem history_append (runs : List Run) (run : Run) (remote : Remote) :
    history (runs ++ [run]) remote = run.after (history runs remote) := by
  rw [history, List.foldl_append]
  rfl

theorem allReturn_append {runs : List Run} :
    AllReturn (runs ++ [run]) remote ↔ AllReturn runs remote ∧ run.Returns (history runs remote) := by
  unfold AllReturn
  constructor
  · intro all
    exact ⟨fun before earlier inside => all before earlier (inside.trans (List.prefix_append _ _)),
      all runs run (List.prefix_refl _)⟩
  · rintro ⟨earlier, last⟩ before other inside
    rcases List.prefix_concat_iff.mp inside with same | within
    · obtain ⟨rfl, one⟩ := List.append_inj' same rfl
      obtain rfl := List.singleton_inj.mp one
      exact last
    · exact earlier before other within

theorem history_resting (reliable : site.Reliable) (unmade : site.own remote = [])
    (unnamed : ∀ record ∈ remote.records, record.name ∉ site.names) (runs : List Run) (on : ∀ run ∈ runs, run.On site)
    (all : AllReturn runs remote) : Resting site runs.getLast? (history runs remote) := by
  induction runs using List.reverseRecOn with
  | nil =>
      refine ⟨⟨site.origin, sound_initial unmade unnamed⟩, ⟨?_, ?_⟩, rfl⟩
      · intro managed recorded
        cases recorded
      · have own : site.own (history [] remote).remote = [] := unmade
        simp [own]
  | append_singleton runs run ih =>
      rw [allReturn_append] at all
      have resting := ih (fun run inside => on run (List.mem_append_left _ inside)) all.1
      rw [history_append, List.getLast?_concat]
      exact (resting.again (on run (by simp)) reliable).2 all.2

/-- Every run succeeds exactly when every hostname has a zone and no run deploys the hostname of
the run before with another origin. -/
theorem redeploys_succeed_iff (site : Site) (reliable : site.Reliable) (remote : Remote) (unmade : site.own remote = [])
    (unnamed : ∀ record ∈ remote.records, record.name ∉ site.names) (runs : List Run) (on : ∀ run ∈ runs, run.On site) :
    AllReturn runs remote ↔
      (∀ run ∈ runs, ∃ zone, hostZone site.cloud run.settings.hostname = .ok zone) ∧ runs.IsChain Run.KeepsOrigin := by
  induction runs using List.reverseRecOn with
  | nil => simp [AllReturn]
  | append_singleton runs run ih =>
      have earlier := fun run inside => on run (List.mem_append_left _ inside)
      have returns (all : AllReturn runs remote) :=
        ((history_resting reliable unmade unnamed runs earlier all).again (on run (by simp)) reliable).1
      rw [allReturn_append, List.forall_mem_append, List.isChain_append]
      constructor
      · rintro ⟨all, last⟩
        obtain ⟨zones, chain⟩ := (ih earlier).mp all
        obtain ⟨zone, keeps⟩ := (returns all).mp last
        exact ⟨⟨zones, by simpa using zone⟩, chain, List.isChain_singleton _, by simpa using keeps⟩
      · rintro ⟨⟨zones, zone⟩, chain, -, keeps⟩
        have all := (ih earlier).mpr ⟨zones, chain⟩
        exact ⟨all, (returns all).mpr ⟨zone run (by simp), fun before inside => keeps before inside run rfl⟩⟩

/-! ## The account of the fixture -/

/-- Two hostnames of the zone. -/
def officeSite : Site := { fixtureSite with names := ["router.example.com", "office.example.com"] }

theorem officeSite_reliable : officeSite.Reliable :=
  ⟨fixtureSite_reliable.zones, fixtureSite_reliable.account, fixtureSite_reliable.tunnelId, fixtureSite_reliable.recordId,
    fixtureSite_reliable.issued, fixtureSite_reliable.token⟩

theorem hostZone_officeSite : ∀ name ∈ officeSite.names, ∃ zone, hostZone officeSite.cloud name = .ok zone := by
  have first (label : String) (nonempty : label ≠ "") (undotted : '.' ∉ label.toList)
      (proper : ∀ zone ∈ officeSite.cloud.zonesNamed (label ++ "." ++ "example.com"), zone.status ≠ "active") :
      ∃ zone, hostZone officeSite.cloud (label ++ "." ++ "example.com") = .ok zone :=
    hostZone_of_firstLevel officeSite_reliable ⟨nonempty, undotted, by decide, by decide +kernel, proper⟩
  have router := first "router" (by decide) (by decide) (by decide +kernel)
  have office := first "office" (by decide) (by decide) (by decide +kernel)
  intro name inside
  rcases List.mem_pair.mp inside with rfl | rfl
  · exact router
  · exact office

def otherPort : Ctx := fixture.toward "http://127.0.0.1:8080"

/-- The origin changes with the hostname, and the first hostname comes back. -/
def moves : List Run :=
  [fixture.run "router.example.com" [], otherPort.run "office.example.com" [], otherPort.run "router.example.com" []]

theorem moves_on : ∀ run ∈ moves, run.On officeSite := by
  simp only [moves, List.forall_mem_cons]
  exact ⟨⟨rfl, by decide, by simp [Ctx.run]⟩, ⟨rfl, by decide, by simp [Ctx.run]⟩, ⟨rfl, by decide, by simp [Ctx.run]⟩, by simp⟩

theorem redeploys_succeed_iff_moves : AllReturn moves vacant := by
  apply (redeploys_succeed_iff officeSite officeSite_reliable vacant rfl (by simp [vacant]) moves moves_on).mpr
  refine ⟨fun run inside => hostZone_officeSite _ (moves_on run inside).named, ?_⟩
  simp [moves, Run.KeepsOrigin, Ctx.run]

/-- The same hostname with another local port: the route of the first run is a conflict for the second. -/
theorem changed_origin_conflicts :
    ¬∀ (site : Site) (remote : Remote) (runs : List Run), site.Reliable → remote.tunnels = [] → remote.records = [] →
      (∀ run ∈ runs, run.On site) → (∀ run ∈ runs, ∃ zone, hostZone site.cloud run.settings.hostname = .ok zone) →
      AllReturn runs remote := by
  intro claim
  have on : ∀ run ∈ [fixture.run "router.example.com" [], otherPort.run "router.example.com" []], run.On officeSite := by
    simp only [List.forall_mem_cons]
    exact ⟨⟨rfl, by decide, by simp [Ctx.run]⟩, ⟨rfl, by decide, by simp [Ctx.run]⟩, by simp⟩
  have all := claim officeSite vacant _ officeSite_reliable rfl rfl on fun run inside =>
    hostZone_officeSite _ (on run inside).named
  obtain ⟨result, w', returns⟩ := all [fixture.run "router.example.com" []] (otherPort.run "router.example.com" [])
    (List.prefix_refl _)
  have raises : raised? (deploy otherPort (otherPort.run "router.example.com" []).settings)
      ((history [fixture.run "router.example.com" []] vacant).restart []) =
        some ⟨.conflict, "This tunnel hostname already points to a different service."⟩ := by
    decide +kernel
  cases (eq_error_of_raised? raises).symm.trans returns

end XWrt.CloudflareTunnel
