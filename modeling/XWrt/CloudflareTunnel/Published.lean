import XWrt.CloudflareTunnel.Routing
import XWrt.CloudflareTunnel.Rules
import XWrt.Foundation.Transducer

/-!
# Routes a deploy leaves published

A deploy drops the route of the hostname that `state.active` records, but
`active` is saved only after the new route is in place and the connector has
started, and it speaks of one tunnel. The routes put in place are read off the
requests of all runs. A deploy leaves none of another hostname behind when every
run found the last of them recorded by `active`, or is for its hostname, and
goes to its account.
-/

namespace XWrt.CloudflareTunnel

open Foundation

/-- The place of the new route in the rules of a `PUT`: before the catch-all. -/
def Config.route? (config : Config) : Option Rule := config.ingress.dropLast.getLast?

/-- A route that a request put in place. -/
structure Placement where
  accountId : String
  tunnelId : String
  rule : Rule
  deriving DecidableEq, Repr

/-- What the request put in place, whether or not its answer reached the run. -/
def Event.placement : Event → Option Placement
  | ⟨.putConfig accountId tunnelId config, _, _, remote⟩ =>
      if (remote.tunnel? accountId tunnelId).map Tunnel.config = some config then
        config.route?.map fun rule => { accountId := accountId, tunnelId := tunnelId, rule := rule }
      else none
  | _ => none

/-- The routes put in place by all runs, oldest first. -/
def placements (log : List Event) : List Placement := log.filterMap Event.placement

/-- The tunnel is the one the state keeps for the account. -/
def SavedState.Manages (state : SavedState) (accountId tunnelId : String) : Prop :=
  ∃ saved ∈ state.tunnels.lookup accountId, saved.id = some tunnelId

/-- The tunnel still has the route. -/
def Remote.Serves (remote : Remote) (placement : Placement) : Prop :=
  ∃ tunnel ∈ remote.tunnel? placement.accountId placement.tunnelId, placement.rule ∈ tunnel.config.ingress

/-- Among the routes that runs put into the tunnels the plugin manages, only those of the
hostname are left. -/
def OnlyPublishes (hostname : String) (w : World) : Prop :=
  ∀ placement ∈ placements w.log, w.disk.Manages placement.accountId placement.tunnelId →
    w.remote.Serves placement → placement.rule.hostname = some hostname

/-- `active` is of the tunnel and the hostname of the route. -/
def SavedState.Records (state : SavedState) (placement : Placement) : Prop :=
  ∃ active ∈ state.active, active.tunnelId = placement.tunnelId ∧ placement.rule.hostname = some active.hostname

/-- The run goes to the account of the last route put in place, and that route is recorded
by `active` or is of the hostname of the run. -/
def Run.Follows (run : Run) (w : World) : Prop :=
  ∀ last ∈ (placements w.log).getLast?, ∀ zone ∈ (hostZone run.ctx.cloud run.settings.hostname).toOption,
    zone.account = some last.accountId ∧
      (w.disk.Records last ∨ last.rule.hostname = some run.settings.hostname)

section Decidable

instance (state : SavedState) (accountId tunnelId : String) : Decidable (state.Manages accountId tunnelId) := by
  unfold SavedState.Manages
  infer_instance

instance (remote : Remote) (placement : Placement) : Decidable (remote.Serves placement) := by
  unfold Remote.Serves
  infer_instance

instance (hostname : String) (w : World) : Decidable (OnlyPublishes hostname w) := by
  unfold OnlyPublishes
  infer_instance

instance (state : SavedState) (placement : Placement) : Decidable (state.Records placement) := by
  unfold SavedState.Records
  infer_instance

instance (run : Run) (w : World) : Decidable (run.Follows w) := by
  unfold Run.Follows
  infer_instance

end Decidable

/-! ## Routes of an account -/

section Remote

variable {remote remote' : Remote} {accountId tunnelId : String} {placement : Placement}

theorem Remote.tunnel?_setConfig (config : Config) (account id : String) :
    (remote.setConfig accountId tunnelId config).tunnel? account id =
      (remote.tunnel? account id).map (·.configured accountId tunnelId config) := by
  simp only [tunnel?, setConfig, List.find?_map, Function.comp_def, Tunnel.configured_accountId, Tunnel.configured_id]

/-- Only the configured tunnel is answered with another configuration. -/
theorem Remote.tunnel?_setConfig_of_ne {config : Config} {account id : String} (other : ¬(account = accountId ∧ id = tunnelId)) :
    (remote.setConfig accountId tunnelId config).tunnel? account id = remote.tunnel? account id := by
  rw [tunnel?_setConfig]
  cases found : remote.tunnel? account id with
  | none => rfl
  | some tunnel =>
      obtain ⟨-, rfl, rfl⟩ := tunnel?_eq_some found
      rw [Option.map_some, Tunnel.configured, if_neg other]

theorem Remote.tunnel?_setConfig_self {config : Config} {tunnel : Tunnel} (found : remote.tunnel? accountId tunnelId = some tunnel) :
    ((remote.setConfig accountId tunnelId config).tunnel? accountId tunnelId).map Tunnel.config = some config := by
  obtain ⟨-, rfl, rfl⟩ := tunnel?_eq_some found
  rw [tunnel?_setConfig, found, Option.map_some, Option.map_some, Tunnel.configured, if_pos ⟨rfl, rfl⟩]

theorem Remote.tunnel?_congr (same : remote'.tunnels = remote.tunnels) (account id : String) :
    remote'.tunnel? account id = remote.tunnel? account id := by
  rw [tunnel?, same, tunnel?]

theorem Remote.Serves.congr (same : remote'.tunnel? placement.accountId placement.tunnelId =
    remote.tunnel? placement.accountId placement.tunnelId) (serves : remote'.Serves placement) : remote.Serves placement := by
  rwa [Serves, same] at serves

/-- A tunnel that was just created has no routes. -/
theorem Remote.Serves.of_created {tunnel : Tunnel} {created : ℕ} (blank : tunnel.config.ingress = [])
    (serves : ({ remote with tunnels := tunnel :: remote.tunnels, created := created } : Remote).Serves placement) :
    ¬(tunnel.accountId = placement.accountId ∧ tunnel.id = placement.tunnelId) ∧ remote.Serves placement := by
  obtain ⟨found, there, routed⟩ := serves
  simp only [tunnel?, List.find?_cons] at there
  split at there
  next here =>
      cases there
      rw [blank] at routed
      cases routed
  next other => exact ⟨by simpa using other, found, there, routed⟩

end Remote

theorem mem_mergedRules {rules : List Rule} {rule : Rule} {name hostname origin : String} {active : Option Active}
    (inside : rule ∈ mergedRules rules hostname origin active) (named : rule.hostname = some name) :
    name = hostname ∨ rule ∈ rules ∧ ∀ managed ∈ active, name ≠ managed.hostname := by
  rcases named_mergedRules inside named with rfl | ⟨earlier, stayed⟩
  · rw [routeRule, Option.some.injEq] at named
    exact .inl named.symm
  · simp only [stays, named, Option.any_some, Bool.and_eq_true, bne_iff_ne, Option.all_eq_true] at stayed
    exact .inr ⟨earlier, stayed.2⟩

theorem ingressFor_route {config merged : Config} {hostname origin : String} {active : Option Active}
    (success : ingressFor config hostname origin active = .ok merged) : merged.route? = some (routeRule hostname origin) := by
  rw [Config.route?, ingressFor_rules success, mergedRules, List.dropLast_append_of_ne_nil (by simp)]
  simp

/-! ## What the log says of the routes in place -/

theorem placements_append (log : List Event) (event : Event) :
    placements (log ++ [event]) = placements log ++ event.placement.toList := by
  rw [placements, List.filterMap_append]
  cases placed : event.placement with
  | none => simp [placements, placed]
  | some placement => simp [placements, placed]

theorem placement_eq_none {event : Event} (other : event.request.method ≠ .put) : event.placement = none := by
  obtain ⟨request, answer, state, remote⟩ := event
  cases request <;> first | rfl | exact absurd rfl other

/-- The saved tunnel of the account, and it is not pending. -/
def SavedState.Holds (state : SavedState) (accountId tunnelId : String) : Prop :=
  ∃ saved, state.tunnels.lookup accountId = some saved ∧ saved.id = some tunnelId ∧ saved.pending = false

/-- A route left in a managed tunnel is of the tunnel and the hostname of the last route
put in place, and a tunnel whose creation is pending has no route of the plugin. -/
structure Tracked (state : SavedState) (remote : Remote) (placed : List Placement) : Prop where
  named : ∀ placement ∈ placed, placement.rule.hostname.isSome
  current : ∀ placement ∈ placed, state.Manages placement.accountId placement.tunnelId → remote.Serves placement →
    ∃ last, placed.getLast? = some last ∧ placement.accountId = last.accountId ∧ placement.tunnelId = last.tunnelId ∧
      placement.rule.hostname = last.rule.hostname
  pending : ∀ accountId saved, state.tunnels.lookup accountId = some saved → saved.pending = true →
    ∀ tunnel ∈ remote.tunnels, tunnel.accountId = accountId → tunnel.name = saved.name →
      ∀ placement ∈ placed, placement.accountId = accountId → placement.tunnelId = tunnel.id → ¬remote.Serves placement

section Tracked

variable {state state' : SavedState} {remote remote' : Remote} {placed : List Placement} {accountId tunnelId : String}

theorem tracked_nil (state : SavedState) (remote : Remote) : Tracked state remote [] := by
  constructor <;> simp

theorem Tracked.congr (tracked : Tracked state remote placed) (saved : state'.tunnels = state.tunnels)
    (tunnels : remote'.tunnels = remote.tunnels) : Tracked state' remote' placed := by
  have serves {placement : Placement} : remote'.Serves placement → remote.Serves placement :=
    Remote.Serves.congr (Remote.tunnel?_congr tunnels _ _)
  constructor
  · exact tracked.named
  · intro placement inside managed served
    rw [SavedState.Manages, saved] at managed
    exact tracked.current placement inside managed (serves served)
  · intro accountId entry known pending tunnel there own name placement inside account id served
    rw [saved] at known
    rw [tunnels] at there
    exact tracked.pending accountId entry known pending tunnel there own name placement inside account id (serves served)

/-- A tunnel enters the state: one that was managed, or one without a route of the plugin. -/
theorem Tracked.insertTunnel (tracked : Tracked state remote placed) (accountId : String) (saved : SavedTunnel)
    (managed : ∀ placement ∈ placed, placement.accountId = accountId → saved.id = some placement.tunnelId →
      remote.Serves placement → state.Manages accountId placement.tunnelId)
    (pending : saved.pending = true → ∀ tunnel ∈ remote.tunnels, tunnel.accountId = accountId → tunnel.name ≠ saved.name) :
    Tracked { state with tunnels := state.tunnels.insert accountId saved } remote placed := by
  constructor
  · exact tracked.named
  · rintro placement inside ⟨entry, known, id⟩ served
    by_cases here : placement.accountId = accountId
    · rw [here, AList.lookup_insert] at known
      cases known
      exact tracked.current placement inside (here ▸ managed placement inside here id served) served
    · rw [AList.lookup_insert_ne here] at known
      exact tracked.current placement inside ⟨entry, known, id⟩ served
  · intro account entry known unsettled tunnel there own name
    by_cases here : account = accountId
    · subst here
      rw [AList.lookup_insert] at known
      cases known
      exact absurd name (pending unsettled tunnel there own)
    · rw [AList.lookup_insert_ne here] at known
      exact tracked.pending account entry known unsettled tunnel there own name

theorem Tracked.create {tunnel : Tunnel} {created : ℕ} (tracked : Tracked state remote placed) (blank : tunnel.config.ingress = []) :
    Tracked state { remote with tunnels := tunnel :: remote.tunnels, created := created } placed := by
  constructor
  · exact tracked.named
  · exact fun placement inside managed served => tracked.current placement inside managed (served.of_created blank).2
  · intro account entry known pending tunnel' there own name placement inside account' id served
    obtain ⟨other, served'⟩ := served.of_created blank
    rcases List.mem_cons.mp there with rfl | earlier
    · exact other ⟨own.trans account'.symm, id.symm⟩
    · exact tracked.pending account entry known pending tunnel' earlier own name placement inside account' id served'

/-- A merged configuration reaches the tunnel that the state holds. -/
theorem Tracked.publish {tunnel : Tunnel} {config : Config} {hostname origin : String} {active : Option Active}
    (tracked : Tracked state remote placed) (holds : state.Holds accountId tunnelId)
    (there : remote.tunnel? accountId tunnelId = some tunnel)
    (merged : ingressFor tunnel.config hostname origin (active.filter fun active => active.tunnelId = tunnelId) = .ok config)
    (follows : ∀ last ∈ placed.getLast?, last.accountId = accountId ∧
      ((∃ managed ∈ active, managed.tunnelId = last.tunnelId ∧ last.rule.hostname = some managed.hostname) ∨
        last.rule.hostname = some hostname))
    (configured : (remote'.tunnel? accountId tunnelId).map Tunnel.config = some config)
    (others : ∀ account id, ¬(account = accountId ∧ id = tunnelId) → remote'.tunnel? account id = remote.tunnel? account id)
    (known : ∀ tunnel' ∈ remote'.tunnels, ∃ tunnel ∈ remote.tunnels,
      tunnel.accountId = tunnel'.accountId ∧ tunnel.id = tunnel'.id ∧ tunnel.name = tunnel'.name) :
    Tracked state remote' (placed ++ [⟨accountId, tunnelId, routeRule hostname origin⟩]) := by
  obtain ⟨saved, entry, id, settled⟩ := holds
  constructor
  · intro placement inside
    rcases List.mem_append.mp inside with earlier | new
    · exact tracked.named placement earlier
    · rw [List.mem_singleton.mp new]
      rfl
  · intro placement inside managed served
    refine ⟨⟨accountId, tunnelId, routeRule hostname origin⟩, List.getLast?_concat, ?_⟩
    rcases List.mem_append.mp inside with earlier | new
    case inr =>
        rw [List.mem_singleton.mp new]
        exact ⟨rfl, rfl, rfl⟩
    by_cases own : placement.accountId = accountId ∧ placement.tunnelId = tunnelId
    · refine ⟨own.1, own.2, ?_⟩
      obtain ⟨name, named⟩ := Option.isSome_iff_exists.mp (tracked.named placement earlier)
      obtain ⟨tunnel', there', routed⟩ := served
      have same : tunnel'.config = config := by
        rw [own.1, own.2] at there'
        rw [Option.mem_def.mp there', Option.map_some, Option.some.injEq] at configured
        exact configured
      rw [same, ingressFor_rules merged] at routed
      rcases mem_mergedRules routed named with rfl | ⟨kept, unrecorded⟩
      · exact named
      -- a rule that was kept is the last one put in place, and `active` did not record it
      · obtain ⟨last, final, -, id', hostname'⟩ := tracked.current placement earlier managed
          ⟨tunnel, by rwa [own.1, own.2], kept⟩
        rcases (follows last final).2 with ⟨managed', recorded, onTunnel, host⟩ | host
        · refine absurd ?_ (unrecorded managed' (Option.mem_filter_iff.mpr ⟨recorded, ?_⟩))
          · rw [named, host, Option.some.injEq] at hostname'
            exact hostname'
          · rw [onTunnel, ← id', own.2]
            exact decide_eq_true rfl
        · rw [hostname', host]
          rfl
    · obtain ⟨last, final, account, -⟩ := tracked.current placement earlier managed (served.congr (others _ _ own))
      obtain ⟨saved', entry', managed'⟩ := managed
      have here : placement.accountId = accountId := account.trans (follows last final).1
      rw [here, Option.mem_def, entry, Option.some.injEq] at entry'
      rw [← entry', id, Option.some.injEq] at managed'
      exact absurd ⟨here, managed'.symm⟩ own
  · intro account pendingEntry lookup pending tunnel' inside' own name placement inside account' id'
    have elsewhere : account ≠ accountId := by
      rintro rfl
      rw [entry, Option.some.injEq] at lookup
      rw [← lookup, settled] at pending
      cases pending
    obtain ⟨tunnel₀, inside₀, own₀, id₀, name₀⟩ := known tunnel' inside'
    rcases List.mem_append.mp inside with earlier | new
    · intro served
      refine tracked.pending account pendingEntry lookup pending tunnel₀ inside₀ (own₀.trans own) (name₀.trans name)
        placement earlier account' (id'.trans id₀.symm) (served.congr (others _ _ fun same => ?_))
      exact elsewhere (account'.symm.trans same.1)
    · rw [List.mem_singleton.mp new] at account'
      exact absurd account'.symm elsewhere

end Tracked

/-! ## A run -/

/-- Both copies of the state are tracked. `known` is what is kept of the routes put in place and of `active`. -/
structure Underway (known : List Placement → Option Active → Prop) (w : World) : Prop where
  disk : Tracked w.disk w.remote (placements w.log)
  mem : Tracked w.mem w.remote (placements w.log)
  known : known (placements w.log) w.mem.active

/-- The run has its tunnel, and the tunnels of the account are these. -/
structure InUse (known : List Placement → Option Active → Prop) (accountId tunnelId : String) (tunnels : List Tunnel) (w : World) : Prop
    extends Underway known w where
  diskHolds : w.disk.Holds accountId tunnelId
  memHolds : w.mem.Holds accountId tunnelId
  tunnels : w.remote.tunnels = tunnels

variable {known : List Placement → Option Active → Prop} {w w' : World} {ctx : Ctx}
variable {accountId tunnelId hostname : String} {tunnels : List Tunnel}

theorem placements_record {request : Request} (other : request.method ≠ .put) (answer : Option request.Answer) (remote : Remote) :
    placements (w.record request answer remote).log = placements w.log := by
  rw [World.record_log, placements_append, placement_eq_none other, Option.toList_none, List.append_nil]

theorem Underway.congr (underway : Underway known w) (placed : placements w'.log = placements w.log)
    (tunnels : w'.remote.tunnels = w.remote.tunnels)
    (disk : w'.disk.tunnels = w.disk.tunnels ∨ w'.disk.tunnels = w.mem.tunnels)
    (mem : w'.mem.tunnels = w.mem.tunnels) (active : w'.mem.active = w.mem.active) : Underway known w' := by
  constructor
  · rw [placed]
    rcases disk with kept | saved
    · exact underway.disk.congr kept tunnels
    · exact underway.mem.congr saved tunnels
  · rw [placed]
    exact underway.mem.congr mem tunnels
  · rw [placed, active]
    exact underway.known

theorem InUse.congr (inUse : InUse known accountId tunnelId tunnels w) (placed : placements w'.log = placements w.log)
    (same : w'.remote.tunnels = w.remote.tunnels)
    (disk : w'.disk.tunnels = w.disk.tunnels ∨ w'.disk.tunnels = w.mem.tunnels)
    (mem : w'.mem.tunnels = w.mem.tunnels) (active : w'.mem.active = w.mem.active) :
    InUse known accountId tunnelId tunnels w' := by
  refine ⟨inUse.toUnderway.congr placed same disk mem active, ?_, ?_, same.trans inUse.tunnels⟩
  · rcases disk with kept | saved
    · rw [SavedState.Holds, kept]
      exact inUse.diskHolds
    · rw [SavedState.Holds, saved]
      exact inUse.memHolds
  · rw [SavedState.Holds, mem]
    exact inUse.memHolds

/-- The clean-up touches neither the tunnels nor what is saved of them. -/
theorem underway_sweeps (known : List Placement → Option Active → Prop) (key : String) : Sweeps key (Underway known) where
  next := fun underway => underway.congr rfl rfl (.inl rfl) rfl rfl
  shown := fun _ underway => underway.congr rfl rfl (.inl rfl) rfl rfl
  connector := fun _ underway => underway.congr rfl rfl (.inl rfl) rfl rfl
  read := fun answer get underway =>
    underway.congr (placements_record (by rw [get]; simp) answer _) rfl (.inl rfl) rfl rfl
  saved := fun underway => underway.congr rfl rfl (.inr rfl) rfl rfl
  checked := fun _ _ _ underway => underway.congr rfl rfl (.inl rfl) rfl rfl
  found := fun underway _ _ _ _ _ => underway.congr rfl rfl (.inl rfl) rfl rfl
  removed := by
    intro w oldKey old recordId existing answer remote underway _ _ _ _ _ _ reached
    refine underway.congr (placements_record (by simp [Request.method]) answer _) ?_ (.inl rfl) rfl rfl
    rcases reached with rfl | rfl <;> rfl
  forgotten := fun underway _ => underway.congr rfl rfl (.inl rfl) rfl rfl

theorem inUse_stable (known : List Placement → Option Active → Prop) (accountId tunnelId : String) (tunnels : List Tunnel) :
    Stable (InUse known accountId tunnelId tunnels) where
  next := fun inUse => inUse.congr rfl rfl (.inl rfl) rfl rfl
  shown := fun _ inUse => inUse.congr rfl rfl (.inl rfl) rfl rfl
  connector := fun _ inUse => inUse.congr rfl rfl (.inl rfl) rfl rfl
  read := fun answer get inUse =>
    inUse.congr (placements_record (by rw [get]; simp) answer _) rfl (.inl rfl) rfl rfl
  saved := fun inUse => inUse.congr rfl rfl (.inr rfl) rfl rfl
  checked := fun _ _ _ inUse => inUse.congr rfl rfl (.inl rfl) rfl rfl

/-- The listed tunnel is adopted only if the state keeps it, or waits for it. -/
theorem reconcileTunnel_underway {found : Survey} (underway : Underway known w) (fresh : w.mem.tunnels = w.disk.tunnels)
    (listed : ∀ tunnel, found.tunnel = some tunnel →
      tunnel ∈ w.remote.tunnels ∧ tunnel.accountId = found.accountId ∧ tunnel.name = ctx.tunnelName) :
    wp (reconcileTunnel ctx found)
      (fun _ w' => Underway known w' ∧ w'.remote = w.remote ∧ ∀ tunnel, found.tunnel = some tunnel →
        w'.disk.Holds found.accountId tunnel.id ∧ w'.mem.Holds found.accountId tunnel.id)
      (fun _ w' => Underway known w') w := by
  unfold reconcileTunnel
  rw [wp_bind, wp_get]
  cases here : found.tunnel with
  | none => exact wp_require (fun _ => ⟨underway, rfl, by simp⟩) fun _ => underway
  | some tunnel =>
      refine wp_bind.mpr (wp_require (fun managed => ?_) fun _ => underway)
      refine wp_bind.mpr (wp_require (fun _ => ?_) fun _ => underway)
      rw [Option.any_eq_true] at managed
      obtain ⟨saved, entry, manages⟩ := managed
      simp only [SavedTunnel.manages, Bool.or_eq_true, Bool.and_eq_true, beq_iff_eq] at manages
      obtain ⟨inside, own, name⟩ := listed tunnel here
      have adopted : Tracked { w.mem with tunnels := w.mem.tunnels.insert found.accountId (ctx.tunnelEntry tunnel.id) }
          w.remote (placements w.log) := by
        refine underway.mem.insertTunnel _ _ (fun placement member account id served => ?_) (by simp [Ctx.tunnelEntry])
        simp only [Ctx.tunnelEntry, Option.some.injEq] at id
        rcases manages with kept | ⟨pending, waiting⟩
        · exact ⟨saved, entry, id ▸ kept⟩
        · exact absurd served (underway.mem.pending _ saved entry pending tunnel inside own (name.trans waiting.symm)
            placement member account id.symm)
      split_ifs with pending
      · have kept : Underway known { w with
            mem := { w.mem with tunnels := w.mem.tunnels.insert found.accountId (ctx.tunnelEntry tunnel.id) } } :=
          ⟨underway.disk, adopted, underway.known⟩
        refine wp_bind.mpr (wp_assign.mpr (wp_mono ((underway_sweeps known "").save_spec kept) ?_ fun _ _ fails => fails.1))
        rintro - w' ⟨kept', rfl⟩
        refine ⟨kept', rfl, fun tunnel' same => ?_⟩
        cases same
        exact ⟨⟨_, AList.lookup_insert _, rfl, rfl⟩, ⟨_, AList.lookup_insert _, rfl, rfl⟩⟩
      · refine ⟨underway, rfl, fun tunnel' same => ?_⟩
        cases same
        rw [entry, Option.any_some, Bool.not_eq_true] at pending
        have kept : saved.id = some tunnel.id := by
          rcases manages with kept | ⟨waits, -⟩
          · exact kept
          · rw [pending] at waits
            cases waits
        exact ⟨⟨saved, fresh ▸ entry, kept, pending⟩, ⟨saved, entry, kept, pending⟩⟩

/-- A tunnel is created where the account has none of its name. -/
theorem ensureTunnel_underway {tunnel : Option Tunnel} (underway : Underway known w)
    (holds : ∀ found, tunnel = some found → w.disk.Holds accountId found.id ∧ w.mem.Holds accountId found.id)
    (unnamed : tunnel = none → ∀ other ∈ w.remote.tunnels, other.accountId = accountId → other.name ≠ ctx.tunnelName) :
    wp (ensureTunnel ctx accountId tunnel) (fun made w' => ∃ tunnels, InUse known accountId made.tunnel.id tunnels w')
      (fun _ w' => Underway known w') w := by
  have sweeps := underway_sweeps known ""
  cases tunnel with
  | some found => exact ⟨w.remote.tunnels, underway, (holds found rfl).1, (holds found rfl).2, rfl⟩
  | none =>
      have marked : Underway known { w with mem := { w.mem with
          tunnels := w.mem.tunnels.insert accountId { id := none, name := ctx.tunnelName, pending := true } } } :=
        ⟨underway.disk, underway.mem.insertTunnel _ _ (by simp) (fun _ => unnamed rfl), underway.known⟩
      refine wp_bind.mpr (wp_assign.mpr (wp_bind.mpr ?_))
      refine wp_mono (sweeps.save_spec marked) ?_ fun _ _ fails => fails.1
      rintro - w₁ ⟨underway₁, -⟩
      have created (request : Request) (other : request.method ≠ .put) (answer : Option request.Answer) (tunnel : Tunnel)
          (created : ℕ) (blank : tunnel.config.ingress = []) :
          Underway known (w₁.next.record request answer
            { w₁.remote with tunnels := tunnel :: w₁.remote.tunnels, created := created }) := by
        have placed := placements_record (w := w₁.next) other answer
          { w₁.remote with tunnels := tunnel :: w₁.remote.tunnels, created := created }
        refine ⟨?_, ?_, ?_⟩
        · rw [placed]
          exact underway₁.disk.create blank
        · rw [placed]
          exact underway₁.mem.create blank
        · rw [placed]
          exact underway₁.known
      refine wp_bind.mpr (wp_api (fun made answered => ?_) fun failure remote _ reached _ => ?_)
      case refine_2 =>
          rcases reached with rfl | rfl
          · exact underway₁.congr (placements_record (by simp [Request.method]) none _) rfl (.inl rfl) rfl rfl
          · exact created _ (by simp [Request.method]) none _ _ rfl
      have underway₂ := created (.postTunnel accountId ctx.tunnelName "cloudflare") (by simp [Request.method]) (some made)
        { id := ctx.cloud.tunnelId w₁.remote.created, accountId := accountId, name := ctx.tunnelName
          remoteConfig := some true, configSrc := some "cloudflare", config := { ingress := [] } } (w₁.remote.created + 1) rfl
      have id : made.tunnel.id = ctx.cloud.tunnelId w₁.remote.created := by
        simp only [serve, Option.some.injEq] at answered
        rw [← answered]
      refine wp_bind.mpr (wp_require (fun _ => wp_bind.mpr (wp_assign.mpr (wp_bind.mpr ?_))) fun _ => underway₂)
      refine wp_mono (sweeps.save_spec ⟨underway₂.disk, ?_, underway₂.known⟩) ?_ fun _ _ fails => fails.1
      · refine underway₂.mem.insertTunnel _ _ (fun placement _ account same served => ?_) (by simp)
        rw [Option.some.injEq, id] at same
        exact absurd ⟨account.symm, same⟩ (served.of_created rfl).1
      · rintro - w₃ ⟨underway₃, rfl⟩
        exact ⟨_, underway₃, ⟨_, AList.lookup_insert _, rfl, rfl⟩, ⟨_, AList.lookup_insert _, rfl, rfl⟩, rfl⟩

theorem ensureRecord_inUse {zoneId : String} {listed : Option DnsRecord} (inUse : InUse known accountId tunnelId tunnels w) :
    wp (ensureRecord ctx zoneId hostname tunnelId listed) (fun _ w' => InUse known accountId tunnelId tunnels w')
      (fun _ w' => InUse known accountId tunnelId tunnels w') w := by
  apply (inUse_stable known accountId tunnelId tunnels).ensureRecord_spec inUse
  · exact fun inUse => inUse.congr rfl rfl (.inl rfl) rfl rfl
  · intro w type name comment answer remote inUse reached
    refine inUse.congr (placements_record (by simp [Request.method]) answer remote) ?_ (.inl rfl) rfl rfl
    rcases reached with rfl | rfl <;> rfl
  · exact fun inUse _ _ _ _ => inUse.congr rfl rfl (.inl rfl) rfl rfl
  · intro w recordId saved answer remote inUse _ _ _ reached
    refine inUse.congr (placements_record (by simp [Request.method]) answer remote) ?_ (.inl rfl) rfl rfl
    rcases reached with rfl | rfl <;> rfl

/-- What the run finds of the routes put in place before it. -/
def Followed (accountId hostname : String) (placed : List Placement) (active : Option Active) : Prop :=
  ∀ last ∈ placed.getLast?, last.accountId = accountId ∧
    ((∃ managed ∈ active, managed.tunnelId = last.tunnelId ∧ last.rule.hostname = some managed.hostname) ∨
      last.rule.hostname = some hostname)

/-- Nothing is asked of the routes put in place. -/
abbrev unasked : List Placement → Option Active → Prop := fun _ _ => True

/-- The route is the last one put in place. -/
abbrev lastIs (last : Placement) : List Placement → Option Active → Prop := fun placed _ => placed.getLast? = some last

theorem Underway.weaken (underway : Underway known w) : Underway unasked w :=
  ⟨underway.disk, underway.mem, trivial⟩

/-- The `PUT`, whether or not it takes effect. -/
theorem putConfig_underway {tunnel : Tunnel} {config : Config} {origin : String}
    (inUse : InUse (Followed accountId hostname) accountId tunnelId tunnels w)
    (there : w.remote.tunnel? accountId tunnelId = some tunnel)
    (merged : ingressFor tunnel.config hostname origin (w.mem.active.filter fun active => active.tunnelId = tunnelId) = .ok config)
    (answer : Option Unit) {remote : Remote}
    (reached : remote = w.remote ∨ remote = w.remote.setConfig accountId tunnelId config) :
    Underway unasked (w.record (.putConfig accountId tunnelId config) answer remote) ∧
      (remote = w.remote.setConfig accountId tunnelId config →
        Underway (lastIs ⟨accountId, tunnelId, routeRule hostname origin⟩)
          (w.record (.putConfig accountId tunnelId config) answer remote)) := by
  have others : ∀ account id, ¬(account = accountId ∧ id = tunnelId) → remote.tunnel? account id = w.remote.tunnel? account id := by
    intro account id other
    rcases reached with rfl | rfl
    · rfl
    · exact Remote.tunnel?_setConfig_of_ne other
  have named : ∀ tunnel' ∈ remote.tunnels, ∃ tunnel ∈ w.remote.tunnels,
      tunnel.accountId = tunnel'.accountId ∧ tunnel.id = tunnel'.id ∧ tunnel.name = tunnel'.name := by
    intro tunnel' inside
    rcases reached with rfl | rfl
    · exact ⟨tunnel', inside, rfl, rfl, rfl⟩
    · obtain ⟨earlier, inside', rfl⟩ := List.mem_map.mp inside
      exact ⟨earlier, inside', by simp⟩
  have logged : placements (w.record (.putConfig accountId tunnelId config) answer remote).log =
      placements w.log ++ (Event.placement ⟨.putConfig accountId tunnelId config, answer, w.mem, remote⟩).toList := by
    rw [World.record_log, placements_append]
  by_cases configured : (remote.tunnel? accountId tunnelId).map Tunnel.config = some config
  · have placed : placements (w.record (.putConfig accountId tunnelId config) answer remote).log =
        placements w.log ++ [⟨accountId, tunnelId, routeRule hostname origin⟩] := by
      rw [logged, Event.placement, if_pos configured, ingressFor_route merged, Option.map_some, Option.toList_some]
    have kept {state : SavedState} (tracked : Tracked state w.remote (placements w.log)) (holds : state.Holds accountId tunnelId) :
        Tracked state remote (placements (w.record (.putConfig accountId tunnelId config) answer remote).log) := by
      rw [placed]
      exact tracked.publish holds there merged inUse.known configured others named
    have after {known : List Placement → Option Active → Prop}
        (holds : known (placements w.log ++ [⟨accountId, tunnelId, routeRule hostname origin⟩]) w.mem.active) :
        Underway known (w.record (.putConfig accountId tunnelId config) answer remote) :=
      ⟨kept inUse.disk inUse.diskHolds, kept inUse.mem inUse.memHolds, placed ▸ holds⟩
    exact ⟨after trivial, fun _ => after List.getLast?_concat⟩
  · have same : remote = w.remote := by
      rcases reached with same | rfl
      · exact same
      · exact absurd (Remote.tunnel?_setConfig_self there) configured
    refine ⟨?_, fun effective => ?_⟩
    · refine inUse.weaken.congr ?_ (congrArg Remote.tunnels same) (.inl rfl) rfl rfl
      rw [logged, Event.placement, if_neg configured, Option.toList_none, List.append_nil]
    · rw [effective] at configured
      exact absurd (Remote.tunnel?_setConfig_self there) configured

theorem publish_underway {active : Active} {tunnel : Tunnel} {config : Config} {origin token : String}
    (inUse : InUse (Followed active.accountId hostname) active.accountId active.tunnelId tunnels w)
    (there : w.remote.tunnel? active.accountId active.tunnelId = some tunnel)
    (merged : ingressFor tunnel.config hostname origin
      (w.mem.active.filter fun previous => previous.tunnelId = active.tunnelId) = .ok config) :
    wp (publish ctx active config token)
      (fun _ w' => Underway (lastIs ⟨active.accountId, active.tunnelId, routeRule hostname origin⟩) w')
      (fun _ w' => Underway unasked w') w := by
  have stable := inUse_stable (Followed active.accountId hostname) active.accountId active.tunnelId tunnels
  have sweeps := underway_sweeps (lastIs ⟨active.accountId, active.tunnelId, routeRule hostname origin⟩) ""
  unfold publish
  refine wp_seq (stable.progress_spec inUse) ?_ fun _ _ fails => fails.1.weaken
  rintro - w₁ ⟨inUse₁, rfl⟩
  have put := putConfig_underway (stable.next inUse₁) there merged
  refine wp_bind.mpr (wp_api (fun answer _ => ?_) fun _ remote _ reached _ => (put none reached).1)
  have underway₂ := (put (some answer) (.inr rfl)).2 rfl
  refine wp_seq (sweeps.progress_spec underway₂) ?_ fun _ _ fails => fails.1.weaken
  rintro - w₃ ⟨underway₃, -⟩
  refine wp_seq (sweeps.activate_spec underway₃) ?_ fun _ _ fails => fails.1.weaken
  rintro - w₄ ⟨underway₄, -⟩
  -- from here on `active` describes the route, which `lastIs` does not depend on
  have underway₅ : Underway (lastIs ⟨active.accountId, active.tunnelId, routeRule hostname origin⟩)
      { w₄ with mem := { w₄.mem with active := some active } } :=
    ⟨underway₄.disk, underway₄.mem.congr rfl rfl, underway₄.known⟩
  refine wp_bind.mpr (wp_assign.mpr (wp_mono (sweeps.save_spec underway₅) ?_ fun _ _ fails => fails.1.weaken))
  exact fun _ _ done => done.1

/-- Where the last route of a tunnel is the requested one, the account publishes nothing else. -/
theorem Underway.onlyPublishes {origin : String}
    (underway : Underway (lastIs ⟨accountId, tunnelId, routeRule hostname origin⟩) w) : OnlyPublishes hostname w := by
  intro placement inside managed served
  obtain ⟨last, final, -, -, host⟩ := underway.disk.current placement inside managed served
  rw [underway.known, Option.some.injEq] at final
  rw [host, ← final]
  rfl

/-- A run that follows the last route keeps track of the routes, and when it returns its own is the only one. -/
theorem deploy_underway {run : Run} (tracked : Tracked w.disk w.remote (placements w.log)) (follows : run.Follows w) :
    wp (deploy run.ctx run.settings)
      (fun _ w' => Underway unasked w' ∧ OnlyPublishes run.settings.hostname w')
      (fun _ w' => Underway unasked w') (w.restart run.outcomes) := by
  let start : List Placement → Option Active → Prop := fun placed active => placed = placements w.log ∧ active = w.disk.active
  have begun : Underway start (w.restart run.outcomes) := ⟨tracked, tracked, rfl, rfl⟩
  have sweeps := underway_sweeps start ""
  refine wp_seq (sweeps.survey_spec begun) ?_ fun _ _ fails => fails.1.weaken
  rintro found w₁ ⟨underway₁, seen⟩
  have remote₁ : w₁.remote = w.remote := seen.same.remote
  have followed : Followed found.accountId run.settings.hostname (placements w.log) w.disk.active := by
    intro last final
    have zone : found.zone ∈ (hostZone run.ctx.cloud run.settings.hostname).toOption := by
      rw [seen.zone]
      rfl
    obtain ⟨account, recorded⟩ := follows last final found.zone zone
    rw [seen.account, Option.some.injEq] at account
    exact ⟨account.symm, recorded⟩
  have named : ∀ item ∈ (w.remote.tunnelsNamed found.accountId run.ctx.tunnelName).take 100,
      item ∈ w.remote.tunnels ∧ item.accountId = found.accountId ∧ item.name = run.ctx.tunnelName := by
    intro item inside
    simpa [Remote.tunnelsNamed] using List.mem_of_mem_take inside
  have listing := seen.tunnel
  refine wp_seq (reconcileTunnel_underway underway₁ ?_ ?_) ?_ fun _ _ fails => fails.weaken
  · rw [seen.same.mem, seen.same.disk]
    rfl
  · intro tunnel here
    rw [here] at listing
    have listed := namedTunnel_eq_some (fun item inside => (named item inside).2.2) listing
    rw [remote₁]
    exact named tunnel (listed ▸ List.mem_singleton_self tunnel)
  rintro - w₂ ⟨underway₂, remote₂, holds₂⟩
  refine wp_bind.mpr (wp_lift (fun listed _ => ?_) fun _ _ => underway₂.weaken)
  refine wp_seq (sweeps.progress_spec underway₂) ?_ fun _ _ fails => fails.1.weaken
  rintro - w₃ ⟨underway₃, rfl⟩
  refine wp_seq (ensureTunnel_underway underway₃ holds₂ ?_) ?_ fun _ _ fails => fails.weaken
  · intro missing other inside own same
    rw [missing] at listing
    rw [World.next_remote, remote₂, remote₁] at inside
    have unlisted := namedTunnel_eq_none (fun item inside => (named item inside).2.2) listing
    rw [List.take_eq_nil_iff] at unlisted
    have listed : other ∈ w.remote.tunnelsNamed found.accountId run.ctx.tunnelName := by
      simp [Remote.tunnelsNamed, inside, own, same]
    rw [unlisted.resolve_left (by decide)] at listed
    cases listed
  rintro made w₄ ⟨tunnels, inUse₄⟩
  have stable := inUse_stable start found.accountId made.tunnel.id tunnels
  refine wp_seq (stable.prepareRoute_spec inUse₄) ?_ fun _ _ fails => fails.1.weaken
  rintro ⟨config, token⟩ w₅ ⟨inUse₅, same₅, route⟩
  obtain ⟨tunnel, there, merged⟩ := Option.map_eq_some_iff.mp route
  refine wp_seq (stable.progress_spec inUse₅) ?_ fun _ _ fails => fails.1.weaken
  rintro - w₆ ⟨inUse₆, -⟩
  refine wp_seq (stable.adoptRecord_spec inUse₆ ?_) ?_ fun _ _ fails => fails.1.weaken
  · exact fun _ _ _ _ _ => inUse₆.congr rfl rfl (.inl rfl) rfl rfl
  rintro - w₇ ⟨inUse₇, -⟩
  refine wp_seq (ensureRecord_inUse inUse₇) ?_ fun _ _ fails => fails.weaken
  rintro record w₈ inUse₈
  have current : w₈.remote.tunnel? found.accountId made.tunnel.id = some tunnel := by
    rw [Remote.tunnel?_congr (inUse₈.tunnels.trans inUse₄.tunnels.symm), there]
  have unchanged : w₈.mem.active = w₄.mem.active := inUse₈.known.2.trans inUse₄.known.2.symm
  have ready : InUse (Followed found.accountId run.settings.hostname) found.accountId made.tunnel.id tunnels w₈ := by
    refine ⟨⟨inUse₈.disk, inUse₈.mem, ?_⟩, inUse₈.diskHolds, inUse₈.memHolds, inUse₈.tunnels⟩
    rw [inUse₈.known.1, inUse₈.known.2]
    exact followed
  refine wp_seq (publish_underway ready current (unchanged ▸ merged)) ?_ fun _ _ fails => fails
  intro _ w₉ underway₉
  have sweeps' := underway_sweeps (lastIs ⟨found.accountId, made.tunnel.id, routeRule run.settings.hostname run.ctx.origin⟩)
    (dnsKey found.zone.id run.settings.hostname)
  refine wp_seq (sweeps'.cleanUp_spec underway₉) ?_ fun _ _ fails => fails.elim
  intro warnings w₁₀ underway₁₀
  refine wp_mono (sweeps'.finish_spec underway₁₀) ?_ fun _ _ fails => fails.1.weaken
  rintro result w₁₁ ⟨underway₁₁, -⟩
  exact ⟨underway₁₁.weaken, underway₁₁.onlyPublishes⟩

/-! ## Histories -/

/-- The worker over its runs. -/
def worker : Transducer World Run Unit := ⟨fun w run => (run.after w, [])⟩

theorem worker_tracked (remote : Remote) {runs : List Run}
    (followed : worker.AllSteps (fun w run => run.Follows w) (.initial remote) runs) :
    Tracked (worker.final (.initial remote) runs).disk (worker.final (.initial remote) runs).remote
      (placements (worker.final (.initial remote) runs).log) := by
  have keeps : ∀ (w : World) (run : Run), Tracked w.disk w.remote (placements w.log) → run.Follows w →
      Tracked (run.after w).disk (run.after w).remote (placements (run.after w).log) := fun w run tracked follows =>
    (finalState_of_wp (wp_mono (deploy_underway tracked follows) (fun _ _ done => done.1) fun _ _ fails => fails)).disk
  exact worker.final_invariant keeps (tracked_nil _ _) followed

/-- A run that returns leaves no other hostname published, in every history whose runs each
found the last route in their account, and recorded or their own. -/
theorem history_unpublishes (remote : Remote) (earlier : List Run) (run : Run) {result : Deployment} {w : World}
    (followed : worker.AllSteps (fun w run => run.Follows w) (.initial remote) (earlier ++ [run]))
    (returns : deploy run.ctx run.settings ((worker.final (.initial remote) earlier).restart run.outcomes) = .ok result w) :
    OnlyPublishes run.settings.hostname w := by
  rw [worker.allSteps_append, worker.allSteps_cons] at followed
  exact (wp_done (deploy_underway (worker_tracked remote followed.1) followed.2.1) returns).2

/-- An account without tunnels and records. -/
def emptyRemote : Remote := { tunnels := [], records := [], created := 0 }

/-- The connector cannot be started. -/
def serviceOutage : Outage :=
  { code := .service, message := "Cannot start the Cloudflare Tunnel service.", not_conflict := by decide }

/-- `a.example.com` is deployed; the deploy of `b.example.com` ends when its route is in place
and the connector does not start. -/
def cutAfterRoute : List Run :=
  [fixture.run "a.example.com" [], fixture.run "b.example.com" (List.replicate 16 .served ++ [.refused serviceOutage])]

/-- The interrupted deploy is tried again. -/
theorem history_unpublishes_retry :
    OnlyPublishes "b.example.com" (finalState (deploy fixture (fixture.run "b.example.com" []).settings)
      ((worker.final (.initial emptyRemote) cutAfterRoute).restart [])) := by
  have steps : worker.AllSteps (fun w run => run.Follows w) (.initial emptyRemote)
      (cutAfterRoute ++ [fixture.run "b.example.com" []]) := by
    unfold Transducer.AllSteps
    decide +kernel
  obtain ⟨result, returns⟩ := eq_ok_of_raised? (show raised? (deploy fixture (fixture.run "b.example.com" []).settings)
    ((worker.final (.initial emptyRemote) cutAfterRoute).restart []) = none by decide +kernel)
  exact history_unpublishes emptyRemote cutAfterRoute (fixture.run "b.example.com" []) steps returns

/-- A deploy of a third hostname keeps the route of the interrupted one. -/
theorem interrupted_route_stays :
    ¬∀ (remote : Remote) (earlier : List Run) (run : Run) (result : Deployment) (w : World),
        deploy run.ctx run.settings ((worker.final (.initial remote) earlier).restart run.outcomes) = .ok result w →
        OnlyPublishes run.settings.hostname w := by
  intro claim
  obtain ⟨result, returns⟩ := eq_ok_of_raised? (show raised? (deploy fixture (fixture.run "c.example.com" []).settings)
    ((worker.final (.initial emptyRemote) cutAfterRoute).restart []) = none by decide +kernel)
  refine absurd (claim emptyRemote cutAfterRoute (fixture.run "c.example.com" []) result _ returns) ?_
  decide +kernel

end XWrt.CloudflareTunnel
