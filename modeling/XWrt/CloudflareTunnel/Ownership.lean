import XWrt.CloudflareTunnel.Rules

/-!
# What the plugin takes for its own

A tunnel or record is the plugin's when the plugin created it and received the
answer, or when a listing showed it as the only one of its name while the state
held the marker that is saved before a creation. Only such tunnels are
configured, and only such records are changed or deleted, while they are shown as
a CNAME to such a tunnel, whatever others do to the account between the runs.
-/

namespace XWrt.CloudflareTunnel

open Foundation

variable {ctx : Ctx} {hostname accountId tunnelId zoneId recordId : String} {w : World} {log : List Event}

/-- The answer to a creation of the tunnel, or a listing that shows it under the name of a
pending creation. -/
inductive OwnsTunnel (accountId tunnelId : String) : Event → Prop
  | created (name configSrc : String) (made : NewTunnel) (state : SavedState) (remote : Remote) :
      made.tunnel.id = tunnelId → OwnsTunnel accountId tunnelId ⟨.postTunnel accountId name configSrc, some made, state, remote⟩
  | found (name : String) (tunnel : Tunnel) (saved : SavedTunnel) (state : SavedState) (remote : Remote) :
      tunnel.id = tunnelId → state.tunnels.lookup accountId = some saved → saved.pending = true → saved.name = name →
      OwnsTunnel accountId tunnelId ⟨.getTunnels accountId name, some [tunnel], state, remote⟩

/-- The answer to a creation of the record for the hostname, or a listing that shows it where a
creation is pending. The type of a listed record and its target are checked before a change. -/
inductive OwnsRecord (zoneId recordId hostname : String) : Event → Prop
  | created (type content : String) (proxied : Bool) (ttl : ℕ) (comment : String) (record : DnsRecord)
      (state : SavedState) (remote : Remote) :
      record.id = recordId →
      OwnsRecord zoneId recordId hostname ⟨.postRecord zoneId type hostname content proxied ttl comment, some record, state, remote⟩
  | found (record : DnsRecord) (saved : SavedDns) (state : SavedState) (remote : Remote) :
      record.id = recordId → state.dns.lookup (dnsKey zoneId hostname) = some saved → saved.pending = true →
      OwnsRecord zoneId recordId hostname ⟨.getRecords zoneId hostname, some [record], state, remote⟩

/-- The answer to a request shows the record as a CNAME of the hostname to the tunnel. A run that
has yet to create its tunnel takes a listed record without a target for its own. -/
inductive PointsTo (zoneId recordId hostname tunnelId : String) : Event → Prop
  | listed (record : DnsRecord) (state : SavedState) (remote : Remote) :
      record.id = recordId → record.name = hostname → record.type = "CNAME" → record.content ∈ [target tunnelId, ""] →
      PointsTo zoneId recordId hostname tunnelId ⟨.getRecords zoneId hostname, some [record], state, remote⟩
  | asked (record : DnsRecord) (state : SavedState) (remote : Remote) :
      record.name = hostname → record.type = "CNAME" → record.content = target tunnelId →
      PointsTo zoneId recordId hostname tunnelId ⟨.getRecord zoneId recordId, some record, state, remote⟩

/-- Some event of the log shows it. -/
def Shown (log : List Event) (shows : Event → Prop) : Prop := ∃ event ∈ log, shows event

theorem Shown.append {shows : Event → Prop} (shown : Shown log shows) (event : Event) : Shown (log ++ [event]) shows := by
  obtain ⟨earlier, inside, holds⟩ := shown
  exact ⟨earlier, List.mem_append_left _ inside, holds⟩

/-- What the events before a request have to show. A deletion comes directly behind the request
that shows the record. -/
def Permitted (earlier : List Event) : Request → Prop
  | .putConfig accountId tunnelId _ => Shown earlier (OwnsTunnel accountId tunnelId)
  | .patchRecord zoneId recordId _ => ∃ hostname accountId tunnelId, Shown earlier (OwnsRecord zoneId recordId hostname) ∧
      Shown earlier (OwnsTunnel accountId tunnelId) ∧ Shown earlier (PointsTo zoneId recordId hostname tunnelId)
  | .deleteRecord zoneId recordId => ∃ hostname accountId tunnelId, Shown earlier (OwnsRecord zoneId recordId hostname) ∧
      Shown earlier (OwnsTunnel accountId tunnelId) ∧ ∃ last ∈ earlier.getLast?, PointsTo zoneId recordId hostname tunnelId last
  | _ => True

/-- Every request was permitted when it was issued. -/
def Authorised (log : List Event) : Prop :=
  ∀ earlier event later, log = earlier ++ event :: later → Permitted earlier event.request

theorem authorised_nil : Authorised [] := by
  intro earlier event later split
  simp at split

theorem Authorised.append {event : Event} (authorised : Authorised log) (permitted : Permitted log event.request) :
    Authorised (log ++ [event]) := by
  intro earlier event' later split
  rcases later.eq_nil_or_concat with rfl | ⟨later, last, rfl⟩
  · obtain ⟨rfl, same⟩ := List.append_inj' split rfl
    cases same
    exact permitted
  · rw [List.concat_eq_append, ← List.cons_append, ← List.append_assoc] at split
    obtain ⟨rfl, -⟩ := List.append_inj' split rfl
    exact authorised earlier event' later rfl

theorem permitted_of_get {request : Request} (get : request.method = .get) : Permitted log request := by
  cases request <;> trivial

/-- The keys of `state.dns` tell zones and hostnames apart. -/
theorem dnsKey_inj {zoneId zoneId' hostname hostname' : String} (valid : isId zoneId = true) (valid' : isId zoneId' = true)
    (same : dnsKey zoneId hostname = dnsKey zoneId' hostname') : zoneId = zoneId' ∧ hostname = hostname' := by
  simp only [isId, Bool.and_eq_true, beq_iff_eq] at valid valid'
  have lists := congrArg String.toList same
  simp only [dnsKey, String.toList_append, List.append_assoc] at lists
  obtain ⟨zones, rest⟩ := List.append_inj lists (valid.1.trans valid'.1.symm)
  exact ⟨String.toList_inj.mp zones, String.toList_inj.mp (List.append_cancel_left rest)⟩

/-! ## The saved state -/

variable {state : SavedState}

/-- Every id in the state is the plugin's, every record without one is pending, and the records
are for tunnels of the plugin. -/
structure Claimed (log : List Event) (state : SavedState) : Prop where
  tunnels : ∀ {accountId saved tunnelId}, state.tunnels.lookup accountId = some saved → saved.id = some tunnelId →
    Shown log (OwnsTunnel accountId tunnelId)
  records : ∀ {key saved recordId}, state.dns.lookup key = some saved → saved.id = some recordId →
    Shown log (OwnsRecord saved.zoneId recordId saved.hostname)
  pending : ∀ {key saved}, state.dns.lookup key = some saved → saved.id = none → saved.pending = true
  keys : ∀ {key saved}, state.dns.lookup key = some saved → key = dnsKey saved.zoneId saved.hostname ∧ isId saved.zoneId = true
  targets : ∀ {key saved}, state.dns.lookup key = some saved → ∃ accountId, Shown log (OwnsTunnel accountId saved.tunnelId)

theorem claimed_empty : Claimed [] .empty := by
  constructor <;> intros <;> contradiction

theorem Claimed.append (claimed : Claimed log state) (event : Event) : Claimed (log ++ [event]) state where
  tunnels := fun entry known => (claimed.tunnels entry known).append event
  records := fun entry known => (claimed.records entry known).append event
  pending := claimed.pending
  keys := claimed.keys
  targets := fun entry => (claimed.targets entry).imp fun _ shown => shown.append event

/-- Only the saved tunnels and records count. -/
theorem Claimed.congr {state' : SavedState} (claimed : Claimed log state) (tunnels : state'.tunnels = state.tunnels)
    (dns : state'.dns = state.dns) : Claimed log state' := by
  constructor
  · exact tunnels ▸ claimed.tunnels
  · exact dns ▸ claimed.records
  · exact dns ▸ claimed.pending
  · exact dns ▸ claimed.keys
  · exact dns ▸ claimed.targets

theorem Claimed.insertTunnel (claimed : Claimed log state) (accountId : String) (saved : SavedTunnel)
    (owned : ∀ tunnelId, saved.id = some tunnelId → Shown log (OwnsTunnel accountId tunnelId)) :
    Claimed log { state with tunnels := state.tunnels.insert accountId saved } where
  tunnels := by
    intro accountId' saved' tunnelId entry known
    by_cases here : accountId' = accountId
    · subst here
      rw [AList.lookup_insert] at entry
      cases entry
      exact owned tunnelId known
    · rw [AList.lookup_insert_ne here] at entry
      exact claimed.tunnels entry known
  records := claimed.records
  pending := claimed.pending
  keys := claimed.keys
  targets := claimed.targets

/-- A record enters the state under its key, with an id of the plugin's or pending. -/
theorem Claimed.insertRecord (claimed : Claimed log state) (key : String) (saved : SavedDns)
    (place : key = dnsKey saved.zoneId saved.hostname ∧ isId saved.zoneId = true)
    (pending : saved.id = none → saved.pending = true)
    (owned : ∀ recordId, saved.id = some recordId → Shown log (OwnsRecord saved.zoneId recordId saved.hostname))
    (tunnel : ∃ accountId, Shown log (OwnsTunnel accountId saved.tunnelId)) :
    Claimed log { state with dns := state.dns.insert key saved } := by
  have cases' {key' saved'} (entry : (state.dns.insert key saved).lookup key' = some saved') :
      key' = key ∧ saved' = saved ∨ state.dns.lookup key' = some saved' := by
    by_cases here : key' = key
    · subst here
      rw [AList.lookup_insert, Option.some.injEq] at entry
      exact .inl ⟨rfl, entry.symm⟩
    · rw [AList.lookup_insert_ne here] at entry
      exact .inr entry
  constructor
  · exact claimed.tunnels
  · intro key' saved' recordId entry known
    rcases cases' entry with ⟨-, rfl⟩ | earlier
    · exact owned recordId known
    · exact claimed.records earlier known
  · intro key' saved' entry missing
    rcases cases' entry with ⟨-, rfl⟩ | earlier
    · exact pending missing
    · exact claimed.pending earlier missing
  · intro key' saved' entry
    rcases cases' entry with ⟨rfl, rfl⟩ | earlier
    · exact place
    · exact claimed.keys earlier
  · intro key' saved' entry
    rcases cases' entry with ⟨-, rfl⟩ | earlier
    · exact tunnel
    · exact claimed.targets earlier

theorem Claimed.eraseRecord (claimed : Claimed log state) (key : String) :
    Claimed log { state with dns := state.dns.erase key } := by
  have earlier {key' saved'} (entry : (state.dns.erase key).lookup key' = some saved') :
      state.dns.lookup key' = some saved' := by
    by_cases here : key' = key
    · rw [here, AList.lookup_erase] at entry
      cases entry
    · rwa [AList.lookup_erase_ne here] at entry
  constructor
  · exact claimed.tunnels
  · exact fun entry => claimed.records (earlier entry)
  · exact fun entry => claimed.pending (earlier entry)
  · exact fun entry => claimed.keys (earlier entry)
  · exact fun entry => claimed.targets (earlier entry)

/-- The requests were permitted, the state on disk and in the run is claimed, and the
tunnels in use are the plugin's. -/
structure Ownership (used : List (String × String)) (w : World) : Prop where
  log : Authorised w.log
  disk : Claimed w.log w.disk
  mem : Claimed w.log w.mem
  used : ∀ tunnel ∈ used, Shown w.log (OwnsTunnel tunnel.1 tunnel.2)

variable {used : List (String × String)}

theorem Ownership.record {request : Request} (owns : Ownership used w) (answer : Option request.Answer) (remote : Remote)
    (permitted : Permitted w.log request) : Ownership used (w.record request answer remote) where
  log := owns.log.append permitted
  disk := owns.disk.append _
  mem := owns.mem.append _
  used := fun tunnel inside => (owns.used tunnel inside).append _

theorem Ownership.withMem (owns : Ownership used w) (claimed : Claimed w.log state) :
    Ownership used { w with mem := state } where
  log := owns.log
  disk := owns.disk
  mem := claimed
  used := owns.used

theorem Ownership.use (owns : Ownership used w) (owned : Shown w.log (OwnsTunnel accountId tunnelId)) :
    Ownership [(accountId, tunnelId)] w where
  log := owns.log
  disk := owns.disk
  mem := owns.mem
  used := fun _ inside => List.mem_singleton.mp inside ▸ owned

theorem ownership_sweeps (used : List (String × String)) (key : String) : Sweeps key (Ownership used) where
  next := fun owns => ⟨owns.log, owns.disk, owns.mem, owns.used⟩
  shown := fun _ owns => ⟨owns.log, owns.disk, owns.mem, owns.used⟩
  connector := fun _ owns => ⟨owns.log, owns.disk, owns.mem, owns.used⟩
  read := fun answer get owns => owns.record answer _ (permitted_of_get get)
  saved := fun owns => ⟨owns.log, owns.mem, owns.mem, owns.used⟩
  checked := fun _ _ _ owns => owns.withMem (owns.mem.congr rfl rfl)
  found := by
    intro w oldKey old only owns entry _ _ known listed
    have place := owns.mem.keys entry
    have tunnel := owns.mem.targets entry
    refine owns.withMem (owns.mem.insertRecord _ _ place (by simp) (fun recordId same => ?_) tunnel)
    cases same
    rw [place.1] at entry
    exact ⟨_, listed, .found only old _ _ rfl entry (owns.mem.pending (place.1 ▸ entry) known)⟩
  removed := by
    intro w oldKey old recordId existing answer remote owns entry _ _ known _ confirmed _
    obtain ⟨accountId, tunnel⟩ := owns.mem.targets entry
    obtain ⟨state, shown, last⟩ := confirmed.last
    refine owns.record answer remote ⟨old.hostname, accountId, old.tunnelId, owns.mem.records entry known, tunnel, _, last, ?_⟩
    exact .asked existing state shown confirmed.name confirmed.type confirmed.content
  forgotten := fun owns _ => owns.withMem (owns.mem.eraseRecord _)

/-! ## The phases that create and change objects -/

/-- A permitted request. -/
theorem Ownership.api_spec {request : Request} (owns : Ownership used w) (permitted : Permitted w.log request) :
    wp (api ctx request)
      (fun answer w' => Ownership used w' ∧ ∃ state remote, w'.mem = w.mem ∧
        w'.log = w.log ++ [(⟨request, some answer, state, remote⟩ : Event)])
      (fun _ w' => Ownership used w') w := by
  have owns' := (ownership_sweeps used "").next owns
  refine wp_api (fun answer _ => ?_) fun _ remote _ _ _ => owns'.record none remote permitted
  exact ⟨owns'.record (some answer) _ permitted, _, _, rfl, rfl⟩

/-- The tunnel of the run is the plugin's, and the saved records stay as they are. -/
theorem ensureTunnel_owned {tunnel : Option Tunnel} (owns : Ownership [] w)
    (managed : ∀ found, tunnel = some found → Shown w.log (OwnsTunnel accountId found.id)) :
    wp (ensureTunnel ctx accountId tunnel)
      (fun made w' => Ownership [(accountId, made.tunnel.id)] w' ∧ w'.mem.dns = w.mem.dns ∧ (∃ events, w'.log = w.log ++ events) ∧
        ∀ found, tunnel = some found → made.tunnel = found)
      (fun _ w' => Ownership [] w') w := by
  have sweeps := ownership_sweeps [] ""
  cases tunnel with
  | some found =>
      exact ⟨owns.use (managed found rfl), rfl, ⟨[], (List.append_nil _).symm⟩, fun _ same => Option.some.inj same⟩
  | none =>
      have marked := owns.withMem (owns.mem.insertTunnel accountId
        { id := none, name := ctx.tunnelName, pending := true } (by simp))
      refine wp_bind.mpr (wp_assign.mpr (wp_bind.mpr ?_))
      refine wp_mono (sweeps.save_spec marked) ?_ fun _ _ fails => fails.1
      rintro - w₁ ⟨owns₁, rfl⟩
      refine wp_seq (owns₁.api_spec trivial) ?_ fun _ _ fails => fails
      rintro made w₂ ⟨owns₂, state, remote, mem₂, log₂⟩
      have owned : Shown w₂.log (OwnsTunnel accountId made.tunnel.id) :=
        ⟨_, log₂ ▸ List.mem_concat_self, .created _ _ made _ _ rfl⟩
      refine wp_bind.mpr (wp_require (fun _ => ?_) fun _ => owns₂)
      have named := owns₂.withMem (owns₂.mem.insertTunnel accountId (ctx.tunnelEntry made.tunnel.id)
        fun _ same => Option.some.inj same ▸ owned)
      refine wp_bind.mpr (wp_assign.mpr (wp_bind.mpr ?_))
      refine wp_mono (sweeps.save_spec named) ?_ fun _ _ fails => fails.1
      rintro - w₃ ⟨owns₃, rfl⟩
      have dns₂ : w₂.mem.dns = w.mem.dns := by rw [mem₂]; rfl
      exact ⟨owns₃.use owned, dns₂, ⟨_, log₂⟩, nofun⟩

theorem pointed_stable (zoneId hostname tunnelId : String) (listed : Option DnsRecord) :
    Stable fun w => ∀ record, listed = some record → Shown w.log (PointsTo zoneId record.id hostname tunnelId) where
  next := id
  shown := fun _ => id
  connector := fun _ => id
  read := fun _ _ points record here => (points record here).append _
  saved := id
  checked := fun _ _ _ => id

/-- The record of the run is created, or it is listed as a CNAME to the tunnel of the run. -/
theorem ensureRecord_owned {listed : Option DnsRecord} (valid : isId zoneId = true) (owns : Ownership [(accountId, tunnelId)] w)
    (points : ∀ record, listed = some record → Shown w.log (PointsTo zoneId record.id hostname tunnelId)) :
    wp (ensureRecord ctx zoneId hostname tunnelId listed) (fun _ w' => Ownership [(accountId, tunnelId)] w')
      (fun _ w' => Ownership [(accountId, tunnelId)] w') w := by
  have tunnel {w : World} (owns : Ownership [(accountId, tunnelId)] w) : Shown w.log (OwnsTunnel accountId tunnelId) :=
    owns.used _ List.mem_cons_self
  have stable := (ownership_sweeps [(accountId, tunnelId)] "").toStable.and (pointed_stable zoneId hostname tunnelId listed)
  refine wp_mono (stable.ensureRecord_spec ⟨owns, points⟩ ?_ ?_ ?_ ?_) (fun _ _ both => both.1) fun _ _ both => both.1
  · rintro w ⟨owns, points⟩
    exact ⟨owns.withMem (owns.mem.insertRecord _ _ ⟨rfl, valid⟩ (fun _ => rfl) (by simp [recordEntry]) ⟨_, tunnel owns⟩), points⟩
  · rintro w type name comment answer remote ⟨owns, points⟩ _
    exact ⟨owns.record answer remote trivial, fun record here => (points record here).append _⟩
  · rintro w record comment state remote ⟨owns, points⟩ posted _ _ _
    have owned : Shown w.log (OwnsRecord zoneId record.id hostname) := ⟨_, posted, .created _ _ _ _ _ record _ _ rfl⟩
    refine ⟨owns.withMem (owns.mem.insertRecord _ _ ⟨rfl, valid⟩ (by simp [recordEntry]) ?_ ⟨_, tunnel owns⟩), points⟩
    exact fun _ same => Option.some.inj same ▸ owned
  · rintro w recordId saved answer remote ⟨owns, points⟩ entry known here _
    obtain ⟨record, there, rfl⟩ := Option.map_eq_some_iff.mp here
    obtain ⟨place, valid'⟩ := owns.mem.keys entry
    have owned := owns.mem.records entry known
    obtain ⟨zone, host⟩ := dnsKey_inj valid valid' place
    rw [← zone, ← host] at owned
    refine ⟨owns.record answer remote ⟨hostname, accountId, tunnelId, owned, tunnel owns, points record there⟩, ?_⟩
    exact fun record here => (points record here).append _

/-- Whatever becomes of its calls, a run keeps the ownership. -/
theorem deploy_ownership (settings : Settings) (owns : Ownership [] w) :
    wp (deploy ctx settings) (fun _ w' => Ownership [] w') (fun _ w' => Ownership [] w') w := by
  have unused {used : List (String × String)} {w' : World} (owns' : Ownership used w') : Ownership [] w' :=
    ⟨owns'.log, owns'.disk, owns'.mem, by simp⟩
  have sweeps := ownership_sweeps [] ""
  refine wp_seq (sweeps.survey_spec owns) ?_ fun _ _ fails => fails.1
  rintro found w₁ ⟨owns₁, seen⟩
  obtain ⟨-, -, valid, -⟩ := zoneOf_eq_ok seen.zone
  have named : ∀ item ∈ (w.remote.tunnelsNamed found.accountId ctx.tunnelName).take 100, item.name = ctx.tunnelName := by
    intro item inside
    have matched := List.of_mem_filter (List.mem_of_mem_take inside)
    simp only [decide_eq_true_eq] at matched
    exact matched.2
  have adopted : ∀ tunnel, found.tunnel = some tunnel → found.settled ctx w₁.mem = true →
      Shown w₁.log (OwnsTunnel found.accountId tunnel.id) := by
    intro tunnel here settled
    simp only [Survey.settled, here, Bool.and_eq_true, Option.any_eq_true, SavedTunnel.manages, Bool.or_eq_true, beq_iff_eq] at settled
    obtain ⟨⟨saved, entry, known | ⟨pending, name⟩⟩, -⟩ := settled
    · exact owns₁.mem.tunnels entry known
    · have listing := seen.tunnel
      rw [here] at listing
      have listed := seen.listedTunnels
      rw [namedTunnel_eq_some named listing, ← seen.same.mem] at listed
      exact ⟨_, listed, .found _ tunnel saved _ _ rfl entry pending name⟩
  refine wp_seq (sweeps.reconcileTunnel_spec owns₁ ?_) ?_ fun _ _ fails => fails.1
  case refine_1 =>
      intro tunnel here settled
      exact owns₁.withMem (owns₁.mem.insertTunnel _ _ fun _ same => Option.some.inj same ▸ adopted tunnel here settled)
  rintro - w₂ ⟨owns₂, -, -, log₂, dns₂, -, known₂⟩
  refine wp_bind.mpr (wp_lift (fun listed matched => ?_) fun _ _ => owns₂)
  refine wp_seq (sweeps.progress_spec owns₂) ?_ fun _ _ fails => fails.1
  rintro - w₃ ⟨owns₃, rfl⟩
  refine wp_seq (ensureTunnel_owned owns₃ ?_) ?_ fun _ _ fails => fails
  case refine_1 =>
      intro tunnel here
      obtain ⟨saved, entry, id⟩ := known₂ tunnel here
      exact owns₃.mem.tunnels entry id
  rintro made w₄ ⟨owns₄, dns₄, ⟨events, log₄⟩, kept₄⟩
  have sweeps' := ownership_sweeps [(found.accountId, made.tunnel.id)] (dnsKey found.zone.id settings.hostname)
  refine wp_seq (sweeps'.prepareRoute_spec owns₄) ?_ fun _ _ fails => unused fails.1
  rintro ⟨config, token⟩ w₅ ⟨owns₅, same₅, -⟩
  refine wp_seq (sweeps'.progress_spec owns₅) ?_ fun _ _ fails => unused fails.1
  rintro - w₆ ⟨owns₆, rfl⟩
  have listing : ∀ record, listed = some record →
      (⟨.getRecords found.zone.id settings.hostname, some [record], w.mem, w.remote⟩ : Event) ∈ w₅.log ∧
        PointsTo found.zone.id record.id settings.hostname made.tunnel.id
          ⟨.getRecords found.zone.id settings.hostname, some [record], w.mem, w.remote⟩ := by
    intro record here
    obtain ⟨records, name, type, content⟩ := matchingDns_eq_some (here ▸ matched)
    refine ⟨same₅.log _ ?_, .listed record _ _ rfl name type ?_⟩
    · rw [log₄, ← records]
      exact List.mem_append_left _ (log₂ ▸ seen.listedRecords)
    · rw [content]
      cases there : found.tunnel with
      | none => exact List.mem_cons_of_mem _ List.mem_cons_self
      | some tunnel =>
          rw [kept₄ tunnel there]
          exact List.mem_cons_self
  have points : ∀ record, listed = some record →
      Shown w₅.log (PointsTo found.zone.id record.id settings.hostname made.tunnel.id) := fun record here => ⟨_, listing record here⟩
  refine wp_seq ((sweeps'.toStable.and (pointed_stable _ _ _ _)).adoptRecord_spec ⟨owns₆, points⟩ ?_) ?_ fun _ _ fails => unused fails.1.1
  case refine_1 =>
      -- the saved records are still those the run was working on when it listed the record
      intro record saved here entry pending
      obtain ⟨place, valid'⟩ := owns₆.mem.keys entry
      have entry' : w.mem.dns.lookup (dnsKey found.zone.id settings.hostname) = some saved := by
        rw [← seen.same.mem, ← dns₂]
        exact dns₄ ▸ same₅.mem ▸ entry
      have owned : Shown w₅.log (OwnsRecord saved.zoneId record.id saved.hostname) := by
        obtain ⟨zone, host⟩ := dnsKey_inj valid valid' place
        rw [← zone, ← host]
        exact ⟨_, (listing record here).1, .found record saved _ _ rfl entry' pending⟩
      have tunnel := owns₆.mem.targets entry
      refine ⟨owns₆.withMem (owns₆.mem.insertRecord _ _ ⟨place, valid'⟩ (by simp) ?_ tunnel), ?_⟩
      · exact fun _ same => Option.some.inj same ▸ owned
      · exact points
  rintro - w₇ ⟨⟨owns₇, points₇⟩, -⟩
  refine wp_seq (ensureRecord_owned valid owns₇ points₇) ?_ fun _ _ fails => unused fails
  intro record w₈ owns₈
  refine wp_seq (sweeps'.publish_spec owns₈ ?_ ?_) ?_ fun _ _ fails => unused fails.1
  · intro w' answer remote _ owns' _
    exact owns'.record answer remote (owns'.used _ List.mem_cons_self)
  · exact fun owns' => owns'.withMem (owns'.mem.congr rfl rfl)
  intro _ w₉ owns₉
  refine wp_seq (sweeps'.cleanUp_spec owns₉) ?_ fun _ _ fails => fails.elim
  intro warnings w₁₀ owns₁₀
  exact wp_mono (sweeps'.finish_spec owns₁₀) (fun _ _ done => unused done.1) fun _ _ fails => unused fails.1

/-! ## Histories -/

/-- What others do to the account, and then a run of the plugin. -/
structure Turn where
  edit : Remote → Remote
  run : Run

def Turn.after (w : World) (turn : Turn) : World := turn.run.after { w with remote := turn.edit w.remote }

theorem Turn.ownership (turn : Turn) (owns : Ownership [] w) : Ownership [] (turn.after w) := by
  refine finalState_of_wp (deploy_ownership turn.run.settings ?_)
  exact ⟨owns.log, owns.disk, owns.disk, owns.used⟩

theorem history_ownership (turns : List Turn) (owns : Ownership [] w) : Ownership [] (turns.foldl Turn.after w) := by
  induction turns generalizing w with
  | nil => exact owns
  | cons turn turns ih => exact ih (turn.ownership owns)

/-- Over any runs and any edits of the account between them, every configured tunnel and
every changed or deleted record was shown to be the plugin's by an earlier event. -/
theorem history_authorised (remote : Remote) (turns : List Turn) :
    Authorised (turns.foldl Turn.after (.initial remote)).log :=
  (history_ownership turns ⟨authorised_nil, claimed_empty, claimed_empty, by simp⟩).log

/-- The request creates a tunnel in the account. -/
def Request.createsTunnel (accountId : String) : Request → Bool
  | .postTunnel account .. => account == accountId
  | _ => false

/-- A router whose creation of a tunnel was refused, and then finds one that another
device has created under its name. -/
def adoption : List Turn :=
  [{ edit := id
     run := fixture.run "router.example.com" (List.replicate 8 .served ++
       [.refused { code := .network, message := "Cannot reach Cloudflare", not_conflict := network_ne_conflict }]) },
   { edit := fun remote =>
       { remote with
         tunnels :=
           [{ id := "00000000-0000-4000-8000-000000000099", accountId := "22222222222222222222222222222222"
              name := "xwrt-aabbcc112233", remoteConfig := some true, configSrc := some "cloudflare"
              config := { ingress := [] } }] }
     run := fixture.run "router.example.com" [] }]

def adoptionLog : List Event := (adoption.foldl Turn.after (.initial { tunnels := [], records := [], created := 0 })).log

/-- A configured tunnel need not be one that was there after a creation by the plugin. -/
theorem configures_a_found_tunnel :
    ¬ ∀ (remote : Remote) (turns : List Turn) (earlier : List Event) (event : Event) (later : List Event)
        (accountId tunnelId : String) (config : Config),
        (turns.foldl Turn.after (.initial remote)).log = earlier ++ event :: later →
        event.request = .putConfig accountId tunnelId config →
        ∃ creation ∈ earlier, creation.request.createsTunnel accountId = true ∧
          (creation.remote.tunnel? accountId tunnelId).isSome = true := by
  intro claim
  have configured : adoptionLog[12]?.map Event.request =
      some (.putConfig "22222222222222222222222222222222" "00000000-0000-4000-8000-000000000099"
        { ingress := [routeRule "router.example.com" "http://127.0.0.1:80",
            { hostname := none, service := some "http_status:404" }] }) := by decide +kernel
  obtain ⟨event, here, put⟩ := Option.map_eq_some_iff.mp configured
  obtain ⟨long, rfl⟩ := List.getElem?_eq_some_iff.mp here
  have split : adoptionLog = adoptionLog.take 12 ++ adoptionLog[12] :: adoptionLog.drop 13 := by
    rw [← List.drop_eq_getElem_cons, List.take_append_drop]
  have uncreated : ¬ ∃ creation ∈ adoptionLog.take 12,
      creation.request.createsTunnel "22222222222222222222222222222222" = true ∧
        (creation.remote.tunnel? "22222222222222222222222222222222" "00000000-0000-4000-8000-000000000099").isSome = true := by
    decide +kernel
  exact uncreated (claim _ _ _ _ _ _ _ _ split put)

end XWrt.CloudflareTunnel
