import XWrt.CloudflareTunnel.Core

/-!
# Rules for the calls of a deployment

What one call of `ctx` leads to, and from it the phases that only read: the
search for the zone, the survey of the account, and the preparation of the
route. A phase that only reads keeps every assertion that is stable under reads.
-/

namespace XWrt.CloudflareTunnel

open Foundation

variable {α : Type} {ctx : Ctx} {w : World} {done : α → World → Prop} {failed : Failure → World → Prop}

/-- Every further call of `ctx` is served. -/
def World.Calm (w : World) : Prop := ∀ outcome ∈ w.outcomes, outcome = .served

section Fields

variable (w : World) (request : Request) (answer : Option request.Answer) (remote : Remote)

@[simp] theorem World.next_remote : w.next.remote = w.remote := rfl
@[simp] theorem World.next_disk : w.next.disk = w.disk := rfl
@[simp] theorem World.next_mem : w.next.mem = w.mem := rfl
@[simp] theorem World.next_log : w.next.log = w.log := rfl
@[simp] theorem World.record_remote : (w.record request answer remote).remote = remote := rfl
@[simp] theorem World.record_disk : (w.record request answer remote).disk = w.disk := rfl
@[simp] theorem World.record_mem : (w.record request answer remote).mem = w.mem := rfl
@[simp] theorem World.record_outcomes : (w.record request answer remote).outcomes = w.outcomes := rfl

@[simp]
theorem World.record_log :
    (w.record request answer remote).log = w.log ++ [(⟨request, answer, w.mem, remote⟩ : Event)] := rfl

end Fields

theorem World.Calm.next (calm : w.Calm) : w.next.Calm :=
  fun outcome inside => calm outcome (List.mem_of_mem_tail inside)

theorem World.Calm.outcome (calm : w.Calm) : w.outcomes.head?.getD .served = .served := by
  cases shape : w.outcomes with
  | nil => rfl
  | cons outcome rest => exact calm outcome (by rw [shape]; exact List.mem_cons_self)

@[simp]
theorem wp_fail (code : Code) (message : String) :
    wp (fail code message : Deploy α) done failed w ↔ failed ⟨code, message⟩ w := Iff.rfl

theorem wp_require {holds : Bool} {code : Code} {message : String} {done : Unit → World → Prop}
    (passed : holds = true → done () w) (refused : holds = false → failed ⟨code, message⟩ w) :
    wp (require holds code message) done failed w := by
  cases holds with
  | true => exact passed rfl
  | false => exact refused rfl

theorem wp_lift {result : Except Failure α} (returns : ∀ value, result = .ok value → done value w)
    (raises : ∀ failure, result = .error failure → failed failure w) : wp (lift result) done failed w := by
  cases result with
  | ok value => exact returns value rfl
  | error failure => exact raises failure rfl

@[simp]
theorem wp_assign {change : SavedState → SavedState} {done : Unit → World → Prop} :
    wp (assign change) done failed w ↔ done () { w with mem := change w.mem } := Iff.rfl

/-- A call that is not a request: it is served, or the run fails with an error from outside
before or after its effect. -/
theorem wp_call {action : Deploy α} {value : α} {w' : World} (runs : action w.next = .ok value w')
    (served : done value w')
    (broken : ∀ (outage : Outage) w'', ¬ w.Calm → w'' = w.next ∨ w'' = w' → failed outage.toFailure w'') :
    wp (call action) done failed w := by
  have uncalm (outcome : Outcome) (here : w.outcomes.head?.getD .served = outcome)
      (differs : outcome ≠ .served) : ¬ w.Calm := fun calm => differs (here.symm.trans calm.outcome)
  simp only [call, nextOutcome, wp_bind, wp_get, wp_set, wp_pure]
  cases here : w.outcomes.head?.getD .served with
  | served => simpa only [wp, runs] using served
  | refused outage => exact broken outage _ (uncalm _ here (by simp)) (.inl rfl)
  | lost outage =>
      simp only [wp_bind, wp_throw]
      simpa only [wp, runs] using broken outage _ (uncalm _ here (by simp)) (.inr rfl)

/-- A request: it is answered, or the run fails before or after its effect. Without an
outage it fails only when there is no answer. -/
theorem wp_api {request : Request} {done : request.Answer → World → Prop}
    (answered : ∀ answer, (serve ctx.cloud request w.remote).1 = some answer →
      done answer (w.next.record request (some answer) (serve ctx.cloud request w.remote).2))
    (broken : ∀ (failure : Failure) remote, failure.code ≠ .conflict →
      remote = w.remote ∨ remote = (serve ctx.cloud request w.remote).2 →
      (w.Calm → (serve ctx.cloud request w.remote).1 = none) →
      failed failure (w.next.record request none remote)) :
    wp (api ctx request) done failed w := by
  have uncalm (outcome : Outcome) (here : w.outcomes.head?.getD .served = outcome)
      (differs : outcome ≠ .served) : w.Calm → (serve ctx.cloud request w.remote).1 = none :=
    fun calm => absurd (here.symm.trans calm.outcome) differs
  simp only [api, nextOutcome, exchange, wp_bind, wp_get, wp_set, wp_pure]
  cases here : w.outcomes.head?.getD .served with
  | served =>
      simp only [wp_bind, wp_get, wp_set, wp_pure, World.next_remote, if_true]
      cases answer : (serve ctx.cloud request w.remote).1 with
      | some value => exact answered value answer
      | none => exact broken _ _ (by simp) (.inr rfl) fun _ => answer
  | refused outage =>
      exact broken outage.toFailure w.remote outage.not_conflict (.inl rfl) (uncalm _ here (by simp))
  | lost outage =>
      simp only [wp_bind, wp_get, wp_set, wp_pure, wp_throw, World.next_remote]
      exact broken outage.toFailure _ outage.not_conflict (.inr rfl) (uncalm _ here (by simp))

/-- A request that only reads. -/
theorem wp_api_get {request : Request} {done : request.Answer → World → Prop} (get : request.method = .get)
    (answered : ∀ answer, (serve ctx.cloud request w.remote).1 = some answer →
      done answer (w.next.record request (some answer) w.remote))
    (broken : ∀ failure : Failure, failure.code ≠ .conflict →
      (w.Calm → (serve ctx.cloud request w.remote).1 = none) → failed failure (w.next.record request none w.remote)) :
    wp (api ctx request) done failed w := by
  have unchanged : (serve ctx.cloud request w.remote).2 = w.remote := serve_get w.remote get
  refine wp_api (fun answer served => ?_) fun failure remote foreign reached missing => ?_
  · rw [unchanged]
    exact answered answer served
  · rw [unchanged, or_self] at reached
    rw [reached]
    exact broken failure foreign missing

theorem wp_progress {stage : String} {done : Unit → World → Prop}
    (served : done () { w.next with stage := stage })
    (broken : ∀ (outage : Outage) shown, ¬ w.Calm → failed outage.toFailure { w.next with stage := shown }) :
    wp (progress stage) done failed w := by
  refine wp_call rfl served fun outage w' uncalm reached => ?_
  rcases reached with rfl | rfl
  · exact broken outage w.stage uncalm
  · exact broken outage stage uncalm

theorem wp_save {done : Unit → World → Prop} (served : done () { w.next with disk := w.mem })
    (broken : ∀ (outage : Outage) disk, ¬ w.Calm → disk = w.disk ∨ disk = w.mem →
      failed outage.toFailure { w.next with disk := disk }) :
    wp save done failed w := by
  refine wp_call rfl served fun outage w' uncalm reached => ?_
  rcases reached with rfl | rfl
  · exact broken outage w.disk uncalm (.inl rfl)
  · exact broken outage w.mem uncalm (.inr rfl)

/-! ## Pure checks -/

theorem namedTunnel_eq_some {name : String} {items : List Tunnel} {tunnel : Tunnel}
    (named : ∀ item ∈ items, item.name = name) (found : namedTunnel name none items = .ok (some tunnel)) :
    items = [tunnel] := by
  match items with
  | [] => cases found
  | [item] =>
      simp only [namedTunnel, named item List.mem_cons_self, if_true, Except.ok.injEq, Option.some.injEq] at found
      rw [found]
  | first :: second :: rest => simp [namedTunnel, named] at found

theorem namedTunnel_eq_none {name : String} {items : List Tunnel}
    (named : ∀ item ∈ items, item.name = name) (missing : namedTunnel name none items = .ok none) : items = [] := by
  match items with
  | [] => rfl
  | [item] => simp [namedTunnel, named] at missing
  | first :: second :: rest => simp [namedTunnel, named] at missing

theorem matchingDns_eq_some {records : List DnsRecord} {hostname target : String} {record : DnsRecord}
    (found : matchingDns records hostname target = .ok (some record)) :
    records = [record] ∧ record.name = hostname ∧ record.type = "CNAME" ∧ record.content = target := by
  cases records with
  | nil => cases found
  | cons first rest =>
      simp only [matchingDns] at found
      split_ifs at found with matched
      cases found
      simpa only [not_or, not_not, List.cons.injEq, true_and] using matched

/-! ## Stable assertions -/

/-- An assertion that does not depend on what is shown to the user or found by the last
check, and that reads and saving the state keep. -/
structure Stable (inv : World → Prop) : Prop where
  next : ∀ {w}, inv w → inv w.next
  shown : ∀ {w} stage, inv w → inv { w with stage := stage }
  connector : ∀ {w} token, inv w → inv { w with connector := token }
  read : ∀ {w} {request : Request} answer, request.method = .get → inv w → inv (w.record request answer w.remote)
  saved : ∀ {w}, inv w → inv { w with disk := w.mem }
  checked : ∀ {w} httpsOk pending time, inv w →
    inv { w with mem := { w.mem with httpsOk := httpsOk, dnsCachePending := pending, checkedAt := time } }

variable {inv inv' : World → Prop} {hostname : String}

theorem Stable.and (stable : Stable inv) (stable' : Stable inv') : Stable fun w => inv w ∧ inv' w where
  next := fun both => ⟨stable.next both.1, stable'.next both.2⟩
  shown := fun stage both => ⟨stable.shown stage both.1, stable'.shown stage both.2⟩
  connector := fun token both => ⟨stable.connector token both.1, stable'.connector token both.2⟩
  read := fun answer get both => ⟨stable.read answer get both.1, stable'.read answer get both.2⟩
  saved := fun both => ⟨stable.saved both.1, stable'.saved both.2⟩
  checked := fun httpsOk pending time both =>
    ⟨stable.checked httpsOk pending time both.1, stable'.checked httpsOk pending time both.2⟩

theorem Stable.progress_spec {stage : String} (stable : Stable inv) (start : inv w) :
    wp (progress stage) (fun _ w' => inv w' ∧ w' = { w.next with stage := stage })
      (fun failure w' => inv w' ∧ failure.code ≠ .conflict ∧ ¬ w.Calm) w :=
  wp_progress ⟨stable.shown stage (stable.next start), rfl⟩ fun outage shown uncalm =>
    ⟨stable.shown shown (stable.next start), outage.not_conflict, uncalm⟩

theorem Stable.save_spec (stable : Stable inv) (start : inv w) :
    wp save (fun _ w' => inv w' ∧ w' = { w.next with disk := w.mem })
      (fun failure w' => inv w' ∧ failure.code ≠ .conflict ∧ ¬ w.Calm) w := by
  refine wp_save ⟨stable.saved (stable.next start), rfl⟩ fun outage disk uncalm reached => ?_
  rcases reached with rfl | rfl
  · exact ⟨stable.next start, outage.not_conflict, uncalm⟩
  · exact ⟨stable.saved (stable.next start), outage.not_conflict, uncalm⟩

theorem Stable.activate_spec {token : String} (stable : Stable inv) (start : inv w) :
    wp (activate token) (fun _ w' => inv w' ∧ w' = { w.next with connector := some token })
      (fun failure w' => inv w' ∧ failure.code ≠ .conflict ∧ ¬ w.Calm) w := by
  refine wp_call rfl ⟨stable.connector _ (stable.next start), rfl⟩ fun outage w' uncalm reached => ?_
  rcases reached with rfl | rfl
  · exact ⟨stable.next start, outage.not_conflict, uncalm⟩
  · exact ⟨stable.connector _ (stable.next start), outage.not_conflict, uncalm⟩

theorem Stable.finish_spec {accountId tunnelId : String} {warnings : List String} (stable : Stable inv) (start : inv w) :
    wp (finish ctx hostname accountId tunnelId warnings) (fun result w' => inv w' ∧ result.tunnelId = tunnelId)
      (fun failure w' => inv w' ∧ failure.code ≠ .conflict ∧ ¬ w.Calm) w := by
  unfold finish
  refine wp_seq (stable.progress_spec start) ?_ fun _ _ fails => fails
  rintro - w₁ ⟨kept₁, rfl⟩
  refine wp_bind.mpr (wp_call rfl ?_ fun outage w' uncalm reached => ?_)
  case refine_2 =>
      rw [or_self] at reached
      exact ⟨reached ▸ stable.next kept₁, outage.not_conflict, fun calm => uncalm calm.next⟩
  refine wp_bind.mpr (wp_assign.mpr ?_)
  refine wp_seq (stable.save_spec (stable.checked _ _ _ (stable.next kept₁))) ?_ ?_
  · rintro - w' ⟨kept, -⟩
    exact ⟨kept, rfl⟩
  · rintro failure w' ⟨kept, foreign, uncalm⟩
    exact ⟨kept, foreign, fun calm => uncalm calm.next.next⟩

/-! ## Phases that only read -/

/-- `M.find_zone` on the zones the token reads. -/
def zoneOf (cloud : Cloud) (hostname : String) : List String → Except Failure Zone
  | [] => .error ⟨.zone, "No active Cloudflare zone matches this hostname. Check Zone Read permission and the token's zone scope."⟩
  | candidate :: rest =>
      match (cloud.zonesNamed candidate).find? (isActive candidate) with
      | some zone => acceptZone hostname zone
      | none => zoneOf cloud hostname rest

theorem acceptZone_eq_ok {zone accepted : Zone} (ok : acceptZone hostname zone = .ok accepted) :
    accepted = zone ∧ isId zone.id = true ∧ ∃ accountId, zone.account = some accountId ∧ isId accountId = true := by
  unfold acceptZone at ok
  split_ifs at ok with ids
  simp only [Bool.or_eq_true, Bool.not_eq_true', not_or, Bool.not_eq_false, Option.any_eq_true] at ids
  obtain ⟨zoneId, accountId, account, valid⟩ := ids
  cases ok
  exact ⟨rfl, zoneId, accountId, account, valid⟩

theorem acceptZone_error {zone : Zone} {failure : Failure} (fails : acceptZone hostname zone = .error failure) :
    failure.code ≠ .conflict := by
  unfold acceptZone at fails
  split_ifs at fails <;> (cases fails; simp)

theorem zoneOf_eq_ok {cloud : Cloud} {names : List String} {zone : Zone}
    (found : zoneOf cloud hostname names = .ok zone) :
    zone ∈ cloud.zones ∧ zone.status = "active" ∧ isId zone.id = true ∧
      ∃ accountId, zone.account = some accountId ∧ isId accountId = true := by
  induction names with
  | nil => cases found
  | cons candidate rest ih =>
      unfold zoneOf at found
      split at found
      case h_1 active found? =>
          obtain ⟨rfl, valid⟩ := acceptZone_eq_ok found
          have listed := List.mem_of_find?_eq_some found?
          have matched := List.find?_some found?
          simp only [isActive, Bool.and_eq_true, beq_iff_eq] at matched
          exact ⟨List.mem_of_mem_filter (List.mem_of_mem_take listed), matched.2, valid⟩
      case h_2 => exact ih found

/-- What a phase that only reads leaves as it was. -/
structure World.Same (w w' : World) : Prop where
  remote : w'.remote = w.remote
  disk : w'.disk = w.disk
  mem : w'.mem = w.mem
  calm : w.Calm → w'.Calm
  log : ∀ event ∈ w.log, event ∈ w'.log

theorem World.Same.refl (w : World) : w.Same w := ⟨rfl, rfl, rfl, id, fun _ inside => inside⟩

theorem World.Same.trans {w w' w'' : World} (first : w.Same w') (second : w'.Same w'') : w.Same w'' where
  remote := second.remote.trans first.remote
  disk := second.disk.trans first.disk
  mem := second.mem.trans first.mem
  calm := second.calm ∘ first.calm
  log := fun event inside => second.log event (first.log event inside)

theorem World.same_stage (w : World) (stage : String) : w.Same { w.next with stage := stage } :=
  ⟨rfl, rfl, rfl, World.Calm.next, fun _ inside => inside⟩

theorem World.same_read (w : World) (request : Request) (answer : Option request.Answer) :
    w.Same (w.next.record request answer w.remote) :=
  ⟨rfl, rfl, rfl, World.Calm.next, fun _ inside => by simp [inside]⟩

/-- A request that only reads, under a stable assertion. -/
theorem Stable.get_spec {request : Request} (stable : Stable inv) (get : request.method = .get) (start : inv w) :
    wp (api ctx request)
      (fun answer w' => inv w' ∧ w.Same w' ∧ (serve ctx.cloud request w.remote).1 = some answer ∧
        (⟨request, some answer, w.mem, w.remote⟩ : Event) ∈ w'.log)
      (fun failure w' => inv w' ∧ w.Same w' ∧ failure.code ≠ .conflict ∧
        (w.Calm → (serve ctx.cloud request w.remote).1 = none)) w :=
  wp_api_get get
    (fun answer served => ⟨stable.read (some answer) get (stable.next start), w.same_read _ _, served, by simp⟩)
    fun _ foreign missing => ⟨stable.read none get (stable.next start), w.same_read _ _, foreign, missing⟩

theorem Stable.searchZone_spec (stable : Stable inv) (names : List String) (start : inv w) :
    wp (searchZone ctx hostname names)
      (fun zone w' => inv w' ∧ w.Same w' ∧ zoneOf ctx.cloud hostname names = .ok zone)
      (fun failure w' => inv w' ∧ w.Same w' ∧ failure.code ≠ .conflict ∧
        (w.Calm → zoneOf ctx.cloud hostname names = .error failure)) w := by
  induction names generalizing w with
  | nil => exact ⟨start, .refl w, by simp, fun _ => rfl⟩
  | cons candidate rest ih =>
      refine wp_seq (stable.get_spec rfl start) ?_ ?_
      · rintro zones w' ⟨kept, same, served, -⟩
        cases served
        unfold zoneOf
        cases (ctx.cloud.zonesNamed candidate).find? (isActive candidate) with
        | some zone =>
            exact wp_lift (fun accepted ok => ⟨kept, same, ok⟩)
              fun failure fails => ⟨kept, same, acceptZone_error fails, fun _ => fails⟩
        | none =>
            refine wp_mono (ih kept) ?_ ?_
            · rintro zone w'' ⟨kept', same', found⟩
              exact ⟨kept', same.trans same', found⟩
            · rintro failure w'' ⟨kept', same', foreign, fails⟩
              exact ⟨kept', same.trans same', foreign, fun calm => fails (same.calm calm)⟩
      · rintro failure w' ⟨kept, same, foreign, missing⟩
        exact ⟨kept, same, foreign, fun calm => absurd (missing calm) (by simp [serve])⟩

/-- The zone of a hostname. -/
def hostZone (cloud : Cloud) (hostname : String) : Except Failure Zone :=
  zoneOf cloud hostname (candidates hostname.toList)

/-- What a survey of the account in `w` finds, when it ends in `w'`. -/
structure Survey.Seen (ctx : Ctx) (hostname : String) (found : Survey) (w w' : World) : Prop where
  same : w.Same w'
  zone : hostZone ctx.cloud hostname = .ok found.zone
  account : found.zone.account = some found.accountId
  records : found.records = (w.remote.recordsNamed found.zone.id hostname).take 100
  tunnel : namedTunnel ctx.tunnelName none ((w.remote.tunnelsNamed found.accountId ctx.tunnelName).take 100) = .ok found.tunnel
  listedRecords : (⟨.getRecords found.zone.id hostname, some found.records, w.mem, w.remote⟩ : Event) ∈ w'.log
  listedTunnels : (⟨.getTunnels found.accountId ctx.tunnelName,
    some ((w.remote.tunnelsNamed found.accountId ctx.tunnelName).take 100), w.mem, w.remote⟩ : Event) ∈ w'.log

theorem Stable.survey_spec (stable : Stable inv) (start : inv w) :
    wp (survey ctx hostname) (fun found w' => inv w' ∧ found.Seen ctx hostname w w')
      (fun failure w' => inv w' ∧ (w.Calm → hostZone ctx.cloud hostname = .error failure ∨
        ∃ zone accountId, hostZone ctx.cloud hostname = .ok zone ∧ zone.account = some accountId ∧
          namedTunnel ctx.tunnelName none ((w.remote.tunnelsNamed accountId ctx.tunnelName).take 100) = .error failure)) w := by
  unfold survey
  refine wp_bind.mpr (wp_call rfl ?_ fun outage w' uncalm reached => ?_)
  case refine_2 =>
      rw [or_self] at reached
      exact ⟨reached ▸ stable.next start, fun calm => absurd calm uncalm⟩
  refine wp_seq (stable.progress_spec (stable.next start)) ?_ ?_
  case refine_2 =>
      rintro failure w' ⟨kept, -, uncalm⟩
      exact ⟨kept, fun calm => absurd calm.next uncalm⟩
  rintro - w₁ ⟨kept₁, rfl⟩
  have same₁ : w.Same { w.next.next with stage := "zone" } := ⟨rfl, rfl, rfl, fun calm => calm.next.next, fun _ inside => inside⟩
  refine wp_seq (stable.searchZone_spec _ kept₁) ?_ ?_
  case refine_2 =>
      rintro failure w' ⟨kept, -, -, fails⟩
      exact ⟨kept, fun calm => .inl (fails calm.next.next)⟩
  rintro zone w₂ ⟨kept₂, same₂, found⟩
  have account : zone.account = some (zone.account.getD "") := by
    obtain ⟨-, -, -, accountId, account, -⟩ := zoneOf_eq_ok found
    rw [account, Option.getD_some]
  generalize zone.account.getD "" = accountId at account ⊢
  refine wp_seq (stable.get_spec rfl kept₂) ?_ ?_
  case refine_2 =>
      rintro failure w' ⟨kept, -, -, missing⟩
      exact ⟨kept, fun calm => absurd (missing (same₂.calm (same₁.calm calm))) (by simp [serve])⟩
  rintro records w₃ ⟨kept₃, same₃, answered₃, listed₃⟩
  refine wp_seq (stable.get_spec rfl kept₃) ?_ ?_
  case refine_2 =>
      rintro failure w' ⟨kept, -, -, missing⟩
      exact ⟨kept, fun calm => absurd (missing (same₃.calm (same₂.calm (same₁.calm calm)))) (by simp [serve])⟩
  rintro tunnels w₄ ⟨kept₄, same₄, answered₄, listed₄⟩
  have upTo₂ := same₁.trans same₂
  have upTo₃ := upTo₂.trans same₃
  cases answered₃
  cases answered₄
  rw [upTo₂.remote] at listed₃
  rw [upTo₂.mem] at listed₃
  rw [upTo₃.remote, upTo₃.mem] at listed₄
  refine wp_bind.mpr (wp_lift (fun tunnel named => ?_) fun failure fails => ?_)
  · rw [upTo₃.remote] at named
    refine ⟨kept₄, ⟨upTo₃.trans same₄, found, account, ?_, named, ?_, listed₄⟩⟩
    · rw [upTo₂.remote]
    · rw [upTo₂.remote]
      exact same₄.log _ listed₃
  · rw [upTo₃.remote] at fails
    exact ⟨kept₄, fun _ => .inr ⟨zone, accountId, found, account, fails⟩⟩

/-- The configuration that gives the hostname its route, if the tunnel exists. -/
def routeOn (ctx : Ctx) (hostname accountId tunnelId : String) (w : World) : Option (Except Failure Config) :=
  (w.remote.tunnel? accountId tunnelId).map fun tunnel =>
    ingressFor tunnel.config hostname ctx.origin (w.mem.active.filter fun active => active.tunnelId = tunnelId)

theorem Stable.prepareRoute_spec {accountId : String} {made : NewTunnel} (stable : Stable inv) (start : inv w) :
    wp (prepareRoute ctx hostname accountId made)
      (fun route w' => inv w' ∧ w.Same w' ∧ routeOn ctx hostname accountId made.tunnel.id w = some (.ok route.1))
      (fun failure w' => inv w' ∧
        (failure.code = .conflict → w.Same w' ∧ routeOn ctx hostname accountId made.tunnel.id w = some (.error failure)) ∧
        (w.Calm → isUuid made.tunnel.id = true → (∀ token, made.token = some token → isConnectorToken token = true) →
          isConnectorToken (ctx.cloud.connectorToken made.tunnel.id) = true →
          ∀ config, routeOn ctx hostname accountId made.tunnel.id w ≠ some (.ok config))) w := by
  unfold prepareRoute
  refine wp_bind.mpr (wp_require (fun valid => ?_) fun invalid => ?_)
  case refine_2 => exact ⟨start, by simp, fun _ valid => by simp [valid] at invalid⟩
  refine wp_seq (stable.get_spec rfl start) ?_ ?_
  case refine_2 =>
      rintro failure w' ⟨kept, -, foreign, missing⟩
      refine ⟨kept, fun conflict => absurd conflict foreign, fun calm _ _ _ config => ?_⟩
      have gone : w.remote.tunnel? accountId made.tunnel.id = none := by simpa [serve] using missing calm
      simp [routeOn, gone]
  rintro current w₁ ⟨kept₁, same₁, answered, -⟩
  obtain ⟨tunnel, there, rfl⟩ : ∃ tunnel, w.remote.tunnel? accountId made.tunnel.id = some tunnel ∧ tunnel.config = current := by
    simpa [serve] using answered
  have route : routeOn ctx hostname accountId made.tunnel.id w = some (ingressFor tunnel.config hostname ctx.origin
      (w.mem.active.filter fun active => active.tunnelId = made.tunnel.id)) := by
    simp [routeOn, there]
  have named : tunnel.id = made.tunnel.id := (Remote.tunnel?_eq_some there).2.2
  rw [wp_bind, wp_get, same₁.mem]
  refine wp_bind.mpr (wp_lift (fun config merged => ?_) fun failure conflict => ?_)
  case refine_2 =>
      refine ⟨kept₁, fun _ => ⟨same₁, by rw [route, conflict]⟩, fun _ _ _ _ config => ?_⟩
      rw [route, conflict]
      simp
  rw [merged] at route
  cases issued : made.token with
  | some token =>
      simp only [wp_bind, wp_pure]
      refine wp_require (fun _ => ⟨kept₁, same₁, route⟩) fun invalid => ⟨kept₁, by simp, fun _ _ valid => ?_⟩
      simp [valid token rfl] at invalid
  | none =>
      refine wp_seq (stable.get_spec rfl kept₁) ?_ ?_
      · rintro token w₂ ⟨kept₂, same₂, given, -⟩
        rw [same₁.remote] at given
        simp only [serve, there, Option.map_some, Option.some.injEq, named] at given
        refine wp_bind.mpr (wp_require (fun _ => ?_) fun invalid => ?_)
        · exact ⟨kept₂, same₁.trans same₂, route⟩
        · refine ⟨kept₂, by simp, fun _ _ _ valid => ?_⟩
          rw [given, invalid] at valid
          cases valid
      · rintro failure w' ⟨kept, -, foreign, missing⟩
        refine ⟨kept, fun conflict => absurd conflict foreign, fun calm => ?_⟩
        have gone := missing (same₁.calm calm)
        rw [same₁.remote] at gone
        simp [serve, there] at gone

/-! ## Phases that save the state -/

/-- The checks on the listed tunnel against its saved entry. -/
def Survey.settled (ctx : Ctx) (found : Survey) (state : SavedState) : Bool :=
  let saved := state.tunnels.lookup found.accountId
  match found.tunnel with
  | some tunnel => saved.any (·.manages ctx.tunnelName tunnel) &&
      (tunnel.remoteConfig != some false && tunnel.configSrc != some "local")
  | none => saved.isNone || found.records.isEmpty

/-- The saved entry of an account once its tunnel has answered. -/
def Ctx.tunnelEntry (ctx : Ctx) (tunnelId : String) : SavedTunnel :=
  { id := some tunnelId, name := ctx.tunnelName, pending := false }

theorem Stable.reconcileTunnel_spec {found : Survey} (stable : Stable inv) (start : inv w)
    (adopted : ∀ tunnel, found.tunnel = some tunnel → found.settled ctx w.mem = true →
      inv { w with mem := { w.mem with tunnels := w.mem.tunnels.insert found.accountId (ctx.tunnelEntry tunnel.id) } }) :
    wp (reconcileTunnel ctx found)
      (fun _ w' => inv w' ∧ found.settled ctx w.mem = true ∧ w'.remote = w.remote ∧ w'.log = w.log ∧
        w'.mem.dns = w.mem.dns ∧ w'.mem.active = w.mem.active ∧
        ∀ tunnel, found.tunnel = some tunnel →
          ∃ saved, w'.mem.tunnels.lookup found.accountId = some saved ∧ saved.id = some tunnel.id)
      (fun _ w' => inv w' ∧ w'.remote = w.remote ∧ w'.log = w.log ∧ (w.Calm → found.settled ctx w.mem = false)) w := by
  unfold reconcileTunnel
  rw [wp_bind, wp_get]
  cases listed : found.tunnel with
  | none =>
      refine wp_require (fun passed => ?_) fun refused => ⟨start, rfl, rfl, fun _ => by simpa [Survey.settled, listed] using refused⟩
      exact ⟨start, by simpa [Survey.settled, listed] using passed, rfl, rfl, rfl, rfl, by simp⟩
  | some tunnel =>
      refine wp_bind.mpr (wp_require (fun managed => ?_) fun refused => ⟨start, rfl, rfl, fun _ => by simp [Survey.settled, listed, refused]⟩)
      refine wp_bind.mpr (wp_require (fun remotely => ?_) fun refused => ⟨start, rfl, rfl, fun _ => by simp [Survey.settled, listed, refused]⟩)
      have settled : found.settled ctx w.mem = true := by
        simp only [Survey.settled, listed, managed, remotely, Bool.and_self]
      have keeps := stable.next (adopted tunnel listed settled)
      split_ifs with pending
      · refine wp_bind.mpr (wp_assign.mpr (wp_save ?_ fun outage disk uncalm reached => ?_))
        · refine ⟨stable.saved keeps, settled, rfl, rfl, rfl, rfl, fun tunnel' same => ?_⟩
          cases same
          exact ⟨_, AList.lookup_insert _, rfl⟩
        · rcases reached with rfl | rfl
          · exact ⟨keeps, rfl, rfl, fun calm => absurd calm uncalm⟩
          · exact ⟨stable.saved keeps, rfl, rfl, fun calm => absurd calm uncalm⟩
      · refine ⟨start, settled, rfl, rfl, rfl, rfl, fun tunnel' same => ?_⟩
        cases same
        rw [Option.any_eq_true] at managed
        obtain ⟨saved, entry, manages⟩ := managed
        simp only [entry, Option.any_some] at pending
        simp only [SavedTunnel.manages, pending, Bool.false_and, Bool.or_false, beq_iff_eq] at manages
        exact ⟨saved, entry, manages⟩

/-- A run either has its tunnel or creates it between two changes of its saved entry. -/
theorem Stable.ensureTunnel_spec {accountId : String} {tunnel : Option Tunnel} (stable : Stable inv) (start : inv w)
    (entered : ∀ {w} saved, inv w → inv { w with mem := { w.mem with tunnels := w.mem.tunnels.insert accountId saved } })
    (posted : ∀ {w} answer remote, inv w →
      remote = w.remote ∨ remote = (serve ctx.cloud (.postTunnel accountId ctx.tunnelName "cloudflare") w.remote).2 →
      inv (w.record (.postTunnel accountId ctx.tunnelName "cloudflare") answer remote)) :
    wp (ensureTunnel ctx accountId tunnel) (fun _ w' => inv w') (fun _ w' => inv w') w := by
  cases tunnel with
  | some tunnel => exact start
  | none =>
      apply wp_bind.mpr
      apply wp_assign.mpr
      apply wp_bind.mpr
      apply wp_mono (stable.save_spec (entered _ start)) _ fun _ _ fails => fails.1
      rintro - w₁ ⟨kept₁, -⟩
      apply wp_bind.mpr
      apply wp_api _ fun _ remote _ reached _ => posted none remote (stable.next kept₁) reached
      intro made _
      have kept₂ := posted (some made) _ (stable.next kept₁) (.inr rfl)
      apply wp_bind.mpr
      apply wp_require _ fun _ => kept₂
      intro _
      apply wp_bind.mpr
      apply wp_assign.mpr
      apply wp_bind.mpr
      exact wp_mono (stable.save_spec (entered _ kept₂)) (fun _ _ saved => saved.1) fun _ _ fails => fails.1

/-- The saved entry of a record, pending until its id is known. -/
def recordEntry (id : Option String) (zoneId hostname tunnelId : String) : SavedDns :=
  { id := id, zoneId := zoneId, hostname := hostname, tunnelId := tunnelId, owned := true, pending := id.isNone }

/-- The world with another saved entry of a record in the `state` table. -/
def World.enter (w : World) (key : String) (saved : SavedDns) : World :=
  { w with mem := { w.mem with dns := w.mem.dns.insert key saved } }

/-- A run either has its record, which it may have to proxy, or creates it between two changes
of its saved entry. -/
theorem Stable.ensureRecord_spec {zoneId tunnelId : String} {listed : Option DnsRecord} (stable : Stable inv) (start : inv w)
    (marked : ∀ {w}, inv w → inv (w.enter (dnsKey zoneId hostname) (recordEntry none zoneId hostname tunnelId)))
    (posted : ∀ {w} {type name comment} answer remote, inv w →
      remote = w.remote ∨ remote = (serve ctx.cloud (.postRecord zoneId type hostname name true 1 comment) w.remote).2 →
      inv (w.record (.postRecord zoneId type hostname name true 1 comment) answer remote))
    (entered : ∀ {w} {record : DnsRecord} {comment state remote}, inv w →
      (⟨.postRecord zoneId "CNAME" hostname (target tunnelId) true 1 comment, some record, state, remote⟩ : Event) ∈ w.log →
      record ∈ w.remote.records → record.zoneId = zoneId → record.name = hostname →
      inv (w.enter (dnsKey zoneId hostname) (recordEntry (some record.id) zoneId hostname tunnelId)))
    (patched : ∀ {w} {recordId saved} answer remote, inv w → w.mem.dns.lookup (dnsKey zoneId hostname) = some saved →
      saved.id = some recordId → listed.map DnsRecord.id = some recordId → remote = w.remote ∨ remote = w.remote.setProxied zoneId recordId true →
      inv (w.record (.patchRecord zoneId recordId true) answer remote)) :
    wp (ensureRecord ctx zoneId hostname tunnelId listed) (fun _ w' => inv w') (fun _ w' => inv w') w := by
  cases listed with
  | some record =>
      unfold ensureRecord
      dsimp only
      split_ifs
      · exact start
      · apply wp_bind.mpr
        apply wp_get.mpr
        apply wp_bind.mpr
        apply wp_require _ fun _ => start
        intro checked
        simp only [Option.any_eq_true, Bool.and_eq_true, beq_iff_eq] at checked
        obtain ⟨saved, entry, known, -⟩ := checked
        apply wp_bind.mpr
        apply wp_api
        · exact fun answer _ => patched (some answer) _ (stable.next start) entry known rfl (.inr rfl)
        · exact fun _ remote _ reached _ => patched none remote (stable.next start) entry known rfl reached
  | none =>
      apply wp_bind.mpr
      apply wp_assign.mpr
      apply wp_bind.mpr
      apply wp_mono (stable.save_spec (marked start)) _ fun _ _ fails => fails.1
      rintro - w₁ ⟨kept₁, -⟩
      apply wp_bind.mpr
      apply wp_api _ fun _ remote _ reached _ => posted none remote (stable.next kept₁) reached
      intro made served
      have kept₂ := posted (some made) _ (stable.next kept₁) (.inr rfl)
      apply wp_bind.mpr
      apply wp_require _ fun _ => kept₂
      intro _
      apply wp_bind.mpr
      apply wp_assign.mpr
      apply wp_bind.mpr
      cases served
      have kept₃ := entered kept₂ List.mem_concat_self List.mem_cons_self rfl rfl
      exact wp_mono (stable.save_spec kept₃) (fun _ _ saved => saved.1) fun _ _ fails => fails.1

theorem Stable.adoptRecord_spec {key tunnelId : String} {listed : Option DnsRecord} (stable : Stable inv) (start : inv w)
    (adopted : ∀ record saved, listed = some record → w.mem.dns.lookup key = some saved → saved.pending = true →
      inv { w with mem := { w.mem with dns := w.mem.dns.insert key { saved with id := some record.id, pending := false } } }) :
    wp (adoptRecord key tunnelId listed) (fun _ w' => inv w' ∧ w'.remote = w.remote)
      (fun failure w' => inv w' ∧ failure.code ≠ .conflict ∧ ¬ w.Calm) w := by
  cases listed with
  | none => exact ⟨start, rfl⟩
  | some record =>
      unfold adoptRecord
      rw [wp_bind, wp_get]
      cases entry : w.mem.dns.lookup key with
      | none => exact ⟨start, rfl⟩
      | some saved =>
          dsimp only
          split_ifs with pending
          · rw [Bool.and_eq_true] at pending
            refine wp_bind.mpr (wp_assign.mpr ?_)
            refine wp_mono (stable.save_spec (adopted record saved rfl entry pending.1)) ?_ fun _ _ fails => fails
            rintro - w' ⟨kept, rfl⟩
            exact ⟨kept, rfl⟩
          · exact ⟨start, rfl⟩

theorem Stable.publish_spec {active : Active} {config : Config} {token : String} (stable : Stable inv) (start : inv w)
    (put : ∀ {w'} answer remote, w.Same w' → inv w' →
      remote = w'.remote ∨ remote = w'.remote.setConfig active.accountId active.tunnelId config →
      inv (w'.record (.putConfig active.accountId active.tunnelId config) answer remote))
    (activated : ∀ {w'}, inv w' → inv { w' with mem := { w'.mem with active := some active } }) :
    wp (publish ctx active config token) (fun _ w' => inv w')
      (fun failure w' => inv w' ∧ failure.code ≠ .conflict ∧
        (w.Calm → w.remote.tunnel? active.accountId active.tunnelId = none)) w := by
  unfold publish
  refine wp_seq (stable.progress_spec start) ?_ ?_
  case refine_2 =>
      rintro failure w' ⟨kept, foreign, uncalm⟩
      exact ⟨kept, foreign, fun calm => absurd calm uncalm⟩
  rintro - w₁ ⟨kept₁, rfl⟩
  have same₁ := w.same_stage "configure"
  have same₂ : w.Same ({ w.next with stage := "configure" } : World).next := same₁.trans ⟨rfl, rfl, rfl, World.Calm.next, fun _ inside => inside⟩
  refine wp_bind.mpr (wp_api (fun answer _ => ?_) fun failure remote foreign reached missing => ?_)
  case refine_2 =>
      refine ⟨put none remote same₂ (stable.next kept₁) reached, foreign, fun calm => ?_⟩
      simpa [serve] using missing (same₁.calm calm)
  have kept₂ := put (some answer) _ same₂ (stable.next kept₁) (.inr rfl)
  have calm₂ : w.Calm → (({ w.next with stage := "configure" } : World).next).Calm := same₂.calm
  refine wp_seq (stable.progress_spec kept₂) ?_ ?_
  case refine_2 =>
      rintro failure w' ⟨kept, foreign, uncalm⟩
      exact ⟨kept, foreign, fun calm => absurd (calm₂ calm) uncalm⟩
  rintro - w₃ ⟨kept₃, rfl⟩
  refine wp_seq (stable.activate_spec kept₃) ?_ ?_
  case refine_2 =>
      rintro failure w' ⟨kept, foreign, uncalm⟩
      exact ⟨kept, foreign, fun calm => absurd (calm₂ calm).next uncalm⟩
  rintro - w₄ ⟨kept₄, rfl⟩
  refine wp_bind.mpr (wp_assign.mpr (wp_mono (stable.save_spec (activated kept₄)) ?_ ?_))
  · rintro - w₅ ⟨kept₅, -⟩
    exact kept₅
  · rintro failure w' ⟨kept, foreign, uncalm⟩
    exact ⟨kept, foreign, fun calm => absurd (calm₂ calm).next.next uncalm⟩

/-! ## The clean-up -/

/-- The request for the record of an old entry, just answered, shows it as the entry has it. -/
structure SavedDns.Confirmed (old : SavedDns) (recordId : String) (existing : DnsRecord) (log : List Event) : Prop where
  name : existing.name = old.hostname
  type : existing.type = "CNAME"
  content : existing.content = target old.tunnelId
  last : ∃ state remote, log.getLast? = some (⟨.getRecord old.zoneId recordId, some existing, state, remote⟩ : Event)

/-- What a clean-up behind the entry `key` may do to another owned entry of `state.dns`
without affecting the assertion: give it the id of the only record of its hostname, delete
the record it names when that is shown as the entry has it, and forget it. -/
structure Sweeps (key : String) (inv : World → Prop) : Prop extends Stable inv where
  found : ∀ {w oldKey old only}, inv w → w.mem.dns.lookup oldKey = some old → oldKey ≠ key →
    old.owned = true → old.id = none →
    (⟨.getRecords old.zoneId old.hostname, some [only], w.mem, w.remote⟩ : Event) ∈ w.log →
    inv { w with mem := { w.mem with dns := w.mem.dns.insert oldKey { old with id := some only.id } } }
  removed : ∀ {w oldKey old recordId existing} answer remote, inv w →
    w.mem.dns.lookup oldKey = some old → oldKey ≠ key → old.owned = true → old.id = some recordId →
    w.remote.record? old.zoneId recordId = some existing → old.Confirmed recordId existing w.log →
    remote = w.remote ∨ remote = w.remote.dropRecord old.zoneId recordId →
    inv (w.record (.deleteRecord old.zoneId recordId) answer remote)
  forgotten : ∀ {w oldKey}, inv w → oldKey ≠ key →
    inv { w with mem := { w.mem with dns := w.mem.dns.erase oldKey } }

variable {key oldKey : String} {old : SavedDns}

theorem Sweeps.and (sweeps : Sweeps key inv) (sweeps' : Sweeps key inv') : Sweeps key fun w => inv w ∧ inv' w where
  toStable := sweeps.toStable.and sweeps'.toStable
  found := fun both entry other owned known listed =>
    ⟨sweeps.found both.1 entry other owned known listed, sweeps'.found both.2 entry other owned known listed⟩
  removed := fun answer remote both entry other owned known there confirmed reached =>
    ⟨sweeps.removed answer remote both.1 entry other owned known there confirmed reached,
      sweeps'.removed answer remote both.2 entry other owned known there confirmed reached⟩
  forgotten := fun both other => ⟨sweeps.forgotten both.1 other, sweeps'.forgotten both.2 other⟩

theorem Sweeps.oldRecordId_spec (sweeps : Sweeps key inv) (start : inv w)
    (entry : w.mem.dns.lookup oldKey = some old) (other : oldKey ≠ key) (owned : old.owned = true) :
    wp (oldRecordId ctx oldKey old)
      (fun recordId? w' => inv w' ∧ ∀ recordId, recordId? = some recordId →
        w'.mem.dns.lookup oldKey = some { old with id := some recordId })
      (fun _ w' => inv w') w := by
  unfold oldRecordId
  cases known : old.id with
  | some recordId =>
      refine ⟨start, fun _ same => ?_⟩
      cases same
      rw [entry, ← known]
  | none =>
      refine wp_seq (sweeps.get_spec rfl start) ?_ fun _ _ fails => fails.1
      rintro answer w₁ ⟨kept₁, same₁, -, listed⟩
      match answer, listed with
      | [], _ => exact ⟨kept₁, by simp⟩
      | _ :: _ :: _, _ => exact ⟨kept₁, by simp⟩
      | [only], listed =>
          rw [← same₁.mem, ← same₁.remote] at listed
          rw [← same₁.mem] at entry
          refine ⟨sweeps.found kept₁ entry other owned known listed, fun recordId same => ?_⟩
          cases same
          exact AList.lookup_insert _

theorem Sweeps.removeOld_spec (sweeps : Sweeps key inv) (start : inv w)
    (entry : w.mem.dns.lookup oldKey = some old) (other : oldKey ≠ key) (owned : old.owned = true) :
    wp (removeOld ctx oldKey old) (fun _ w' => inv w') (fun _ w' => inv w') w := by
  unfold removeOld
  refine wp_seq (sweeps.oldRecordId_spec start entry other owned) ?_ fun _ _ fails => fails
  rintro recordId? w₁ ⟨kept₁, named⟩
  cases recordId? with
  | none => exact kept₁
  | some recordId =>
      refine wp_bind.mpr (wp_api_get rfl (fun existing there => ?_) fun _ _ _ => sweeps.read none rfl (sweeps.next kept₁))
      have kept₂ := sweeps.read (some existing) rfl (sweeps.next kept₁)
      split_ifs with matched
      · have confirmed : SavedDns.Confirmed { old with id := some recordId } recordId existing
            (w₁.log ++ [(⟨.getRecord old.zoneId recordId, some existing, w₁.mem, w₁.remote⟩ : Event)]) :=
          ⟨matched.1, matched.2.1, matched.2.2, _, _, List.getLast?_concat⟩
        have removed := fun answer remote => sweeps.removed answer remote (sweeps.next kept₂) (named recordId rfl) other
          (show ({ old with id := some recordId } : SavedDns).owned = true from owned) rfl there confirmed
        refine wp_api (fun answer _ => ?_) fun failure remote _ reached _ => ?_
        · exact removed (some answer) _ (.inr rfl)
        · exact removed none remote reached
      · exact kept₂

/-- The clean-up never fails. -/
theorem Sweeps.cleanUp_spec (sweeps : Sweeps key inv) (start : inv w) :
    wp (cleanUp ctx key) (fun _ w' => inv w') (fun _ _ => False) w := by
  refine wp_bind.mpr (wp_foldlM (fun _ w' => inv w') (fun warnings oldKey w' _ kept => ?_) start)
  unfold cleanUpKey
  rw [wp_bind, wp_get]
  cases entry : (w'.mem.dns.lookup oldKey).filter fun old => oldKey ≠ key ∧ old.owned with
  | none => exact kept
  | some old =>
      simp only [Option.filter_eq_some_iff, decide_eq_true_eq] at entry
      obtain ⟨entry, other, owned⟩ := entry
      refine wp_bind.mpr ((wp_tryCatch _).mpr (wp_bind.mpr ?_))
      refine wp_mono (sweeps.removeOld_spec kept entry other owned) ?_ fun _ _ kept' => kept'
      intro _ w'' kept'
      exact sweeps.forgotten kept' other

end XWrt.CloudflareTunnel
