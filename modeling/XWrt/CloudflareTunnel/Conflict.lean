import XWrt.CloudflareTunnel.Rules

/-!
# A conflict is found before anything is changed

`conflict` is raised by the tunnel lookup, the DNS lookup, the merge of the
ingress rules and the check on a record that is not proxied. Each of them is
out of reach once a run has issued its first `POST`: a new tunnel has no rules
to merge with, and a run that creates a tunnel has no record to check.
-/

namespace XWrt.CloudflareTunnel

open Foundation

variable {ctx : Ctx} {hostname accountId : String} {w w₀ : World}

/-- Since `w₀` the account was only read. -/
def Quiet (w₀ w : World) : Prop :=
  w.remote = w₀.remote ∧ ∃ events, w.log = w₀.log ++ events ∧ ∀ event ∈ events, event.request.method = .get

theorem quiet_refl (w : World) : Quiet w w := ⟨rfl, [], by simp⟩

theorem Quiet.read {request : Request} (answer : Option request.Answer) (get : request.method = .get)
    (quiet : Quiet w₀ w) : Quiet w₀ (w.record request answer w.remote) := by
  obtain ⟨remote, events, log, reads⟩ := quiet
  refine ⟨remote, events ++ [⟨request, answer, w.mem, w.remote⟩], by simp [log], fun event inside => ?_⟩
  rcases List.mem_append.mp inside with earlier | last
  · exact reads event earlier
  · rw [List.mem_singleton.mp last]
    exact get

theorem quiet_stable (w₀ : World) : Stable (Quiet w₀) where
  next := id
  shown := fun _ => id
  connector := fun _ => id
  read := Quiet.read
  saved := id
  checked := fun _ _ _ => id

/-- The tunnel has a configuration without rules. -/
def Fresh (accountId tunnelId : String) (w : World) : Prop :=
  ∃ tunnel, w.remote.tunnel? accountId tunnelId = some tunnel ∧ tunnel.config.ingress = []

/-- Nothing was changed, or the run has no record to check and a new tunnel. -/
def Prepared (w₀ : World) (listed : Option DnsRecord) (accountId tunnelId : String) (w : World) : Prop :=
  Quiet w₀ w ∨ (listed = none ∧ Fresh accountId tunnelId w)

theorem prepared_stable (w₀ : World) (listed : Option DnsRecord) (accountId tunnelId : String) :
    Stable (Prepared w₀ listed accountId tunnelId) where
  next := id
  shown := fun _ => id
  connector := fun _ => id
  read := fun answer get prepared => prepared.imp_left (Quiet.read answer get)
  saved := id
  checked := fun _ _ _ => id

/-- A configuration without rules merges with any route. -/
theorem ingressFor_of_no_rules {config : Config} {origin : String} {active : Option Active} (rules : config.ingress = [])
    (failure : Failure) : ingressFor config hostname origin active ≠ .error failure := by
  simp [ingressFor, rules, keptRules, bind, Except.bind, pure, Except.pure]

/-- A run creates a tunnel only when it has no record to check, and the tunnel has no rules. -/
theorem ensureTunnel_prepared {listed : Option DnsRecord} {tunnel : Option Tunnel} (quiet : Quiet w₀ w)
    (unlisted : tunnel = none → listed = none) :
    wp (ensureTunnel ctx accountId tunnel)
      (fun made w' => Prepared w₀ listed accountId made.tunnel.id w')
      (fun failure _ => failure.code ≠ .conflict) w := by
  cases tunnel with
  | some tunnel => exact .inl quiet
  | none =>
      unfold ensureTunnel
      refine wp_bind.mpr (wp_assign.mpr (wp_bind.mpr (wp_save ?_ fun outage _ _ _ => outage.not_conflict)))
      refine wp_bind.mpr (wp_api (fun made answered => ?_) fun _ _ foreign _ _ => foreign)
      simp only [serve, Option.some.injEq] at answered
      refine wp_bind.mpr (wp_require (fun _ => ?_) fun _ => by simp)
      refine wp_bind.mpr (wp_assign.mpr (wp_bind.mpr (wp_save ?_ fun outage _ _ _ => outage.not_conflict)))
      refine .inr ⟨unlisted rfl, made.tunnel, ?_, by rw [← answered]⟩
      subst answered
      simp [Remote.tunnel?, serve]

/-- A run with a record to check is quiet up to that check. -/
theorem ensureRecord_conflict {zoneId tunnelId : String} {listed : Option DnsRecord}
    (prepared : listed.isSome = true → Quiet w₀ w) :
    wp (ensureRecord ctx zoneId hostname tunnelId listed) (fun _ _ => True)
      (fun failure w' => failure.code = .conflict → Quiet w₀ w') w := by
  cases listed with
  | some record =>
      have quiet := prepared rfl
      simp only [ensureRecord]
      split_ifs with proxied
      · trivial
      · rw [wp_bind, wp_get]
        refine wp_bind.mpr (wp_require (fun _ => ?_) fun _ _ => quiet)
        exact wp_bind.mpr (wp_api (fun _ _ => trivial) fun _ _ foreign _ _ conflict => absurd conflict foreign)
  | none =>
      unfold ensureRecord
      refine wp_bind.mpr (wp_assign.mpr (wp_bind.mpr (wp_save ?_ fun outage _ _ _ conflict => ?_)))
      case refine_2 => exact absurd conflict outage.not_conflict
      refine wp_bind.mpr (wp_api (fun record _ => ?_) fun _ _ foreign _ _ conflict => absurd conflict foreign)
      refine wp_bind.mpr (wp_require (fun _ => ?_) fun _ => by simp)
      refine wp_bind.mpr (wp_assign.mpr (wp_bind.mpr (wp_save trivial fun outage _ _ _ conflict => ?_)))
      exact absurd conflict outage.not_conflict

theorem always_sweeps (key : String) : Sweeps key fun _ => True where
  next := id
  shown := fun _ => id
  connector := fun _ => id
  read := fun _ _ => id
  saved := id
  checked := fun _ _ _ => id
  found := fun _ _ _ _ _ _ => trivial
  removed := fun _ _ _ _ _ _ _ _ _ _ => trivial
  forgotten := fun _ _ => trivial

theorem deploy_conflict (settings : Settings) (contents : ∀ record ∈ w.remote.records, record.content ≠ "") :
    wp (deploy ctx settings) (fun _ _ => True) (fun failure w' => failure.code = .conflict → Quiet w w') w := by
  have stable := quiet_stable w
  refine wp_seq (stable.survey_spec (quiet_refl w)) ?_ fun _ _ fails _ => fails.1
  rintro found w₁ ⟨quiet₁, seen⟩
  refine wp_seq (stable.reconcileTunnel_spec quiet₁ fun _ _ _ => quiet₁) ?_ fun _ _ fails _ => fails.1
  rintro - w₂ ⟨quiet₂, -⟩
  refine wp_bind.mpr (wp_lift (fun listed matched => ?_) fun _ _ _ => quiet₂)
  -- without a tunnel the target is empty, and no record has an empty content
  have unlisted : found.tunnel = none → listed = none := by
    intro missing
    rw [missing] at matched
    cases listed with
    | none => rfl
    | some record =>
        obtain ⟨records, -, -, content⟩ := matchingDns_eq_some matched
        have inside : record ∈ found.records := records ▸ List.mem_singleton_self record
        rw [seen.records] at inside
        exact absurd content (contents record (List.mem_of_mem_filter (List.mem_of_mem_take inside)))
  refine wp_seq (stable.progress_spec quiet₂) ?_ fun _ _ fails conflict => absurd conflict fails.2.1
  rintro - w₃ ⟨quiet₃, -⟩
  refine wp_seq (ensureTunnel_prepared quiet₃ unlisted) ?_ fun _ _ foreign conflict => absurd conflict foreign
  intro made w₄ prepared₄
  have stable' := prepared_stable w listed found.accountId made.tunnel.id
  refine wp_seq (stable'.prepareRoute_spec prepared₄) ?_ ?_
  case refine_2 =>
      rintro failure w' ⟨prepared, fails, -⟩ conflict
      obtain ⟨same, route⟩ := fails conflict
      rcases prepared with quiet | ⟨-, tunnel, there, rules⟩
      · exact quiet
      · rw [same.remote] at there
        simp only [routeOn, there, Option.map_some, Option.some.injEq] at route
        exact absurd route (ingressFor_of_no_rules rules failure)
  rintro ⟨config, token⟩ w₅ ⟨prepared₅, -⟩
  refine wp_seq (stable'.progress_spec prepared₅) ?_ fun _ _ fails conflict => absurd conflict fails.2.1
  rintro - w₆ ⟨prepared₆, -⟩
  refine wp_seq (stable'.adoptRecord_spec prepared₆ fun _ _ _ _ _ => prepared₆) ?_ fun _ _ fails conflict => absurd conflict fails.2.1
  rintro - w₇ ⟨prepared₇, -⟩
  have quiet₇ : listed.isSome = true → Quiet w w₇ := by
    rcases prepared₇ with quiet | ⟨rfl, -⟩
    · exact fun _ => quiet
    · simp
  refine wp_seq (ensureRecord_conflict quiet₇) ?_ fun _ _ fails => fails
  intro record w₈ _
  have always := always_sweeps (dnsKey found.zone.id settings.hostname)
  refine wp_seq (always.publish_spec trivial (fun _ _ _ _ _ => trivial) fun _ => trivial) ?_
    fun _ _ fails conflict => absurd conflict fails.2.1
  intro _ w₉ _
  refine wp_seq (always.cleanUp_spec trivial) ?_ fun _ _ fails => fails.elim
  intro warnings w₁₀ _
  exact wp_mono (always.finish_spec trivial) (fun _ _ _ => trivial) fun _ _ fails conflict => absurd conflict fails.2.1

/-- A run that ends with a conflict has only read: the tunnels, their configurations and
the DNS records are as before. -/
theorem deploy_conflict_changes_nothing (ctx : Ctx) (settings : Settings) (w w' : World) (failure : Failure)
    (contents : ∀ record ∈ w.remote.records, record.content ≠ "")
    (raises : deploy ctx settings w = .error failure w') (conflict : failure.code = .conflict) :
    w'.remote = w.remote ∧
      ∃ events, w'.log = w.log ++ events ∧ ∀ event ∈ events, event.request.method = .get :=
  wp_failed (deploy_conflict settings contents) raises conflict

/-- An account in which the hostname is already in use. -/
def occupied : World :=
  .initial
    { tunnels := [], created := 0
      records :=
        [{ id := "aaaaaaaaaaaaaaaaaaaaaaaaaaaaaaaa", zoneId := "11111111111111111111111111111111", type := "A"
           name := "router.example.com", content := "192.0.2.1", proxied := false, ttl := 1, comment := "" }] }

theorem deploy_conflict_changes_nothing_occupied :
    (finalState (deploy fixture (fixture.run "router.example.com" []).settings) occupied).remote = occupied.remote :=
  (deploy_conflict_changes_nothing fixture (fixture.run "router.example.com" []).settings occupied _
    ⟨.conflict, "The hostname already has a DNS record pointing elsewhere. It was not changed."⟩
    (by decide +kernel) (eq_error_of_raised? (by decide +kernel)) rfl).1

end XWrt.CloudflareTunnel
