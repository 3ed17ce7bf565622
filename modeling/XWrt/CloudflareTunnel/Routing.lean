import XWrt.CloudflareTunnel.Hostname

/-!
# Routing after a merge

What `ingress_for` does to the routing of a tunnel. Cloudflare tries the rules
in order and the first that covers a visit decides it. The merge keeps the rules
with a hostname in their order, but of the rules without a hostname it keeps the
last only, behind the new route, though a path can make such a rule an ordinary
one. How the edge matches a path is not ours to say, so it is a parameter.
-/

namespace XWrt.CloudflareTunnel

/-- What a request asks the edge for. -/
structure Visit where
  host : String
  path : String
  deriving DecidableEq, Repr

/-- A rule without a hostname matches every host, and `*.d` the subdomains of `d`. -/
def hostMatches (pattern : Option String) (host : String) : Bool :=
  match pattern with
  | none => true
  | some name =>
      match name.toList with
      | '*' :: '.' :: domain => decide (('.' :: domain) <:+ host.toList)
      | _ => host == name

theorem hostMatches_plain {name : String} (plain : '*' ∉ name.toList) (host : String) :
    hostMatches (some name) host = (host == name) := by
  unfold hostMatches
  split
  next heq =>
      exact absurd heq (by simp)
  next found heq =>
      cases heq
      split
      next domain shape =>
          rw [shape] at plain
          exact absurd List.mem_cons_self plain
      next => rfl

section Edge

variable (pathMatches : String → String → Bool)

/-- The rule applies to the visit. -/
def Rule.covers (rule : Rule) (visit : Visit) : Bool :=
  hostMatches rule.hostname visit.host && rule.path.all fun pattern => pathMatches pattern visit.path

/-- The rule that decides a visit. -/
def firstMatch (rules : List Rule) (visit : Visit) : Option Rule :=
  rules.find? fun rule => rule.covers pathMatches visit

/-- A visit to neither the requested nor the recorded hostname. -/
def Visit.Elsewhere (visit : Visit) (hostname : String) (active : Option Active) : Prop :=
  visit.host ≠ hostname ∧ ∀ managed, active = some managed → visit.host ≠ managed.hostname

/-- The merged rules take the hostname to the origin and every other visit where it went before. -/
structure RoutingPreserved (old new : List Rule) (hostname origin : String) (active : Option Active) : Prop where
  own : ∀ path, (firstMatch pathMatches new ⟨hostname, path⟩).map Rule.service = some (some origin)
  others : ∀ visit : Visit, visit.Elsewhere hostname active → ∀ rule, firstMatch pathMatches old visit = some rule →
    (firstMatch pathMatches new visit).map Rule.service = some rule.service

/-! ## What the merge keeps -/

/-- The rules `ingress_for` copies to their place: those of another hostname. -/
def stays (hostname : String) (active : Option Active) (rule : Rule) : Bool :=
  rule.hostname.any fun name => name != hostname && active.all fun managed => name != managed.hostname

def isBare (rule : Rule) : Bool := rule.hostname.isNone

theorem keptRules_spec {hostname origin : String} {active : Option Active} {rules kept : List Rule} {catchall : Option Rule}
    (merged : keptRules hostname origin active rules = .ok (kept, catchall)) :
    kept = rules.filter (stays hostname active) ∧ catchall = (rules.filter isBare).getLast? := by
  induction rules generalizing kept catchall with
  | nil =>
      cases merged
      exact ⟨rfl, rfl⟩
  | cons rule rest ih =>
      unfold keptRules at merged
      cases named : rule.hostname with
      | none =>
          rw [named] at merged
          simp only at merged
          cases later : keptRules hostname origin active rest with
          | error failure => simp [later, bind, Except.bind] at merged
          | ok result =>
              obtain ⟨rules, bare⟩ := result
              simp only [later, bind, Except.bind, pure, Except.pure, Except.ok.injEq, Prod.mk.injEq] at merged
              obtain ⟨rfl, rfl⟩ := ih later
              rw [List.filter_cons_of_neg (by simp [stays, named]), List.filter_cons_of_pos (by simp [isBare, named]),
                List.getLast?_cons]
              exact ⟨merged.1.symm, merged.2.symm⟩
      | some name =>
          rw [named] at merged
          simp only at merged
          rw [List.filter_cons_of_neg (p := isBare) (by simp [isBare, named])]
          split at merged
          next requested =>
              rw [List.filter_cons_of_neg (by simp [stays, named, requested])]
              split at merged
              · cases merged
              · exact ih merged
          next other =>
              cases managed : active.filter fun active => name = active.hostname with
              | some managed' =>
                  obtain ⟨rfl, recorded⟩ := Option.filter_eq_some_iff.mp managed
                  rw [List.filter_cons_of_neg (by simpa [stays, named, other] using recorded)]
                  rw [managed] at merged
                  simp only at merged
                  split at merged
                  · cases merged
                  · exact ih merged
              | none =>
                  have unrecorded : stays hostname active rule = true := by
                    simpa [stays, named, other, Option.all_eq_true] using Option.filter_eq_none_iff.mp managed
                  rw [List.filter_cons_of_pos unrecorded]
                  rw [managed] at merged
                  simp only at merged
                  cases later : keptRules hostname origin active rest with
                  | error failure => simp [later, bind, Except.bind] at merged
                  | ok result =>
                      obtain ⟨rules, bare⟩ := result
                      simp only [later, bind, Except.bind, pure, Except.pure, Except.ok.injEq, Prod.mk.injEq] at merged
                      obtain ⟨rfl, rfl⟩ := ih later
                      exact ⟨merged.1.symm, merged.2.symm⟩

/-- What the merge checks: a rule of the hostname leads to the origin, and one of the recorded
hostname to the recorded origin. -/
def Agrees (hostname origin : String) (active : Option Active) (rule : Rule) : Prop :=
  ∀ name, rule.hostname = some name →
    if name = hostname then rule.service = some origin
    else ∀ managed, active = some managed → name = managed.hostname → rule.service = some managed.origin

theorem keptRules_ok_iff {hostname origin : String} {active : Option Active} {rules : List Rule} :
    (∃ result, keptRules hostname origin active rules = .ok result) ↔ ∀ rule ∈ rules, Agrees hostname origin active rule := by
  induction rules with
  | nil => simp [keptRules]
  | cons rule rest ih =>
      rw [keptRules, List.forall_mem_cons, ← ih, Agrees]
      cases named : rule.hostname with
      | none =>
          cases keptRules hostname origin active rest <;> simp [bind, Except.bind, pure, Except.pure]
      | some name =>
          simp only [Option.some.injEq, forall_eq']
          by_cases requested : name = hostname
          · by_cases same : rule.service = some origin <;> simp [requested, same]
          · rw [if_neg requested, if_neg requested]
            cases managed : active.filter fun active => name = active.hostname with
            | some managed' =>
                obtain ⟨rfl, recorded⟩ := Option.filter_eq_some_iff.mp managed
                have recorded : name = managed'.hostname := of_decide_eq_true recorded
                by_cases same : rule.service = some managed'.origin <;> simp [recorded, same]
            | none =>
                have unrecorded : ∀ managed, active = some managed → ¬name = managed.hostname := by
                  simpa using Option.filter_eq_none_iff.mp managed
                have vacuous : ∀ managed, active = some managed → name = managed.hostname →
                    rule.service = some managed.origin :=
                  fun managed recorded same => absurd same (unrecorded managed recorded)
                rw [and_iff_right vacuous]
                cases keptRules hostname origin active rest <;> simp [bind, Except.bind, pure, Except.pure]

/-- The rule for what no other rule of the tunnel covers, where the tunnel has none. -/
def defaultRule : Rule := { hostname := none, service := some "http_status:404" }

/-- The merged list in one expression. -/
def mergedRules (rules : List Rule) (hostname origin : String) (active : Option Active) : List Rule :=
  rules.filter (stays hostname active) ++ [routeRule hostname origin, (rules.filter isBare).getLast?.getD defaultRule]

/-- A merged rule with a hostname is the route or stayed. -/
theorem named_mergedRules {rules : List Rule} {rule : Rule} {name hostname origin : String} {active : Option Active}
    (inside : rule ∈ mergedRules rules hostname origin active) (named : rule.hostname = some name) :
    rule = routeRule hostname origin ∨ rule ∈ rules ∧ stays hostname active rule = true := by
  rw [mergedRules, List.mem_append, List.mem_cons, List.mem_singleton] at inside
  rcases inside with kept | route | catchall
  · exact .inr (List.mem_filter.mp kept)
  · exact .inl route
  · have bare : rule.hostname = none := by
      rw [catchall]
      cases last : (rules.filter isBare).getLast? with
      | none => rfl
      | some final =>
          have bare : isBare final = true := List.of_mem_filter (List.mem_of_getLast? last)
          exact Option.isNone_iff_eq_none.mp bare
    rw [bare] at named
    cases named

theorem ingressFor_rules {config merged : Config} {hostname origin : String} {active : Option Active}
    (success : ingressFor config hostname origin active = .ok merged) :
    merged.ingress = mergedRules config.ingress hostname origin active := by
  unfold ingressFor at success
  cases kept : keptRules hostname origin active config.ingress with
  | error failure => simp [kept, bind, Except.bind] at success
  | ok result =>
      obtain ⟨rules, catchall⟩ := result
      obtain ⟨rfl, rfl⟩ := keptRules_spec kept
      simp only [kept, bind, Except.bind, pure, Except.pure, Except.ok.injEq] at success
      rw [← success]
      rfl

theorem ingressFor_ok_iff {config : Config} {hostname origin : String} {active : Option Active} :
    (∃ merged, ingressFor config hostname origin active = .ok merged) ↔
      ∀ rule ∈ config.ingress, Agrees hostname origin active rule := by
  rw [← keptRules_ok_iff, ingressFor]
  cases keptRules hostname origin active config.ingress <;> simp [bind, Except.bind, pure, Except.pure]

/-! ## Who decides a visit before and after -/

theorem routeRule_covers {name : String} (plain : '*' ∉ name.toList) (origin : String) (visit : Visit) :
    (routeRule name origin).covers pathMatches visit = (visit.host == name) := by
  simp [Rule.covers, routeRule, hostMatches_plain plain]

/-- A rule with a hostname that covers a visit to another host stays. -/
theorem stays_of_covers {name : String} {active : Option Active} {rule : Rule} {visit : Visit} (plain : '*' ∉ name.toList)
    (recorded : ∀ managed, active = some managed → '*' ∉ managed.hostname.toList)
    (elsewhere : visit.Elsewhere name active) (named : isBare rule = false) (covered : rule.covers pathMatches visit = true) :
    stays name active rule = true := by
  cases host : rule.hostname with
  | none => simp [isBare, host] at named
  | some pattern =>
      have hit : hostMatches (some pattern) visit.host = true := by
        rw [Rule.covers, host, Bool.and_eq_true] at covered
        exact covered.1
      have different : ∀ other : String, '*' ∉ other.toList → visit.host ≠ other → pattern ≠ other := by
        rintro other plain' apart rfl
        rw [hostMatches_plain plain', beq_iff_eq] at hit
        exact apart hit
      simp only [stays, host, Option.any_some, Bool.and_eq_true, bne_iff_ne, ne_eq, Option.all_eq_true]
      exact ⟨different name plain elsewhere.1, fun managed same =>
        different managed.hostname (recorded managed same) (elsewhere.2 managed same)⟩

theorem stays_of_bare {name : String} {active : Option Active} {rule : Rule} (bare : isBare rule = true) :
    stays name active rule = false := by
  rw [isBare, Option.isNone_iff_eq_none] at bare
  simp [stays, bare]

theorem firstMatch_eq_some {rules : List Rule} {visit : Visit} {rule : Rule} :
    firstMatch pathMatches rules visit = some rule ↔
      rule.covers pathMatches visit = true ∧ ∃ before after, rules = before ++ rule :: after ∧
        ∀ earlier ∈ before, earlier.covers pathMatches visit = false := by
  simp [firstMatch, List.find?_eq_some_iff_append]

theorem firstMatch_filter_eq_some {kept : Rule → Bool} {rules : List Rule} {visit : Visit} {rule : Rule} :
    firstMatch pathMatches (rules.filter kept) visit = some rule ↔
      kept rule = true ∧ rule.covers pathMatches visit = true ∧ ∃ before after, rules = before ++ rule :: after ∧
        ∀ earlier ∈ before, kept earlier = true → earlier.covers pathMatches visit = false := by
  simp [firstMatch, List.find?_filter, List.find?_eq_some_iff_append, and_assoc, or_iff_not_imp_left]

/-- Rules that do not cover a visit have no say in it. -/
theorem firstMatch_append_of_uncovered {before after : List Rule} {visit : Visit}
    (uncovered : ∀ earlier ∈ before, earlier.covers pathMatches visit = false) :
    firstMatch pathMatches (before ++ after) visit = firstMatch pathMatches after visit := by
  have silent : before.find? (fun rule => rule.covers pathMatches visit) = none :=
    List.find?_eq_none.mpr fun earlier inside => by simp [uncovered earlier inside]
  rw [firstMatch, List.find?_append, silent, Option.none_or, firstMatch]

/-! ## Exactly when the routing is preserved -/

/-- The rule that decides a visit in place of a rule without a hostname: the first with a hostname
behind it that covers the visit, and where there is none the last rule of the list without one. -/
inductive Inherits (rules after : List Rule) (visit : Visit) (heir : Rule) : Prop where
  | named {between rest : List Rule} (split : after = between ++ heir :: rest) (named : isBare heir = false)
      (covered : heir.covers pathMatches visit = true)
      (uncovered : ∀ earlier ∈ between, isBare earlier = false → earlier.covers pathMatches visit = false)
  | last (last : (rules.filter isBare).getLast? = some heir) (covered : heir.covers pathMatches visit = true)
      (uncovered : ∀ later ∈ after, isBare later = false → later.covers pathMatches visit = false)

/-- What the rules must be like: the first of another hostname that covers a visit to the requested
one, as a wildcard may, leads to the origin, and where a rule without a hostname is the first that
covers a visit elsewhere, one of the same service inherits it. -/
structure Undisturbed (rules : List Rule) (hostname origin : String) (active : Option Active) : Prop where
  own : ∀ before rule after, rules = before ++ rule :: after → stays hostname active rule = true →
    ∀ path, rule.covers pathMatches ⟨hostname, path⟩ = true →
      (∀ earlier ∈ before, stays hostname active earlier = true → earlier.covers pathMatches ⟨hostname, path⟩ = false) →
        rule.service = some origin
  bare : ∀ before rule after, rules = before ++ rule :: after → isBare rule = true →
    ∀ visit : Visit, visit.Elsewhere hostname active →
      (∀ earlier ∈ before, earlier.covers pathMatches visit = false) → rule.covers pathMatches visit = true →
        ∃ heir, Inherits pathMatches rules after visit heir ∧ heir.service = rule.service

/-- The ordinary list is undisturbed: a catch-all at its end only, and no wildcard over the hostname. -/
theorem Undisturbed.of_catchall {named : List Rule} {last : Rule} {hostname origin : String} {active : Option Active}
    (hosts : ∀ rule ∈ named, isBare rule = false) (catchall : isBare last = true)
    (free : ∀ rule ∈ named, stays hostname active rule = true → hostMatches rule.hostname hostname = true →
      rule.service = some origin) :
    Undisturbed pathMatches (named ++ [last]) hostname origin active := by
  have listed {before after : List Rule} {rule : Rule} (split : named ++ [last] = before ++ rule :: after) :
      rule ∈ named ++ [last] := by rw [split]; exact List.mem_append_right _ List.mem_cons_self
  constructor
  · intro before rule after split stayed path covered _
    rcases List.mem_append.mp (listed split) with earlier | final
    · rw [Rule.covers, Bool.and_eq_true] at covered
      exact free rule earlier stayed covered.1
    · obtain rfl := List.mem_singleton.mp final
      rw [stays_of_bare catchall] at stayed
      cases stayed
  · intro before rule after split bare visit elsewhere uncovered covered
    have only : (named ++ [last]).filter isBare = [last] := by
      rw [List.filter_append, List.filter_eq_nil_iff.mpr fun rule inside => by simp [hosts rule inside],
        List.filter_cons_of_pos catchall, List.filter_nil, List.nil_append]
    have final : rule ∈ (named ++ [last]).filter isBare := List.mem_filter.mpr ⟨listed split, bare⟩
    rw [only] at final
    obtain rfl := List.mem_singleton.mp final
    -- The catch-all stands at the end, so nothing is left between it and itself.
    have ends : after = [] := by
      rcases List.eq_nil_or_concat after with rfl | ⟨rest, final', rfl⟩
      · rfl
      · have inside : rule ∈ named := by
          have prefixes := congrArg List.dropLast split
          rw [List.dropLast_concat, List.concat_eq_append, ← List.cons_append, ← List.append_assoc, List.dropLast_concat] at prefixes
          rw [prefixes]
          simp
        rw [hosts rule inside] at bare
        cases bare
    subst ends
    exact ⟨rule, .last (by rw [only]; rfl) covered (by simp), rfl⟩

section Merge

variable {pathMatches} {rules : List Rule} {name origin : String} {active : Option Active}

theorem merged_own (plain : '*' ∉ name.toList) (path : String) :
    firstMatch pathMatches (mergedRules rules name origin active) ⟨name, path⟩ =
      some ((firstMatch pathMatches (rules.filter (stays name active)) ⟨name, path⟩).getD (routeRule name origin)) := by
  have own : (routeRule name origin).covers pathMatches ⟨name, path⟩ = true := by
    rw [routeRule_covers pathMatches plain, beq_iff_eq]
  simp only [mergedRules, firstMatch, List.find?_append, List.find?_cons, own]
  cases (rules.filter (stays name active)).find? fun rule => rule.covers pathMatches ⟨name, path⟩ with
  | none => rfl
  | some rule => rfl

/-- Past the rules that do not cover a visit elsewhere, the new route has no say either. -/
theorem merged_elsewhere {before after : List Rule} {visit : Visit} (plain : '*' ∉ name.toList)
    (elsewhere : visit.Elsewhere name active) (split : rules = before ++ after)
    (uncovered : ∀ earlier ∈ before, earlier.covers pathMatches visit = false) :
    firstMatch pathMatches (mergedRules rules name origin active) visit =
      firstMatch pathMatches (after.filter (stays name active) ++ [(rules.filter isBare).getLast?.getD defaultRule]) visit := by
  have apart : (routeRule name origin).covers pathMatches visit = false := by
    rw [routeRule_covers pathMatches plain, beq_eq_false_iff_ne]
    exact elsewhere.1
  have kept : ∀ earlier ∈ before.filter (stays name active), earlier.covers pathMatches visit = false :=
    fun earlier inside => uncovered earlier (List.mem_of_mem_filter inside)
  unfold mergedRules
  conv_lhs => rw [split, List.filter_append, List.append_assoc, ← split]
  rw [firstMatch_append_of_uncovered pathMatches kept]
  simp [firstMatch, List.find?_append, List.find?_cons, apart]

/-- A visit elsewhere that a rule with a hostname decides is not moved. -/
theorem merged_named (plain : '*' ∉ name.toList) (recorded : ∀ managed, active = some managed → '*' ∉ managed.hostname.toList)
    {visit : Visit} (elsewhere : visit.Elsewhere name active) {rule : Rule}
    (decided : firstMatch pathMatches rules visit = some rule) (named : isBare rule = false) :
    firstMatch pathMatches (mergedRules rules name origin active) visit = some rule := by
  obtain ⟨covered, before, after, split, uncovered⟩ := (firstMatch_eq_some pathMatches).mp decided
  rw [merged_elsewhere plain elsewhere split uncovered,
    List.filter_cons_of_pos (stays_of_covers pathMatches plain recorded elsewhere named covered)]
  simp [firstMatch, covered]

/-- The first rule that stays and covers a visit elsewhere is the first with a hostname that covers it. -/
theorem firstMatch_stays (plain : '*' ∉ name.toList) (recorded : ∀ managed, active = some managed → '*' ∉ managed.hostname.toList)
    {visit : Visit} (elsewhere : visit.Elsewhere name active) (after : List Rule) :
    firstMatch pathMatches (after.filter (stays name active)) visit = firstMatch pathMatches (after.filter (!isBare ·)) visit := by
  rw [firstMatch, firstMatch, List.find?_filter, List.find?_filter]
  congr 1
  funext rule
  refine decide_eq_decide.mpr (and_congr_left fun covered => ?_)
  cases bare : isBare rule with
  | true => simp [stays_of_bare bare]
  | false => simp [stays_of_covers pathMatches plain recorded elsewhere bare covered]

/-- A visit elsewhere that a rule without a hostname decides goes to the one that inherits it. -/
theorem merged_bare_iff (plain : '*' ∉ name.toList) (recorded : ∀ managed, active = some managed → '*' ∉ managed.hostname.toList)
    {visit : Visit} (elsewhere : visit.Elsewhere name active) {before after : List Rule} {rule heir : Rule}
    (split : rules = before ++ rule :: after) (bare : isBare rule = true)
    (uncovered : ∀ earlier ∈ before, earlier.covers pathMatches visit = false) :
    firstMatch pathMatches (mergedRules rules name origin active) visit = some heir ↔
      Inherits pathMatches rules after visit heir := by
  have inside : rule ∈ rules.filter isBare := List.mem_filter.mpr ⟨by rw [split]; simp, bare⟩
  obtain ⟨final, last⟩ : ∃ final, (rules.filter isBare).getLast? = some final :=
    ⟨_, List.getLast?_eq_some_getLast (List.ne_nil_of_mem inside)⟩
  have decided : firstMatch pathMatches (mergedRules rules name origin active) visit =
      (firstMatch pathMatches (after.filter (!isBare ·)) visit).or (firstMatch pathMatches [final] visit) := by
    rw [merged_elsewhere plain elsewhere split uncovered, List.filter_cons_of_neg (by simp [stays_of_bare bare]), last,
      ← firstMatch_stays plain recorded elsewhere]
    exact List.find?_append
  have silent : firstMatch pathMatches (after.filter (!isBare ·)) visit = none ↔
      ∀ later ∈ after, isBare later = false → later.covers pathMatches visit = false := by
    simp [firstMatch]
  have alone : firstMatch pathMatches [final] visit = some heir ↔ heir.covers pathMatches visit = true ∧ final = heir := by
    rw [firstMatch, List.find?_singleton, Option.ite_none_right_eq_some, Option.some.injEq]
    exact and_congr_left fun same => by rw [same]
  rw [decided, Option.or_eq_some_iff, firstMatch_filter_eq_some, silent, alone]
  constructor
  · rintro (⟨named, covered, between, rest, behind, earlier⟩ | ⟨later, covered, rfl⟩)
    · exact .named behind (by simpa using named) covered fun other inside named => earlier other inside (by simp [named])
    · exact .last last covered later
  · rintro (⟨behind, named, covered, earlier⟩ | ⟨last', covered, later⟩)
    · exact .inl ⟨by simp [named], covered, _, _, behind, fun other inside named => earlier other inside (by simpa using named)⟩
    · exact .inr ⟨later, covered, Option.some.inj (last.symm.trans last')⟩

/-- A visit elsewhere that no rule decided still has no service, or the default rule's. -/
theorem merged_undecided (plain : '*' ∉ name.toList) {visit : Visit} (elsewhere : visit.Elsewhere name active)
    (undecided : firstMatch pathMatches rules visit = none) :
    firstMatch pathMatches (mergedRules rules name origin active) visit = none ∨
      firstMatch pathMatches (mergedRules rules name origin active) visit = some defaultRule := by
  have uncovered : ∀ rule ∈ rules, rule.covers pathMatches visit = false := by
    simpa [firstMatch] using undecided
  rw [merged_elsewhere plain elsewhere (List.append_nil rules).symm uncovered]
  cases last : (rules.filter isBare).getLast? with
  | none => exact Or.inr rfl
  | some rule =>
      have inside : rule ∈ rules := List.mem_of_mem_filter (List.mem_of_getLast? last)
      exact Or.inl (by simp [firstMatch, uncovered rule inside])

theorem merged_preserved_iff (plain : '*' ∉ name.toList)
    (recorded : ∀ managed, active = some managed → '*' ∉ managed.hostname.toList) :
    RoutingPreserved pathMatches rules (mergedRules rules name origin active) name origin active ↔
      Undisturbed pathMatches rules name origin active := by
  constructor
  · intro preserved
    refine ⟨fun before rule after split stayed path covered uncovered => ?_,
      fun before rule after split bare visit elsewhere uncovered covered => ?_⟩
    · have own := preserved.own path
      rw [merged_own plain, (firstMatch_filter_eq_some pathMatches).mpr ⟨stayed, covered, before, after, split, uncovered⟩] at own
      exact Option.some.inj own
    · have decided : firstMatch pathMatches rules visit = some rule :=
        (firstMatch_eq_some pathMatches).mpr ⟨covered, before, after, split, uncovered⟩
      obtain ⟨heir, found, same⟩ := Option.map_eq_some_iff.mp (preserved.others visit elsewhere rule decided)
      exact ⟨heir, (merged_bare_iff plain recorded elsewhere split bare uncovered).mp found, same⟩
  · intro undisturbed
    refine ⟨fun path => ?_, fun visit elsewhere rule decided => ?_⟩
    · rw [merged_own plain]
      cases own : firstMatch pathMatches (rules.filter (stays name active)) ⟨name, path⟩ with
      | none => rfl
      | some rule =>
          obtain ⟨stayed, covered, before, after, split, uncovered⟩ := (firstMatch_filter_eq_some pathMatches).mp own
          exact congrArg some (undisturbed.own before rule after split stayed path covered uncovered)
    · cases bare : isBare rule with
      | false => rw [merged_named plain recorded elsewhere decided bare, Option.map_some]
      | true =>
          obtain ⟨covered, before, after, split, uncovered⟩ := (firstMatch_eq_some pathMatches).mp decided
          obtain ⟨heir, inherits, same⟩ := undisturbed.bare before rule after split bare visit elsewhere uncovered covered
          rw [(merged_bare_iff plain recorded elsewhere split bare uncovered).mpr inherits, Option.map_some, same]

end Merge

/-- A merge preserves the routing exactly when the rules are undisturbed by it, and never gives
a visit elsewhere that no rule decided another service than the default one. -/
theorem ingressFor_preserves_routing_iff {config merged : Config} {typed name origin : String} {active : Option Active}
    (requested : hostname typed = .ok name)
    (recorded : ∀ managed, active = some managed → ∃ earlier, hostname earlier = .ok managed.hostname)
    (success : ingressFor config name origin active = .ok merged) :
    (RoutingPreserved pathMatches config.ingress merged.ingress name origin active ↔
      Undisturbed pathMatches config.ingress name origin active) ∧
    ∀ visit : Visit, visit.Elsewhere name active → firstMatch pathMatches config.ingress visit = none →
      firstMatch pathMatches merged.ingress visit = none ∨ firstMatch pathMatches merged.ingress visit = some defaultRule := by
  have plain : '*' ∉ name.toList := hostname_not_wildcard requested
  have plain' : ∀ managed, active = some managed → '*' ∉ managed.hostname.toList := fun managed same =>
    let ⟨_, accepted⟩ := recorded managed same
    hostname_not_wildcard accepted
  rw [ingressFor_rules success]
  exact ⟨merged_preserved_iff plain plain', fun visit elsewhere undecided => merged_undecided plain elsewhere undecided⟩

end Edge

/-- The route of another hostname, before the catch-all the plugin puts behind its own. -/
def otherRoute : Rule := { hostname := some "other.example.com", service := some "http://127.0.0.1:8080" }

def sharedConfig : Config := { ingress := [otherRoute, defaultRule] }

theorem ingressFor_preserves_routing_iff_shared :
    ∃ merged, ingressFor sharedConfig "abc.example.com" "http://127.0.0.1:80" none = .ok merged ∧
      RoutingPreserved (fun pattern path => pattern == path) sharedConfig.ingress merged.ingress "abc.example.com"
        "http://127.0.0.1:80" none := by
  have requested : hostname "Abc.example.com." = .ok "abc.example.com" := by decide +kernel
  have hosts : ∀ rule ∈ [otherRoute], isBare rule = false := by decide
  have free : ∀ rule ∈ [otherRoute], stays "abc.example.com" none rule = true →
      hostMatches rule.hostname "abc.example.com" = true → rule.service = some "http://127.0.0.1:80" := by decide +kernel
  refine ⟨_, rfl, ?_⟩
  exact (ingressFor_preserves_routing_iff _ requested (by simp) rfl).1.mpr (Undisturbed.of_catchall _ hosts rfl free)

/-- A rule for one path of every host is dropped, as the catch-all behind it is the last rule without a hostname. -/
def pathConfig : Config :=
  { ingress := [{ hostname := none, path := some "/api", service := some "http://127.0.0.1:8080" }, defaultRule] }

theorem path_rule_is_dropped :
    ∃ merged, ingressFor pathConfig "abc.example.com" "http://127.0.0.1:80" none = .ok merged ∧
      ¬RoutingPreserved (fun pattern path => pattern == path) pathConfig.ingress merged.ingress "abc.example.com"
        "http://127.0.0.1:80" none := by
  refine ⟨_, rfl, fun preserved => ?_⟩
  have moved := preserved.others ⟨"other.example.com", "/api"⟩ ⟨by decide, by simp⟩ _ rfl
  exact absurd moved (by decide +kernel)

end XWrt.CloudflareTunnel
