import Mathlib.Data.List.Infix
import XWrt.Mwan3.Policy

/-!
# Routing tables

The lines of `ip route` and the commands that `mwan3rtmon` gives: a route is
added if none with its destination, tos and metric is there, and a request to
delete takes out the first route that has everything the request names. The
routes to one destination stand in the order of their metrics.
-/

namespace XWrt.Mwan3

/-! ## Route lines -/

/-- The type that a line starts with, where it is not unicast. -/
inductive RouteKind where
  | blackhole
  | unreachable
  | prohibit
  | throw
  deriving DecidableEq, Repr

def RouteKind.word : RouteKind → String
  | .blackhole => "blackhole"
  | .unreachable => "unreachable"
  | .prohibit => "prohibit"
  | .throw => "throw"

/-- A route line: `attributes` are the pairs `proto`, `scope` and `src`, and `more` is what stands behind the metric. -/
structure Route where
  kind : Option RouteKind
  dst : String
  tos : Option String
  via : Option String
  dev : Option String
  attributes : List (String × String)
  metric : Option Nat
  more : List String
  deriving DecidableEq, Repr

namespace Route

/-- The pair of a keyword and its value, where there is a value. -/
def pair (keyword : String) (value : Option String) : List String :=
  match value with
  | some value => [keyword, value]
  | none => []

/-- The words of a line; a listing of all tables names the table. -/
def words (table : Option Nat) (r : Route) : List String :=
  (r.kind.map RouteKind.word).toList ++ [r.dst] ++ pair "tos" r.tos ++ pair "via" r.via ++ pair "dev" r.dev ++
    pair "table" (table.map Nat.repr) ++ r.attributes.flatMap (fun a => [a.1, a.2]) ++
    pair "metric" (r.metric.map Nat.repr) ++ r.more

def text (table : Option Nat) (r : Route) : List Char := [' '].intercalate ((r.words table).map String.toList)

/-- The metric the kernel has for the route; a line of IPv6 always names it. -/
def priority (r : Route) : Nat := r.metric.getD 0

/-- What `ip route` prints and does not read: states, the rest of a lifetime, an error. -/
def printedOnly : List String :=
  ["dead", "linkdown", "pervasive", "offload", "trap", "unresolved", "expires", "error"]

/-- The words of the line are words of a command. -/
def readable (r : Route) : Bool := r.more.all fun word => word ∉ printedOnly

/-- A request to delete `r` names the route `a`. -/
def names (r a : Route) : Bool :=
  (r.kind = none || a.kind = r.kind) && a.dst = r.dst && a.tos = r.tos && (r.via = none || a.via = r.via) &&
    (r.dev = none || a.dev = r.dev) && r.attributes.all (· ∈ a.attributes) &&
    (r.metric = none || a.metric = r.metric) && r.more.all (· ∈ a.more)

/-- The place of a route in a table. -/
def sameKey (a b : Route) : Bool := a.dst = b.dst && a.tos = b.tos && a.priority = b.priority

end Route

/-! ## Tables -/

/-- Of two routes to one destination the first has the lower metric. -/
def InOrder (a b : Route) : Prop := a.dst = b.dst → a.tos = b.tos → a.priority < b.priority

instance : DecidableRel InOrder := fun a b =>
  inferInstanceAs (Decidable (a.dst = b.dst → a.tos = b.tos → a.priority < b.priority))

structure RouteTable where
  routes : List Route
  ordered : routes.Pairwise InOrder

/-- Put a route before the first one to its destination with a higher metric. -/
def insertRoute (r : Route) : List Route → List Route
  | [] => [r]
  | a :: rest =>
      if a.dst = r.dst ∧ a.tos = r.tos ∧ r.priority < a.priority then r :: a :: rest else a :: insertRoute r rest

theorem mem_insertRoute {r a : Route} {routes : List Route} : a ∈ insertRoute r routes ↔ a = r ∨ a ∈ routes := by
  induction routes with
  | nil => simp [insertRoute]
  | cons head rest ih =>
      rw [insertRoute]
      split
      · simp
      · rw [List.mem_cons, ih, List.mem_cons]
        tauto

theorem insertRoute_ordered {r : Route} {routes : List Route} (ordered : routes.Pairwise InOrder)
    (free : ∀ a ∈ routes, Route.sameKey a r = false) : (insertRoute r routes).Pairwise InOrder := by
  induction routes with
  | nil => exact List.pairwise_singleton ..
  | cons head rest ih =>
      obtain ⟨first, others⟩ := List.pairwise_cons.mp ordered
      rw [insertRoute]
      split
      · next lower =>
        refine List.pairwise_cons.mpr ⟨?_, ordered⟩
        intro a member dst tos
        rcases List.mem_cons.mp member with rfl | member
        · exact lower.2.2
        · exact lower.2.2.trans (first a member (lower.1.trans dst) (lower.2.1.trans tos))
      · next higher =>
        refine List.pairwise_cons.mpr ⟨?_, ih others fun a member => free a (List.mem_cons_of_mem head member)⟩
        intro a member dst tos
        rcases mem_insertRoute.mp member with rfl | member
        · have other := free head List.mem_cons_self
          have apart : head.priority ≠ a.priority := fun same => by simp [Route.sameKey, dst, tos, same] at other
          exact lt_of_le_of_ne (not_lt.mp fun lower => higher ⟨dst, tos, lower⟩) apart
        · exact first a member dst tos

/-- A route that a filter drops leaves the filtered routes as they are. -/
theorem filter_insertRoute {p : Route → Bool} {r : Route} (dropped : p r = false) (routes : List Route) :
    (insertRoute r routes).filter p = routes.filter p := by
  induction routes with
  | nil => simp [insertRoute, dropped]
  | cons head rest ih =>
      rw [insertRoute]
      split
      · simp [dropped]
      · simp only [List.filter_cons, ih]

namespace RouteTable

/-- `ip route add` succeeds. -/
def accepts (t : RouteTable) (r : Route) : Bool := r.readable && t.routes.all fun a => !a.sameKey r

theorem free_of_accepts {t : RouteTable} {r : Route} (accepted : t.accepts r = true) :
    ∀ a ∈ t.routes, a.sameKey r = false := by
  simp only [accepts, Bool.and_eq_true, List.all_eq_true, Bool.not_eq_true'] at accepted
  exact accepted.2

/-- `ip route add table N <line>` -/
def add (t : RouteTable) (r : Route) : Option RouteTable :=
  if accepted : t.accepts r = true then
    some ⟨insertRoute r t.routes, insertRoute_ordered t.ordered (free_of_accepts accepted)⟩
  else none

/-- The route that a request to delete takes out. -/
def named (t : RouteTable) (r : Route) : Option Route := if r.readable then t.routes.find? r.names else none

/-- `ip route del table N <line>` -/
def del (t : RouteTable) (r : Route) : Option RouteTable :=
  (t.named r).map fun a => ⟨t.routes.erase a, t.ordered.sublist List.erase_sublist⟩

/-- The table without some of its routes. -/
def without (t : RouteTable) (gone : Route → Bool) : RouteTable :=
  ⟨t.routes.filter fun a => !gone a, t.ordered.sublist List.filter_sublist⟩

@[ext]
theorem ext {t t' : RouteTable} (routes : t.routes = t'.routes) : t = t' := by
  cases t
  cases t'
  cases routes
  rfl

theorem nodup (t : RouteTable) : t.routes.Nodup :=
  t.ordered.imp fun before same => by
    subst same
    exact absurd (before rfl rfl) (lt_irrefl _)

@[simp]
theorem routes_without (t : RouteTable) (gone : Route → Bool) :
    (t.without gone).routes = t.routes.filter fun a => !gone a := rfl

theorem mem_without {t : RouteTable} {gone : Route → Bool} {a : Route} :
    a ∈ (t.without gone).routes ↔ a ∈ t.routes ∧ gone a = false := by
  rw [routes_without, List.mem_filter, Bool.not_eq_true']

theorem without_without (t : RouteTable) (gone : Route → Bool) : (t.without gone).without gone = t.without gone := by
  apply ext
  rw [routes_without, routes_without, List.filter_filter]
  simp only [Bool.and_self]

theorem mem_add {t t' : RouteTable} {r a : Route} (added : t.add r = some t') :
    a ∈ t'.routes ↔ a = r ∨ a ∈ t.routes := by
  unfold add at added
  split at added
  · cases added
    exact mem_insertRoute
  · cases added

theorem filter_add {t t' : RouteTable} {r : Route} {p : Route → Bool} (added : t.add r = some t')
    (dropped : p r = false) : t'.routes.filter p = t.routes.filter p := by
  unfold add at added
  split at added
  · cases added
    exact filter_insertRoute dropped t.routes
  · cases added

theorem add_isSome {t : RouteTable} {r : Route} : (t.add r).isSome = t.accepts r := by
  unfold add
  split
  · next accepted => rw [accepted, Option.isSome_some]
  · next refused => rw [Bool.eq_false_iff.mpr refused, Option.isSome_none]

theorem accepts_of_add {t t' : RouteTable} {r : Route} (added : t.add r = some t') : t.accepts r = true := by
  rw [← add_isSome, added, Option.isSome_some]

end RouteTable

/-! ## Deleting a listed route -/

theorem Route.names_self (r : Route) : r.names r = true := by
  simp [Route.names]

/-- A request with everything a route has names that route first. -/
theorem find?_names_self {routes : List Route} (ordered : routes.Pairwise InOrder) {r : Route} (member : r ∈ routes) :
    routes.find? r.names = some r := by
  induction routes with
  | nil => cases member
  | cons head rest ih =>
      obtain ⟨first, others⟩ := List.pairwise_cons.mp ordered
      rcases List.mem_cons.mp member with rfl | member
      · rw [List.find?_cons_of_pos r.names_self]
      · have passed : ¬r.names head = true := by
          intro named
          simp only [Route.names, Bool.and_eq_true, Bool.or_eq_true, decide_eq_true_eq] at named
          have lower := first r member named.1.1.1.1.1.1.2 named.1.1.1.1.1.2
          rcases named.1.2 with none | same
          · simp [Route.priority, none] at lower
          · simp [Route.priority, same] at lower
        rw [List.find?_cons_of_neg passed]
        exact ih others member

namespace RouteTable

theorem named_self {t : RouteTable} {r : Route} (member : r ∈ t.routes) (readable : r.readable = true) :
    t.named r = some r := by
  rw [named, if_pos readable, find?_names_self t.ordered member]

theorem named_mem {t : RouteTable} {r a : Route} (named : t.named r = some a) :
    a ∈ t.routes ∧ r.names a = true ∧ r.readable = true := by
  unfold RouteTable.named at named
  split at named
  · next readable => exact ⟨List.mem_of_find?_eq_some named, List.find?_some named, readable⟩
  · cases named

/-- Delete lines that were listed before, as far as they can be read. -/
def removeLines (t : RouteTable) (lines : List Route) : RouteTable :=
  lines.foldl (fun t line => (t.del line).getD t) t

theorem removeLines_routes {lines : List Route} {t : RouteTable} (nodup : lines.Nodup)
    (listed : ∀ line ∈ lines, line ∈ t.routes) :
    (t.removeLines lines).routes = t.routes.filter fun a => !(a ∈ lines && a.readable) := by
  induction lines generalizing t with
  | nil => simp [removeLines]
  | cons line lines ih =>
      obtain ⟨fresh, nodup⟩ := List.nodup_cons.mp nodup
      have own := listed line List.mem_cons_self
      rw [removeLines, List.foldl_cons]
      by_cases readable : line.readable = true
      · have erased : ((t.del line).getD t).routes = t.routes.filter (· != line) := by
          rw [del, named_self own readable]
          exact t.nodup.erase_eq_filter line
        have later := ih (t := (t.del line).getD t) nodup fun other member => by
          rw [erased]
          exact List.mem_filter.mpr ⟨listed other (List.mem_cons_of_mem line member),
            bne_iff_ne.mpr (ne_of_mem_of_not_mem member fresh)⟩
        rw [removeLines] at later
        rw [later, erased, List.filter_filter]
        refine List.filter_congr fun a _ => ?_
        by_cases same : a = line
        · simp [same, readable]
        · simp [same]
      · have kept : t.del line = none := by rw [del, named, if_neg readable, Option.map_none]
        have later := ih (t := t) nodup fun other member => listed other (List.mem_cons_of_mem line member)
        rw [removeLines] at later
        rw [kept, Option.getD_none, later]
        refine List.filter_congr fun a _ => ?_
        by_cases same : a = line
        · simp [same, fresh, readable]
        · simp [same]

end RouteTable

end XWrt.Mwan3
