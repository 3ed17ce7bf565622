import XWrt.Foundation.SweepRun
import XWrt.Mwan3.IfaceEvents
import XWrt.Mwan3.RouteTable

/-!
# The route monitor

`mwan3_rtmon_route_handle` of `usr/sbin/mwan3rtmon`, as far as it changes the
tables of the interfaces. A line of `ip monitor route` is added to every active
table of its family, or deleted from every one. A table is passed over if the
text of the line is found in its listing when it is to be added, or is not found
when it is to be deleted. A table that takes the line in no form first has the
routes that a `grep` selects deleted from all the tables.
-/

namespace XWrt.Mwan3

open XWrt.Foundation

/-! ## The line -/

/-- A line of `ip monitor route`, with `Deleted ` in front or not. -/
structure RouteEvent where
  deleted : Bool
  route : Route

namespace Route

/-- `${route_line%% linkdown*}`, and the same for `unreachable`. -/
def trimmed (r : Route) : Route :=
  { r with more := r.more.takeWhile fun word =>
      !("linkdown".toList.isPrefixOf word.toList || "unreachable".toList.isPrefixOf word.toList) }

/-- Default routes and link-local ones are handled elsewhere. -/
def ignored (r : Route) : Bool :=
  "default".toList <+: r.text none || "::/0".toList <+: r.text none || "fe80:".toList <+: r.text none

/-- `[ -z "${route_line##*text*}" ]` -/
def has (r : Route) (text : String) : Bool := text.toList <:+: r.text none

/-- The line with ` metric N` behind it. -/
def withMetric (r : Route) (metric : Nat) : Route := { r with metric := some metric }

/-- `${route_line%% metric *}` -/
def cutMetric (r : Route) : Route := { r with metric := none, more := [] }

/-- The forms that the line is tried in, `tid` being the table of its device and `id` the one at hand. -/
def forms (r : Route) (tid : Option Nat) (id : Nat) : List Route :=
  (if tid ≠ some id ∧ r.has " scope link" ∧ ¬r.has " metric " then [r.withMetric (tid.getD 256)] else []) ++
    (if tid = some id ∧ r.has " scope link" ∧ r.has " metric " then [r.cutMetric] else []) ++ [r]

end Route

/-! ## The grep -/

/-- `${text##*mark}`, where the mark occurs. -/
def behindLast (mark text : List Char) : Option (List Char) :=
  (text.tails.filter fun rest => mark <+: rest).getLast?.map (List.drop mark.length)

/-- The word behind the last `keyword` and a blank. -/
def wordBehind (keyword : String) (text : List Char) : Option (List Char) :=
  (behindLast (keyword.toList ++ [' ']) text).map fun rest => rest.takeWhile (· ≠ ' ')

/-- The text starts with the pattern, a dot of which stands for any character. -/
def dotPrefix : List Char → List Char → Bool
  | [], _ => true
  | _ :: _, [] => false
  | p :: pattern, c :: text => (p = '.' || p = c) && dotPrefix pattern text

/-- `grep "^$dst ${tos:+tos $tos}.*table [0-9].*${metric:+metric $metric}"` -/
def Route.selects (r line : Route) (table : Nat) : Bool :=
  let text := r.text none
  let head := text.takeWhile (· ≠ ' ') ++ [' '] ++
    (match wordBehind "tos" text with
      | some tos => "tos ".toList ++ tos
      | none => [])
  let tail := match wordBehind "metric" text with
    | some metric => "metric ".toList ++ metric
    | none => []
  let listed := line.text (some table)
  dotPrefix head listed && (listed.drop head.length).tails.any fun rest =>
    "table ".toList <+: rest && (rest.drop 6).head?.any Char.isDigit && (rest.drop 7).tails.any (dotPrefix tail)

/-! ## Tables -/

abbrev RouteTables := Nat → RouteTable

namespace RouteTable

/-- `ip route list table N` -/
def listing (t : RouteTable) : List Char := ['\n'].intercalate (t.routes.map (Route.text none))

/-- A line of the listing starts with `default` or `::/0`. -/
def active (t : RouteTable) : Bool :=
  t.routes.any fun a => "default".toList <+: a.text none || "::/0".toList <+: a.text none

/-- `[ -z "${tbl##*$route_line*}" ]` -/
def found (t : RouteTable) (r : Route) : Bool := r.text none <:+: t.listing

end RouteTable

/-- The device of a section, and whether its `enabled` option is there and 0; `[ "$enabled" -eq 0 ]`
fails for a section without the option. -/
structure SectionDevices where
  device : String → Option String
  disabled : String → Bool

section Handler

variable (c : IfaceConfig) (devices : SectionDevices)

/-- The interface sections with their ids. -/
def numbered : List (IfaceSection × Nat) := c.sections.zipIdx 1

/-- The tables that `handle_route_cb` handles. -/
def handledTables (family : Family) : List Nat :=
  ((numbered c).filter fun s => (s.2 : Int) ≤ interfaceMax c.mask ∧ family ∈ s.1.family.list).map Prod.snd

/-- `mwan3_update_dev_to_table` -/
def devTable (family : Family) : List (String × Nat) :=
  (numbered c).filterMap fun s =>
    if (s.2 : Int) ≤ interfaceMax c.mask ∧ ¬devices.disabled s.1.name ∧ family ∈ s.1.family.list then
      (devices.device s.1.name).map fun device => (device, s.2)
    else none

/-- `mwan3_route_line_dev` -/
def routeLineDev (family : Family) (r : Route) : Option Nat :=
  r.dev.bind fun device => ((devTable c devices family).find? fun entry => entry.1 = device).map Prod.snd

/-- What the `grep` selects is deleted line by line from the tables of interfaces. -/
def removeSelected (r : Route) (tables : RouteTables) : RouteTables :=
  let lines := (List.range' 1 (interfaceMax c.mask).toNat).flatMap fun table =>
    ((tables table).routes.filter (r.selects · table)).map fun line => (table, line)
  lines.foldl (fun tables line => Function.update tables line.1 (((tables line.1).del line.2).getD (tables line.1))) tables

/-- `handle_route` for an addition. -/
def addRoute (r : Route) (tid : Option Nat) (tables : RouteTables) (id : Nat) : RouteTables :=
  let tbl := tables id
  if !tbl.active then tables
  else if tbl.found r then tables
  else match (r.forms tid id).findSome? tbl.add with
    | some tbl => Function.update tables id tbl
    | none =>
        let tables := removeSelected c r tables
        Function.update tables id (((tables id).add r).getD (tables id))

/-- `handle_route` for a deletion. -/
def delRoute (r : Route) (tid : Option Nat) (tables : RouteTables) (id : Nat) : RouteTables :=
  let tbl := tables id
  if tbl.routes = [] then tables
  else if !tbl.found r then tables
  else match (r.forms tid id).findSome? tbl.del with
    | some tbl => Function.update tables id tbl
    | none => Function.update tables id ((tbl.del r).getD tbl)

/-- `mwan3_rtmon_route_handle` -/
def routeHandle (family : Family) (e : RouteEvent) (tables : RouteTables) : RouteTables :=
  if family = .ipv6 ∧ c.noIpv6 then tables
  else if e.route.ignored then tables
  else
    let r := e.route.trimmed
    let tid := routeLineDev c devices family r
    (handledTables c family).foldl (if e.deleted then delRoute r tid else addRoute c r tid) tables

end Handler

/-- A route to the same destination with the same gateway and device. -/
def Route.sameWay (r a : Route) : Bool := a.dst = r.dst && a.via = r.via && a.dev = r.dev

/-! ## What is deleted for a refused line -/

section Sweep

variable (c : IfaceConfig)

/-- A route that is deleted when some table refuses the line. -/
def Route.clears (r : Route) (table : Nat) (a : Route) : Bool := r.selects a table && a.readable

/-- The table when the selected lines are deleted. -/
def sweepTable (r : Route) (table : Nat) (t : RouteTable) : RouteTable :=
  if 1 ≤ table ∧ (table : Int) ≤ interfaceMax c.mask then t.without (r.clears table) else t

variable {c} {r : Route} {table : Nat} {t : RouteTable}

theorem sweepTable_idem (table : Nat) (t : RouteTable) :
    sweepTable c r table (sweepTable c r table t) = sweepTable c r table t := by
  unfold sweepTable
  split
  · exact t.without_without _
  · rfl

/-- Deletions from many tables change each table by its own lines. -/
theorem foldl_delete (lines : List (Nat × Route)) (tables : RouteTables) (table : Nat) :
    (lines.foldl (fun tables line => Function.update tables line.1 (((tables line.1).del line.2).getD (tables line.1)))
      tables) table = (tables table).removeLines ((lines.filter fun line => line.1 = table).map Prod.snd) := by
  induction lines generalizing tables with
  | nil => rfl
  | cons line lines ih =>
      rw [List.foldl_cons, ih]
      by_cases here : line.1 = table
      · subst here
        rw [Function.update_self, List.filter_cons_of_pos (by simp)]
        rfl
      · rw [Function.update_of_ne (Ne.symm here), List.filter_cons_of_neg (by simpa using here)]

/-- The lines of one table among those of several. -/
theorem filter_flatMap_table (lines : Nat → List Route) {ids : List Nat} (nodup : ids.Nodup) (table : Nat) :
    ((ids.flatMap fun id => (lines id).map fun line => (id, line)).filter fun line => line.1 = table).map Prod.snd =
      if table ∈ ids then lines table else [] := by
  induction ids with
  | nil => rfl
  | cons id ids ih =>
      obtain ⟨fresh, nodup⟩ := List.nodup_cons.mp nodup
      rw [List.flatMap_cons, List.filter_append, List.map_append, ih nodup]
      by_cases here : id = table
      · subst here
        have own : ((lines id).map fun line => (id, line)).filter (fun line => line.1 = id) =
            (lines id).map fun line => (id, line) := by
          refine List.filter_eq_self.mpr fun line member => ?_
          obtain ⟨a, _, rfl⟩ := List.mem_map.mp member
          exact decide_eq_true rfl
        rw [own, if_neg fresh, if_pos List.mem_cons_self, List.append_nil, List.map_map]
        exact List.map_id _
      · have none : ((lines id).map fun line => (id, line)).filter (fun line => line.1 = table) = [] := by
          refine List.filter_eq_nil_iff.mpr fun line member => ?_
          obtain ⟨a, _, rfl⟩ := List.mem_map.mp member
          simpa using here
        rw [none]
        simp [Ne.symm here]

theorem removeSelected_eq (tables : RouteTables) :
    removeSelected c r tables = SweepRun.sweepAll (sweepTable c r) tables := by
  funext table
  have inRange : table ∈ List.range' 1 (interfaceMax c.mask).toNat ↔
      1 ≤ table ∧ (table : Int) ≤ interfaceMax c.mask := by
    rw [List.mem_range'_1]
    omega
  rw [removeSelected, foldl_delete, filter_flatMap_table _ List.nodup_range', SweepRun.sweepAll, sweepTable]
  by_cases inside : 1 ≤ table ∧ (table : Int) ≤ interfaceMax c.mask
  · rw [if_pos inside, if_pos (inRange.mpr inside)]
    apply RouteTable.ext
    rw [RouteTable.removeLines_routes ((tables table).nodup.filter _) fun line member => (List.mem_filter.mp member).1]
    refine List.filter_congr fun a member => ?_
    simp [Route.clears, member]
  · rw [if_neg inside, if_neg (inRange.not.mpr inside)]
    rfl

end Sweep

/-! ## Additions -/

section Additions

variable (c : IfaceConfig) (r : Route) (tid : Option Nat)

/-- What a table becomes in its turn. -/
def addTurn (table : Nat) (t : RouteTable) : RouteTable :=
  if !t.active then t
  else if t.found r then t
  else match (r.forms tid table).findSome? t.add with
    | some t => t
    | none => ((sweepTable c r table t).add r).getD (sweepTable c r table t)

/-- An active table in which the line is not found takes it in no form. -/
def refusesRoute (table : Nat) (t : RouteTable) : Bool :=
  t.active && !t.found r && (r.forms tid table).all fun form => !t.accepts form

/-- The form in which the line comes into a table, after the deletions if need be. -/
def entered (table : Nat) (t : RouteTable) : Option Route :=
  match (r.forms tid table).find? t.accepts with
  | some form => some form
  | none => if (sweepTable c r table t).accepts r then some r else none

abbrev addRun (ids : List Nat) (tables : RouteTables) : RouteTables :=
  SweepRun.run (sweepTable c r) (addTurn c r tid) (refusesRoute r tid) ids tables

/-- A table when some others had their turns. -/
abbrev tableAfter (ids : List Nat) (tables : RouteTables) (table : Nat) : RouteTable :=
  SweepRun.asOf (sweepTable c r) (refusesRoute r tid) ids tables table

variable {c r tid} {table : Nat} {t : RouteTable}

theorem findSome?_add_eq_none {forms : List Route} :
    forms.findSome? t.add = none ↔ (forms.all fun form => !t.accepts form) = true := by
  simp only [List.findSome?_eq_none_iff, List.all_eq_true, Bool.not_eq_true', ← RouteTable.add_isSome,
    Option.isSome_eq_false_iff, Option.isNone_iff_eq_none]

theorem taken_of_findSome? {forms : List Route} {t' : RouteTable} (added : forms.findSome? t.add = some t') :
    (forms.all fun form => !t.accepts form) = false := by
  rw [← Bool.not_eq_true, ← findSome?_add_eq_none, added]
  exact Option.some_ne_none t'

theorem addRoute_eq (tables : RouteTables) (id : Nat) :
    addRoute c r tid tables id =
      SweepRun.step (sweepTable c r) (addTurn c r tid) (refusesRoute r tid) tables id := by
  unfold addRoute SweepRun.step addTurn refusesRoute
  cases active : (tables id).active with
  | false => simp [active]
  | true =>
      cases found : (tables id).found r with
      | true => simp [active, found]
      | false =>
          cases added : (r.forms tid id).findSome? (tables id).add with
          | some t =>
              have taken := taken_of_findSome? added
              simp [active, found, added, taken]
          | none =>
              have refused := findSome?_add_eq_none.mp added
              simp [active, found, added, refused, removeSelected_eq, SweepRun.sweepAll]

/-- Every form of a line leads to the same place the same way. -/
theorem forms_way {form : Route} (member : form ∈ r.forms tid table) :
    form.dst = r.dst ∧ form.via = r.via ∧ form.dev = r.dev := by
  have cases : form = r.withMetric (tid.getD 256) ∨ form = r.cutMetric ∨ form = r := by
    simp only [Route.forms, List.mem_append] at member
    rcases member with (member | member) | member
    · split at member
      · exact Or.inl (List.mem_singleton.mp member)
      · cases member
    · split at member
      · exact Or.inr (Or.inl (List.mem_singleton.mp member))
      · cases member
    · exact Or.inr (Or.inr (List.mem_singleton.mp member))
  rcases cases with rfl | rfl | rfl <;> exact ⟨rfl, rfl, rfl⟩

theorem mem_forms_self : r ∈ r.forms tid table := List.mem_append_right _ (List.mem_singleton.mpr rfl)

theorem entered_form {form : Route} (enters : entered c r tid table t = some form) : form ∈ r.forms tid table := by
  unfold entered at enters
  split at enters
  · next form' found =>
    cases enters
    exact List.mem_of_find?_eq_some found
  · split at enters
    · cases enters
      exact mem_forms_self
    · cases enters

theorem addTurn_idle (idle : t.active = false ∨ t.found r = true) : addTurn c r tid table t = t := by
  unfold addTurn
  rcases idle with idle | idle
  · rw [idle, Bool.not_false, if_pos rfl]
  · rw [if_pos idle, ite_self]

/-- A turn keeps the routes, or those that are not deleted if the line is refused, and adds a form of the line. -/
theorem mem_addTurn (active : t.active = true) (absent : t.found r = false) {a : Route} :
    a ∈ (addTurn c r tid table t).routes ↔ entered c r tid table t = some a ∨
      a ∈ (if refusesRoute r tid table t then sweepTable c r table t else t).routes := by
  unfold addTurn entered refusesRoute
  rw [active, absent]
  cases added : (r.forms tid table).findSome? t.add with
  | some t' =>
      obtain ⟨before, form, after, forms, enters, refused⟩ := List.findSome?_eq_some_iff.mp added
      have first : (r.forms tid table).find? t.accepts = some form := by
        refine List.find?_eq_some_iff_append.mpr ⟨RouteTable.accepts_of_add enters, before, after, forms, fun other member => ?_⟩
        rw [← RouteTable.add_isSome, refused other member]
        rfl
      simp only [first, taken_of_findSome? added]
      simpa [@eq_comm _ a form] using RouteTable.mem_add (a := a) enters
  | none =>
      have refused := findSome?_add_eq_none.mp added
      have none : (r.forms tid table).find? t.accepts = none := by
        refine List.find?_eq_none.mpr fun form member => ?_
        simpa using List.all_eq_true.mp refused form member
      simp only [none, refused]
      cases again : (sweepTable c r table t).add r with
      | some t' =>
          simp only [RouteTable.accepts_of_add again]
          simpa [@eq_comm _ a r] using RouteTable.mem_add (a := a) again
      | none =>
          have rejected : (sweepTable c r table t).accepts r = false := by
            rw [← RouteTable.add_isSome, again, Option.isSome_none]
          simp [rejected]

/-- A route of the way that stays in the table when the selected ones are deleted. -/
def Spared (r : Route) (table : Nat) (t : RouteTable) : Prop :=
  ∃ a ∈ t.routes, r.sameWay a = true ∧ r.clears table a = false

def Reaches (r : Route) (t : RouteTable) : Prop := ∃ a ∈ t.routes, r.sameWay a = true

theorem Spared.reaches (spared : Spared r table t) : Reaches r t := by
  obtain ⟨a, member, way, -⟩ := spared
  exact ⟨a, member, way⟩

theorem sameWay_form {form : Route} (member : form ∈ r.forms tid table) : r.sameWay form = true := by
  obtain ⟨dst, via, dev⟩ := forms_way member
  simp [Route.sameWay, dst, via, dev]

section Inside

variable (inside : 1 ≤ table ∧ (table : Int) ≤ interfaceMax c.mask)

include inside

theorem mem_sweepTable {a : Route} :
    a ∈ (sweepTable c r table t).routes ↔ a ∈ t.routes ∧ r.clears table a = false := by
  rw [sweepTable, if_pos inside, RouteTable.mem_without]

theorem reaches_sweepTable : Reaches r (sweepTable c r table t) ↔ Spared r table t := by
  refine exists_congr fun a => ?_
  rw [mem_sweepTable inside, and_assoc, and_comm (a := r.clears table a = false)]

theorem spared_sweepTable : Spared r table (sweepTable c r table t) ↔ Spared r table t := by
  constructor
  · rintro ⟨a, member, way, kept⟩
    exact ⟨a, ((mem_sweepTable inside).mp member).1, way, kept⟩
  · rintro ⟨a, member, way, kept⟩
    exact ⟨a, (mem_sweepTable inside).mpr ⟨member, kept⟩, way, kept⟩

theorem spared_tableAfter {ids : List Nat} {tables : RouteTables} :
    Spared r table (tableAfter c r tid ids tables table) ↔ Spared r table (tables table) := by
  unfold tableAfter SweepRun.asOf
  split
  · exact spared_sweepTable inside
  · rfl

/-- After its turn a table has a route of the way if the line comes in, or if one is spared. -/
theorem reaches_addTurn (active : t.active = true) (absent : t.found r = false) :
    Reaches r (addTurn c r tid table t) ↔ (entered c r tid table t).isSome = true ∨ Spared r table t := by
  constructor
  · rintro ⟨a, member, way⟩
    rcases (mem_addTurn active absent).mp member with enters | member
    · exact Or.inl (by rw [enters, Option.isSome_some])
    · split at member
      · exact Or.inr ((reaches_sweepTable inside).mp ⟨a, member, way⟩)
      · next taken =>
        -- the line is not refused, so some form of it is accepted
        refine Or.inl ?_
        simp only [refusesRoute, active, absent, Bool.not_false, Bool.true_and, Bool.not_eq_true] at taken
        unfold entered
        cases first : (r.forms tid table).find? t.accepts with
        | some form => rfl
        | none =>
            rw [List.find?_eq_none] at first
            rw [List.all_eq_false] at taken
            obtain ⟨form, member, accepted⟩ := taken
            exact absurd (by simpa using accepted) (first form member)
  · rintro (enters | ⟨a, member, way, kept⟩)
    · obtain ⟨form, enters⟩ := Option.isSome_iff_exists.mp enters
      exact ⟨form, (mem_addTurn active absent).mpr (Or.inl enters), sameWay_form (entered_form enters)⟩
    · refine ⟨a, (mem_addTurn active absent).mpr (Or.inr ?_), way⟩
      split
      · exact (mem_sweepTable inside).mpr ⟨member, kept⟩
      · exact member

/-- What its turn leaves spared in a table: a form of the line that is not deleted again, or what was. -/
theorem spared_addTurn (active : t.active = true) (absent : t.found r = false) :
    Spared r table (addTurn c r tid table t) ↔
      (∃ form, entered c r tid table t = some form ∧ r.clears table form = false) ∨ Spared r table t := by
  constructor
  · rintro ⟨a, member, way, kept⟩
    rcases (mem_addTurn active absent).mp member with enters | member
    · exact Or.inl ⟨a, enters, kept⟩
    · refine Or.inr ?_
      split at member
      · exact (spared_sweepTable inside).mp ⟨a, member, way, kept⟩
      · exact ⟨a, member, way, kept⟩
  · rintro (⟨form, enters, kept⟩ | ⟨a, member, way, kept⟩)
    · exact ⟨form, (mem_addTurn active absent).mpr (Or.inl enters), sameWay_form (entered_form enters), kept⟩
    · refine ⟨a, (mem_addTurn active absent).mpr (Or.inr ?_), way, kept⟩
      split
      · exact (mem_sweepTable inside).mpr ⟨member, kept⟩
      · exact member

end Inside

/-! ### One table after the whole run -/

/--
How an addition serves an active table that has its turn between others. A route
of the way that the `grep` does not select does in any case. Otherwise the table
is to be active in its turn; if the line is then found, there is to be a route of
the way and no later table may refuse the line; if it is not, it is to come in,
in a form that the `grep` does not select or that no later table has deleted.
-/
def Served (c : IfaceConfig) (r : Route) (tid : Option Nat) (tables : RouteTables) (before : List Nat) (table : Nat)
    (after : List Nat) : Prop :=
  let t := tableAfter c r tid before tables table
  let refusedLater := ∃ j ∈ after, refusesRoute r tid j (tableAfter c r tid (before ++ [table]) tables j) = true
  Spared r table (tables table) ∨
    t.active = true ∧
      if t.found r then Reaches r t ∧ ¬refusedLater
      else ∃ form, entered c r tid table t = some form ∧ (refusedLater → r.clears table form = false)

/-- A turn and the deletions that may follow it. -/
theorem reaches_turn {base : RouteTable} {later : Prop} [Decidable later]
    (inside : 1 ≤ table ∧ (table : Int) ≤ interfaceMax c.mask) (spared : Spared r table t ↔ Spared r table base)
    (idle : t.active = false → Reaches r t → Spared r table base) :
    Reaches r (if later then sweepTable c r table (addTurn c r tid table t) else addTurn c r tid table t) ↔
      Spared r table base ∨ t.active = true ∧
        if t.found r then Reaches r t ∧ ¬later
        else ∃ form, entered c r tid table t = some form ∧ (later → r.clears table form = false) := by
  have swept : Reaches r (sweepTable c r table (addTurn c r tid table t)) ↔ Spared r table (addTurn c r tid table t) :=
    reaches_sweepTable inside
  cases active : t.active with
  | false =>
      rw [addTurn_idle (Or.inl active)] at swept ⊢
      have only : Reaches r t ↔ Spared r table base := ⟨idle active, fun kept => (spared.mpr kept).reaches⟩
      split <;> simp [swept, spared, only]
  | true =>
      cases found : t.found r with
      | true =>
          rw [addTurn_idle (Or.inr found)] at swept ⊢
          have more : Spared r table base → Reaches r t := fun kept => (spared.mpr kept).reaches
          by_cases afterwards : later
          · simp [afterwards, swept, spared]
          · simp [afterwards, or_iff_right_of_imp more]
      | false =>
          by_cases afterwards : later
          · rw [if_pos afterwards, swept, spared_addTurn inside active found, spared, or_comm]
            simp [afterwards]
          · rw [if_neg afterwards, reaches_addTurn inside active found, spared, or_comm, Option.isSome_iff_exists]
            simp [afterwards]

theorem reaches_run {before after : List Nat} {tables : RouteTables} (nodup : (before ++ table :: after).Nodup)
    (inside : 1 ≤ table ∧ (table : Int) ≤ interfaceMax c.mask) (active : (tables table).active = true) :
    Reaches r (addRun c r tid (before ++ table :: after) tables table) ↔ Served c r tid tables before table after := by
  rw [addRun, SweepRun.run_cell sweepTable_idem nodup]
  refine reaches_turn inside (spared_tableAfter inside) fun idle reaches => ?_
  -- only the deletions for an earlier table can have made the table inactive
  unfold SweepRun.asOf at idle reaches
  split at idle
  · next refused =>
    rw [if_pos refused] at reaches
    exact (reaches_sweepTable inside).mp reaches
  · rw [active] at idle
    cases idle

/-! ### Routes to other destinations -/

/-- The routes to other destinations. -/
def others (r : Route) (t : RouteTable) : List Route := t.routes.filter fun a => a.dst ≠ r.dst

/-- The `grep` selects routes to the destination of the line only. -/
def ClearsOwn (c : IfaceConfig) (r : Route) (table : Nat) (t : RouteTable) : Prop :=
  1 ≤ table ∧ (table : Int) ≤ interfaceMax c.mask → ∀ a ∈ t.routes, r.clears table a = true → a.dst = r.dst

theorem mem_others {a : Route} : a ∈ others r t ↔ a ∈ t.routes ∧ a.dst ≠ r.dst := by
  rw [others, List.mem_filter, decide_eq_true_eq]

theorem others_add {t' : RouteTable} {form : Route} (added : t.add form = some t') (same : form.dst = r.dst) :
    others r t' = others r t :=
  RouteTable.filter_add added (by simp [same])

theorem others_sweepTable (own : ClearsOwn c r table t) : others r (sweepTable c r table t) = others r t := by
  unfold sweepTable
  split
  · next inside =>
    unfold others
    rw [RouteTable.routes_without, List.filter_filter]
    refine List.filter_congr fun a member => ?_
    cases cleared : r.clears table a with
    | false => simp
    | true => simp [own inside a member cleared]
  · rfl

theorem mem_of_sweepTable {a : Route} (member : a ∈ (sweepTable c r table t).routes) : a ∈ t.routes := by
  unfold sweepTable at member
  split at member
  · exact (RouteTable.mem_without.mp member).1
  · exact member

theorem clearsOwn_sweepTable (own : ClearsOwn c r table t) : ClearsOwn c r table (sweepTable c r table t) :=
  fun inside a member => own inside a (mem_of_sweepTable member)

/-- A turn brings in no route to another destination. -/
theorem mem_of_addTurn {a : Route} (member : a ∈ (addTurn c r tid table t).routes) (other : a.dst ≠ r.dst) :
    a ∈ (if refusesRoute r tid table t then sweepTable c r table t else t).routes := by
  cases active : t.active with
  | false =>
      rw [addTurn_idle (Or.inl active)] at member
      simpa [refusesRoute, active] using member
  | true =>
      cases found : t.found r with
      | true =>
          rw [addTurn_idle (Or.inr found)] at member
          simpa [refusesRoute, found] using member
      | false =>
          refine ((mem_addTurn active found).mp member).resolve_left fun enters => other ?_
          exact (forms_way (entered_form enters)).1

theorem clearsOwn_addTurn (own : ClearsOwn c r table t) : ClearsOwn c r table (addTurn c r tid table t) := by
  intro inside a member cleared
  by_contra other
  have kept := mem_of_addTurn member other
  split at kept
  · exact other (clearsOwn_sweepTable own inside a kept cleared)
  · exact other (own inside a kept cleared)

theorem others_addTurn (own : refusesRoute r tid table t = true → ClearsOwn c r table t) :
    others r (addTurn c r tid table t) = others r t := by
  cases active : t.active with
  | false => rw [addTurn_idle (Or.inl active)]
  | true =>
      cases found : t.found r with
      | true => rw [addTurn_idle (Or.inr found)]
      | false =>
          unfold addTurn
          rw [active, found]
          cases added : (r.forms tid table).findSome? t.add with
          | some t' =>
              obtain ⟨form, member, enters⟩ := List.exists_of_findSome?_eq_some added
              exact others_add enters (forms_way member).1
          | none =>
              have refused : refusesRoute r tid table t = true := by
                simp [refusesRoute, active, found, findSome?_add_eq_none.mp added]
              have swept := others_sweepTable (own refused)
              cases again : (sweepTable c r table t).add r with
              | some t' => exact (others_add again rfl).trans swept
              | none => exact swept

theorem clearsOwn_tableAfter {ids : List Nat} {tables : RouteTables} (own : ClearsOwn c r table (tables table)) :
    ClearsOwn c r table (tableAfter c r tid ids tables table) := by
  unfold tableAfter SweepRun.asOf
  split
  · exact clearsOwn_sweepTable own
  · exact own

theorem others_tableAfter {ids : List Nat} {tables : RouteTables} (own : ClearsOwn c r table (tables table)) :
    others r (tableAfter c r tid ids tables table) = others r (tables table) := by
  unfold tableAfter SweepRun.asOf
  split
  · exact others_sweepTable own
  · rfl

/-- A selected route to another destination is gone when some table has refused the line. -/
theorem cleared_of_refused {ids : List Nat} {tables : RouteTables} (nodup : ids.Nodup)
    (refused : SweepRun.Refusal (refusesRoute r tid) ids tables)
    (inside : 1 ≤ table ∧ (table : Int) ≤ interfaceMax c.mask) {a : Route} (other : a.dst ≠ r.dst)
    (stays : a ∈ (addRun c r tid ids tables table).routes) : r.clears table a = false := by
  by_cases turned : table ∈ ids
  · obtain ⟨before, after, rfl⟩ := List.append_of_mem turned
    rw [addRun, SweepRun.run_cell sweepTable_idem nodup] at stays
    split at stays
    · exact ((mem_sweepTable inside).mp stays).2
    · next calmLater =>
      have kept := mem_of_addTurn stays other
      split at kept
      · exact ((mem_sweepTable inside).mp kept).2
      · next accepts =>
        by_cases earlier : SweepRun.Refusal (refusesRoute r tid) before tables
        · rw [SweepRun.asOf_swept earlier] at kept
          exact ((mem_sweepTable inside).mp kept).2
        · rw [SweepRun.asOf_calm earlier] at accepts
          exact absurd (SweepRun.refused_later refused earlier accepts) calmLater
  · rw [addRun, SweepRun.run_outside sweepTable_idem nodup turned, SweepRun.asOf_swept refused] at stays
    exact ((mem_sweepTable inside).mp stays).2

/-- A run leaves the other routes alone if no table refuses the line, or if own routes only are selected. -/
theorem others_run {ids : List Nat} {tables : RouteTables} (nodup : ids.Nodup) :
    (∀ table, others r (addRun c r tid ids tables table) = others r (tables table)) ↔
      (SweepRun.Refusal (refusesRoute r tid) ids tables → ∀ table, ClearsOwn c r table (tables table)) := by
  constructor
  · intro same refused table inside a member cleared
    by_contra other
    have stays : a ∈ (addRun c r tid ids tables table).routes :=
      (mem_others.mp (same table ▸ mem_others.mpr ⟨member, other⟩)).1
    rw [cleared_of_refused nodup refused inside other stays] at cleared
    cases cleared
  · intro own table
    by_cases refused : SweepRun.Refusal (refusesRoute r tid) ids tables
    · have selected := own refused table
      by_cases turned : table ∈ ids
      · obtain ⟨before, after, rfl⟩ := List.append_of_mem turned
        have ownLater : ClearsOwn c r table (tableAfter c r tid before tables table) := clearsOwn_tableAfter selected
        have turn : others r (addTurn c r tid table (tableAfter c r tid before tables table)) = others r (tables table) :=
          (others_addTurn fun _ => ownLater).trans (others_tableAfter selected)
        rw [addRun, SweepRun.run_cell sweepTable_idem nodup]
        split
        · exact (others_sweepTable (clearsOwn_addTurn ownLater)).trans turn
        · exact turn
      · rw [addRun, SweepRun.run_outside sweepTable_idem nodup turned, SweepRun.asOf_swept refused]
        exact others_sweepTable selected
    · by_cases turned : table ∈ ids
      · obtain ⟨before, after, rfl⟩ := List.append_of_mem turned
        rw [addRun, SweepRun.run_calm sweepTable_idem nodup refused]
        exact others_addTurn fun refusal => absurd ⟨table, turned, refusal⟩ refused
      · rw [addRun, SweepRun.run_outside sweepTable_idem nodup turned, SweepRun.asOf_calm refused]

/-- Where no table refuses the line, it must not be found in a table without a route of the way. -/
theorem served_calm {before after : List Nat} {tables : RouteTables}
    (calm : ¬SweepRun.Refusal (refusesRoute r tid) (before ++ table :: after) tables)
    (active : (tables table).active = true) :
    Served c r tid tables before table after ↔ ((tables table).found r = true → Reaches r (tables table)) := by
  have part : ∀ ids : List Nat, ids ⊆ before ++ table :: after → ¬SweepRun.Refusal (refusesRoute r tid) ids tables :=
    fun ids inside ⟨id, member, refusal⟩ => calm ⟨id, inside member, refusal⟩
  have front := part (before ++ [table]) (by simp)
  have later : ¬∃ j ∈ after, refusesRoute r tid j (tableAfter c r tid (before ++ [table]) tables j) = true := by
    rintro ⟨j, member, refusal⟩
    rw [tableAfter, SweepRun.asOf_calm front] at refusal
    exact part after (by simp) ⟨j, member, refusal⟩
  have now : tableAfter c r tid before tables table = tables table := SweepRun.asOf_calm (part before (by simp))
  simp only [Served, now, later, active, not_false_eq_true, and_true, true_and, false_imp_iff]
  cases found : (tables table).found r with
  | true => simp only [if_true, true_imp_iff, or_iff_right_of_imp Spared.reaches]
  | false =>
      have taken : ¬refusesRoute r tid table (tables table) = true :=
        fun refusal => calm ⟨table, List.mem_append_right before List.mem_cons_self, refusal⟩
      simp only [refusesRoute, active, found, Bool.not_false, Bool.true_and, List.all_eq_true, not_forall] at taken
      obtain ⟨form, member, accepted⟩ := taken
      have first : ((r.forms tid table).find? (tables table).accepts).isSome = true :=
        List.find?_isSome.mpr ⟨form, member, by simpa using accepted⟩
      obtain ⟨form, first⟩ := Option.isSome_iff_exists.mp first
      have enters : entered c r tid table (tables table) = some form := by rw [entered, first]
      simp [enters]

/-- An addition brings the active tables in step exactly if each one is served and the deletions are of own routes. -/
theorem addRun_iff {ids : List Nat} (nodup : ids.Nodup)
    (inside : ∀ id ∈ ids, 1 ≤ id ∧ (id : Int) ≤ interfaceMax c.mask) (tables : RouteTables) :
    ((∀ id ∈ ids, (tables id).active = true → Reaches r (addRun c r tid ids tables id)) ∧
        ∀ table, others r (addRun c r tid ids tables table) = others r (tables table)) ↔
      (∀ before id after, ids = before ++ id :: after → (tables id).active = true →
          Served c r tid tables before id after) ∧
        (SweepRun.Refusal (refusesRoute r tid) ids tables → ∀ table, ClearsOwn c r table (tables table)) := by
  refine and_congr ?_ (others_run nodup)
  constructor
  · rintro reached before id after rfl active
    have member : id ∈ before ++ id :: after := List.mem_append_right before List.mem_cons_self
    exact (reaches_run nodup (inside id member) active).mp (reached id member active)
  · intro served id member active
    have own := inside id member
    obtain ⟨before, after, rfl⟩ := List.append_of_mem member
    exact (reaches_run nodup own active).mpr (served before id after rfl active)

end Additions

/-! ## Deletions -/

section Deletions

variable (r : Route) (tid : Option Nat)

/-- What a table becomes in its turn. -/
def delTurn (table : Nat) (t : RouteTable) : RouteTable :=
  if t.routes = [] then t
  else if !t.found r then t
  else match (r.forms tid table).findSome? t.del with
    | some t => t
    | none => (t.del r).getD t

/-- The route that is taken out of a table. -/
def victim (table : Nat) (t : RouteTable) : Option Route := (r.forms tid table).findSome? t.named

variable {r tid} {table : Nat} {t : RouteTable}

theorem delRoute_eq (tables : RouteTables) (id : Nat) :
    delRoute r tid tables id =
      SweepRun.step (fun _ t => t) (delTurn r tid) (fun _ _ => false) tables id := by
  unfold delRoute SweepRun.step delTurn
  by_cases empty : (tables id).routes = []
  · simp [empty]
  · cases found : (tables id).found r with
    | false => simp [empty, found]
    | true => cases deleted : (r.forms tid id).findSome? (tables id).del <;> simp [empty, found, deleted]

/-- Every table has its own turn and nothing else. -/
theorem delRun_eq {ids : List Nat} (nodup : ids.Nodup) (tables : RouteTables) (table : Nat) :
    (ids.foldl (delRoute r tid) tables) table =
      if table ∈ ids then delTurn r tid table (tables table) else tables table := by
  have steps : delRoute r tid = SweepRun.step (fun _ t => t) (delTurn r tid) (fun _ _ => false) := by
    funext tables id
    exact delRoute_eq tables id
  have calm : ∀ ids, ¬SweepRun.Refusal (fun _ (_ : RouteTable) => false) ids tables := by
    rintro ids ⟨id, _, refusal⟩
    cases refusal
  rw [steps]
  split
  · next turned =>
    obtain ⟨before, after, rfl⟩ := List.append_of_mem turned
    exact SweepRun.run_calm (fun _ _ => rfl) nodup (calm _)
  · next turned =>
    exact (SweepRun.run_outside (fun _ _ => rfl) nodup turned).trans (SweepRun.asOf_calm (calm ids))

/-- A form names a route to the destination of the line. -/
theorem victim_mem {a : Route} (named : victim r tid table t = some a) : a ∈ t.routes ∧ a.dst = r.dst := by
  obtain ⟨form, member, named⟩ := List.exists_of_findSome?_eq_some named
  obtain ⟨inside, names, -⟩ := RouteTable.named_mem named
  simp only [Route.names, Bool.and_eq_true, decide_eq_true_eq] at names
  exact ⟨inside, names.1.1.1.1.1.1.2.trans (forms_way member).1⟩

theorem findSome?_del : (r.forms tid table).findSome? t.del =
    (victim r tid table t).map fun a => ⟨t.routes.erase a, t.ordered.sublist List.erase_sublist⟩ := by
  rw [victim, List.map_findSome?]
  rfl

theorem delTurn_found (found : t.found r = true) :
    (delTurn r tid table t).routes =
      match victim r tid table t with
      | some a => t.routes.erase a
      | none => t.routes := by
  unfold delTurn
  rw [found, findSome?_del]
  cases named : victim r tid table t with
  | some a =>
      have filled : t.routes ≠ [] := List.ne_nil_of_mem (victim_mem named).1
      simp [filled]
  | none =>
      have same : t.del r = none := by
        rw [RouteTable.del, List.findSome?_eq_none_iff.mp named r mem_forms_self, Option.map_none]
      simp [same]

theorem delTurn_absent (absent : t.found r = false) : delTurn r tid table t = t := by
  unfold delTurn
  rw [absent, Bool.not_false, if_pos rfl, ite_self]

/-- No route of the way is left exactly if each one is found and taken out. -/
theorem delTurn_clears :
    (∀ a ∈ (delTurn r tid table t).routes, r.sameWay a = false) ↔
      ∀ a ∈ t.routes, r.sameWay a = true → t.found r = true ∧ victim r tid table t = some a := by
  cases found : t.found r with
  | false => simp [delTurn_absent found]
  | true =>
      rw [delTurn_found found]
      cases named : victim r tid table t with
      | none => simp
      | some b =>
          simp only [t.nodup.mem_erase_iff, true_and, Option.some.injEq]
          refine forall_congr' fun a => ?_
          rw [and_imp, ← Bool.not_eq_true]
          constructor
          · intro clear member way
            by_contra other
            exact clear (Ne.symm other) member way
          · intro only other member way
            exact other (only member way).symm

theorem others_delTurn : others r (delTurn r tid table t) = others r t := by
  cases found : t.found r with
  | false => rw [delTurn_absent found]
  | true =>
      unfold others
      rw [delTurn_found found]
      cases named : victim r tid table t with
      | none => rfl
      | some b =>
          simp only [t.nodup.erase_eq_filter, List.filter_filter]
          refine List.filter_congr fun a _ => ?_
          by_cases same : a = b
          · simp [same, (victim_mem named).2]
          · simp [same]

/-- A deletion clears the tables exactly if every route of the way is found and taken out. -/
theorem delRun_iff {ids : List Nat} (nodup : ids.Nodup) (tables : RouteTables) :
    ((∀ id ∈ ids, ∀ a ∈ (ids.foldl (delRoute r tid) tables id).routes, r.sameWay a = false) ∧
        ∀ table, others r (ids.foldl (delRoute r tid) tables table) = others r (tables table)) ↔
      ∀ id ∈ ids, ∀ a ∈ (tables id).routes, r.sameWay a = true →
        (tables id).found r = true ∧ victim r tid id (tables id) = some a := by
  have rest : ∀ table, others r (ids.foldl (delRoute r tid) tables table) = others r (tables table) := by
    intro table
    rw [delRun_eq nodup]
    split
    · exact others_delTurn
    · rfl
  rw [and_iff_left rest]
  refine forall₂_congr fun id member => ?_
  rw [delRun_eq nodup, if_pos member]
  exact delTurn_clears

end Deletions

/-! ## The tables in step -/

section Steps

variable (c : IfaceConfig) (devices : SectionDevices) (family : Family) (e : RouteEvent)

/--
The tables have followed the line: a route of the way is in every active table of
the family after an addition, in none after a deletion, and the routes to other
destinations are what they were.
-/
def InStep (tables tables' : RouteTables) : Prop :=
  (∀ id ∈ handledTables c family,
    if e.deleted then ∀ a ∈ (tables' id).routes, e.route.sameWay a = false
    else (tables id).active = true → ∃ a ∈ (tables' id).routes, e.route.sameWay a = true) ∧
  ∀ table, others e.route (tables' table) = others e.route (tables table)

/--
For a deletion every route of the way is found in the listing of its table, and is
what the commands name first. For an addition every active table is served, and
the `grep` selects routes to the destination only if some table refuses the line.
-/
def Follows (tables : RouteTables) : Prop :=
  let r := e.route.trimmed
  let tid := routeLineDev c devices family r
  if e.deleted then
    ∀ id ∈ handledTables c family, ∀ a ∈ (tables id).routes, r.sameWay a = true →
      (tables id).found r = true ∧ victim r tid id (tables id) = some a
  else
    (∀ before id after, handledTables c family = before ++ id :: after → (tables id).active = true →
      Served c r tid tables before id after) ∧
    (SweepRun.Refusal (refusesRoute r tid) (handledTables c family) tables →
      ∀ table, ClearsOwn c r table (tables table))

variable {c devices family e}

theorem sameWay_trimmed (r : Route) : r.trimmed.sameWay = r.sameWay := rfl

theorem others_trimmed (r : Route) : others r.trimmed = others r := rfl

theorem numbered_ids : (numbered c).map Prod.snd = List.range' 1 c.sections.length := List.zipIdx_map_snd 1 c.sections

theorem handledTables_nodup : (handledTables c family).Nodup := by
  refine List.Nodup.sublist (List.filter_sublist.map Prod.snd) ?_
  rw [numbered_ids]
  exact List.nodup_range'

theorem handledTables_inside {id : Nat} (member : id ∈ handledTables c family) :
    1 ≤ id ∧ (id : Int) ≤ interfaceMax c.mask := by
  obtain ⟨s, inside, rfl⟩ := List.mem_map.mp member
  obtain ⟨inside, limit⟩ := List.mem_filter.mp inside
  have numbers : s.2 ∈ List.range' 1 c.sections.length := numbered_ids ▸ List.mem_map_of_mem inside
  exact ⟨(List.mem_range'_1.mp numbers).1, (of_decide_eq_true limit).1⟩

/-- A line of the monitored family that is neither a default route nor link-local comes to the tables. -/
theorem routeHandle_eq {tables : RouteTables} (monitored : c.need family = true) (plain : e.route.ignored = false) :
    routeHandle c devices family e tables =
      if e.deleted then
        (handledTables c family).foldl (delRoute e.route.trimmed (routeLineDev c devices family e.route.trimmed)) tables
      else addRun c e.route.trimmed (routeLineDev c devices family e.route.trimmed) (handledTables c family) tables := by
  have served : ¬(family = .ipv6 ∧ c.noIpv6 = true) := by
    rintro ⟨rfl, none⟩
    simp [IfaceConfig.need, none] at monitored
  unfold routeHandle
  rw [if_neg served, if_neg (by simp [plain])]
  cases e.deleted with
  | true => rfl
  | false =>
      have steps : addRoute c e.route.trimmed (routeLineDev c devices family e.route.trimmed) =
          SweepRun.step (sweepTable c e.route.trimmed)
            (addTurn c e.route.trimmed (routeLineDev c devices family e.route.trimmed))
            (refusesRoute e.route.trimmed (routeLineDev c devices family e.route.trimmed)) := by
        funext tables id
        exact addRoute_eq tables id
      simp only [Bool.false_eq_true, if_false]
      rw [steps]
      rfl

/--
`mwan3_rtmon_route_handle` keeps the tables in step exactly if the tables and the
line are of the kind that `Follows` states.
-/
theorem routeHandle_inStep_iff (c : IfaceConfig) (devices : SectionDevices) (family : Family) (e : RouteEvent)
    (tables : RouteTables) (monitored : c.need family = true) (plain : e.route.ignored = false) :
    InStep c family e tables (routeHandle c devices family e tables) ↔ Follows c devices family e tables := by
  rw [routeHandle_eq monitored plain]
  unfold InStep Follows
  rw [← sameWay_trimmed, ← others_trimmed]
  cases deleted : e.deleted with
  | true => exact delRun_iff handledTables_nodup tables
  | false => exact addRun_iff handledTables_nodup (fun id => handledTables_inside) tables

/-- An addition that no table refuses: where the line is found, there is to be a route of the way. -/
theorem follows_of_calm {tables : RouteTables} (added : e.deleted = false)
    (calm : ¬SweepRun.Refusal (refusesRoute e.route.trimmed (routeLineDev c devices family e.route.trimmed))
      (handledTables c family) tables)
    (known : ∀ id ∈ handledTables c family, (tables id).active = true → (tables id).found e.route.trimmed = true →
      ∃ a ∈ (tables id).routes, e.route.trimmed.sameWay a = true) : Follows c devices family e tables := by
  unfold Follows
  rw [added]
  refine ⟨fun before id after split active => ?_, fun refused => absurd refused calm⟩
  have member : id ∈ handledTables c family := split ▸ List.mem_append_right before List.mem_cons_self
  exact (served_calm (split ▸ calm) active).mpr (known id member active)

end Steps

/-! ### Two uplinks -/

def uplinks : IfaceConfig where
  sections := [⟨"wan", false, .ipv4⟩, ⟨"wanb", true, .any⟩]
  maskText := "0x3F00"
  mask := 0x3F00
  noIpv6 := false
  distinct := by decide
  spelled := readMask_default
  bound := defaultMask_lt

/-- The first section has no `enabled` option. -/
def uplinkDevices : SectionDevices := ⟨fun name => if name = "wan" then some "eth0" else some "eth1", fun _ => false⟩

/-- A unicast route with a gateway. -/
def routeVia (dst via dev : String) : Route := ⟨none, dst, none, some via, some dev, [], none, []⟩

/-- The tables of the uplinks, with one route beside the default route of the first one. -/
def uplinkTables (route : Route) (other : route.dst ≠ "default") : RouteTables
  | 1 => ⟨[routeVia "default" "192.0.2.1" "eth0", route], List.pairwise_pair.mpr fun same => absurd same.symm other⟩
  | 2 => ⟨[routeVia "default" "198.51.100.1" "eth1"], List.pairwise_singleton _ _⟩
  | _ => ⟨[], List.Pairwise.nil⟩

/-- A line that is part of no other one comes into both tables. -/
theorem routeHandle_inStep_uplinks :
    InStep uplinks .ipv4 ⟨false, routeVia "10.0.0.0/24" "192.168.1.1" "br-lan"⟩
      (uplinkTables (routeVia "172.16.0.0/12" "192.168.1.1" "br-lan") (by decide))
      (routeHandle uplinks uplinkDevices .ipv4 ⟨false, routeVia "10.0.0.0/24" "192.168.1.1" "br-lan"⟩
        (uplinkTables (routeVia "172.16.0.0/12" "192.168.1.1" "br-lan") (by decide))) :=
  (routeHandle_inStep_iff _ _ _ _ _ (by decide +kernel) (by decide +kernel)).mpr
    (follows_of_calm rfl (by decide +kernel) (by decide +kernel))

/-- The text of a line is found in that of a route to another destination, and the line is not added. -/
theorem routeHandle_misses_route :
    ¬∀ (c : IfaceConfig) (devices : SectionDevices) (family : Family) (e : RouteEvent) (tables : RouteTables),
      c.need family = true → e.route.ignored = false →
        InStep c family e tables (routeHandle c devices family e tables) := by
  intro inStep
  have step := inStep uplinks uplinkDevices .ipv4 ⟨false, routeVia "10.0.0.0/24" "192.168.1.1" "br-lan"⟩
    (uplinkTables (routeVia "110.0.0.0/24" "192.168.1.1" "br-lan") (by decide)) (by decide +kernel) (by decide +kernel)
  obtain ⟨a, member, way⟩ := step.1 1 (by decide +kernel) (by decide +kernel)
  have none : ∀ a ∈ (routeHandle uplinks uplinkDevices .ipv4 ⟨false, routeVia "10.0.0.0/24" "192.168.1.1" "br-lan"⟩
      (uplinkTables (routeVia "110.0.0.0/24" "192.168.1.1" "br-lan") (by decide)) 1).routes,
      (routeVia "10.0.0.0/24" "192.168.1.1" "br-lan").sameWay a = false := by
    decide +kernel
  rw [none a member] at way
  cases way

end XWrt.Mwan3
