import XWrt.Foundation.BoundedSet
import XWrt.Foundation.Pieces
import XWrt.Foundation.Uci
import XWrt.Natflow.Ipv6Text

/-!
# Ports and destinations that cone NAT leaves alone

`natcapd.cone_nat_unused.sh`. `init` fills two sets from a list of UCI, from the
leases of miniupnpd, and from the rules and redirects of the firewall; `addrule`
and `delrule` follow the mappings that come and go. The sets do not count who
reserves an entry: a mapping that goes takes its entries with it, whoever else
reserves them. A range of ports is added up to the first one that the set has, so
that a mapping in a range of the firewall cuts the range short in the next `init`.
-/

namespace XWrt.Natcap.ConeNatUnused

open Foundation
open Foundation.Shell
open Foundation.Text
open Foundation.BoundedSet
open Ipops (tonumber Quad)
open Natflow (dottedText)

abbrev Text := List Char

deriving instance DecidableEq for Quad

/-- An entry of a set of type `hash:ip,port`; the protocol is its number. -/
structure Endpoint where
  addr : Quad
  proto : ℕ
  port : ℕ
  deriving DecidableEq

/-- `cone_nat_unused_port` and `cone_nat_unused_dst` -/
@[ext]
structure Sets where
  port : Finset ℕ
  dst : Finset Endpoint
  deriving DecidableEq

/-! ## The script -/

/-- `echo` of the shell, and the entries that `ipset` reads from its arguments, each of them once. -/
structure Tools where
  echo : List Text → Text
  ports : List Text → List ℕ
  dst : List Text → List Endpoint

/-- `natcapd.default`, and the sections of the firewall. -/
structure Config where
  natcapd : Uci.Options
  rules : List Uci.Options
  redirects : List Uci.Options

/-- The lines that `read` without `-r` reads, after the characters of an unfinished one. -/
def readFrom : Text → Text → List Text
  | _, [] => []
  | line, '\\' :: '\n' :: rest => readFrom line rest
  | line, '\\' :: char :: rest => readFrom (line ++ [char]) rest
  | line, '\n' :: rest => line :: readFrom [] rest
  | line, char :: rest => readFrom (line ++ [char]) rest

/-- `maxelem` of `cone_nat_unused_dst` -/
def maxelem : ℕ := 65536

namespace Tools

variable (tools : Tools)

/-- `[ "x$value" = "x" ] || echo $value | grep -q word` -/
def allows (value : Text) (word : String) : Bool := value = [] || word.toList <:+: tools.echo (fields value)

def ruleLine (rule : Uci.Options) : Text :=
  let dp := rule.got "dest_port"
  let fm := rule.got "family"
  let po := rule.got "proto"
  if tools.allows po "udp" && tools.allows fm "ipv4" then tools.echo (fields dp) else []

def redirectLine (redirect : Uci.Options) : Text :=
  let dp := redirect.got "src_dport"
  let po := redirect.got "proto"
  if tools.allows po "udp" then tools.echo (fields dp) else []

/-- `get_fw_cone_unused_ports`; the second loop ends at the first redirect without `src_dport`. -/
def getFwConeUnusedPorts (config : Config) : Text :=
  config.rules.flatMap tools.ruleLine ++
    (config.redirects.takeWhile fun redirect => (redirect.lookup "src_dport").isSome).flatMap tools.redirectLine

/-- `ipset add cone_nat_unused_port`; without `-exist` it fails at an entry that is there, and the rest of a range is not added. -/
def addPort (sets : Sets) (args : List Text) : Sets := { sets with port := insertNew sets.port (tools.ports args) }

/-- `ipset add cone_nat_unused_dst` -/
def addDst (sets : Sets) (args : List Text) : Sets := { sets with dst := addNew maxelem sets.dst (tools.dst args) }

/-- `ipset del cone_nat_unused_port`, which fails at an entry that is not there -/
def delPort (sets : Sets) (args : List Text) : Sets := { sets with port := removeOld sets.port (tools.ports args) }

/-- `ipset del cone_nat_unused_dst` -/
def delDst (sets : Sets) (args : List Text) : Sets := { sets with dst := removeOld sets.dst (tools.dst args) }

end Tools

/-- `valid_port` -/
def validPort (port : Text) : Bool :=
  port ≠ [] && port.all Char.isDigit && 0 < tonumber port && tonumber port ≤ 65535

/-- `valid_addr` -/
def validAddr (addr : Text) : Bool :=
  let octets := addr.splitOn '.'
  octets.length = 4 && octets.all fun octet => octet ≠ [] && octet.all Char.isDigit && tonumber octet ≤ 255

/-- The first field of a lease that counts. -/
def udp : Text := "UDP".toList

/-- What `awk` prints for a line of the lease file: `eport`, `iaddr` and `iport`. -/
def printed (line : Text) : Option (Text × Text × Text) :=
  let field (n : ℕ) := ((line.splitOn ':')[n - 1]?).getD []
  if field 1 = udp then
    let inner := if validAddr (field 3) && validPort (field 4) then (field 3, field 4) else (field 4, field 5)
    if validPort (field 2) && validAddr inner.1 && validPort inner.2 then some (field 2, inner) else none
  else none

/-- `$iaddr,udp:$iport` -/
def dstText (iaddr iport : Text) : Text := iaddr ++ ",udp:".toList ++ iport

section Commands

variable (tools : Tools)

/-- The body of the loop over the leases. -/
def addLease (sets : Sets) (lease : Text × Text × Text) : Sets :=
  let (eport, iaddr, iport) := lease
  tools.addDst (tools.addPort sets (fields eport)) (fields (dstText iaddr iport))

/-- `init_cone_nat_unused`, for the text of the lease file; the sets are destroyed and created first. -/
def initConeNatUnused (config : Config) (leases : Text) : Sets :=
  let sets := (fields (config.natcapd.got "cone_nat_unused_dst")).foldl (fun sets dst => tools.addDst sets [dst]) ⟨∅, ∅⟩
  let sets := (fields (config.natcapd.got "cone_nat_unused_port")).foldl (fun sets port => tools.addPort sets [port]) sets
  let sets := ((leases.splitOn '\n').filterMap printed).foldl (addLease tools) sets
  (readFrom [] (tools.getFwConeUnusedPorts config)).foldl (fun sets eport => tools.addPort sets (fields eport)) sets

def addrule (iaddr iport eport : Text) (sets : Sets) : Sets :=
  if iaddr ≠ [] ∧ iport ≠ [] ∧ eport ≠ [] then addLease tools sets (eport, iaddr, iport) else sets

def delrule (iaddr iport eport : Text) (sets : Sets) : Sets :=
  let sets := if eport ≠ [] then tools.delPort sets (fields eport) else sets
  if iaddr ≠ [] ∧ iport ≠ [] then tools.delDst sets (fields (dstText iaddr iport)) else sets

end Commands

/-! ## Mappings and leases -/

abbrev Port := { port : ℕ // 0 < port ∧ port ≤ 65535 }

structure Mapping where
  iaddr : Quad
  iport : Port
  eport : Port
  deriving DecidableEq

def Port.text (port : Port) : Text := Nat.toDigits 10 port

/-- The entry of a mapping in `cone_nat_unused_dst`; the protocol UDP has the number 17. -/
def Mapping.endpoint (mapping : Mapping) : Endpoint := ⟨mapping.iaddr, 17, mapping.iport⟩

/-- A line of the lease file for a mapping: without a remote host in the format of old versions. -/
structure Lease where
  mapping : Mapping
  rhost : Option { rhost : Text // ':' ∉ rhost ∧ '\n' ∉ rhost }
  timestamp : ℕ
  desc : { desc : Text // '\n' ∉ desc }

/-- `iaddr:iport:timestamp:desc` -/
def Lease.inner (lease : Lease) : Text :=
  dottedText lease.mapping.iaddr ++ ':' :: lease.mapping.iport.text ++ ':' :: Nat.toDigits 10 lease.timestamp ++ ':' :: lease.desc.val

/-- `UDP:eport:` or `UDP:eport:rhost:` in front of it -/
def Lease.line (lease : Lease) : Text :=
  match lease.rhost with
  | none => udp ++ ':' :: lease.mapping.eport.text ++ ':' :: lease.inner
  | some rhost => udp ++ ':' :: lease.mapping.eport.text ++ ':' :: rhost.val ++ ':' :: lease.inner

/-- A line of the lease file; what follows `TCP` is of no interest. -/
inductive Record where
  | udp (lease : Lease)
  | tcp (rest : Text) (line : '\n' ∉ rest)

namespace Record

def line : Record → Text
  | .udp lease => lease.line
  | .tcp rest _ => "TCP".toList ++ ':' :: rest

def mapping? : Record → Option Mapping
  | .udp lease => some lease.mapping
  | .tcp _ _ => none

end Record

def fileText (records : List Record) : Text := records.flatMap fun record => record.line ++ ['\n']

/-- The lease file lists exactly these mappings, in some order and in either format. -/
def Lists (records : List Record) (active : List Mapping) : Prop := (records.filterMap Record.mapping?).Perm active

/-! ## Changes -/

/-- A mapping comes or goes. -/
inductive Change where
  | add (mapping : Mapping)
  | remove (mapping : Mapping)
  deriving DecidableEq

namespace Change

/-- The active mappings after a change. -/
def listed (active : List Mapping) : Change → List Mapping
  | .add mapping => mapping :: active
  | .remove mapping => active.erase mapping

/-- The call of `addrule` or `delrule` for a change. -/
def call (tools : Tools) (sets : Sets) : Change → Sets
  | .add mapping => addrule tools (dottedText mapping.iaddr) mapping.iport.text mapping.eport.text sets
  | .remove mapping => delrule tools (dottedText mapping.iaddr) mapping.iport.text mapping.eport.text sets

end Change

/-- The active mappings and the sets. -/
structure State where
  active : List Mapping
  sets : Sets
  deriving DecidableEq

def State.step (tools : Tools) (state : State) (change : Change) : State :=
  ⟨change.listed state.active, change.call tools state.sets⟩

def State.run (tools : Tools) (state : State) (changes : List Change) : State := changes.foldl (State.step tools) state

/-! ## What the sources reserve -/

section Reserved

variable (tools : Tools) (config : Config) (active : List Mapping)

/-- The ports of the list. -/
def listPorts : Finset ℕ :=
  ((fields (config.natcapd.got "cone_nat_unused_port")).map fun port => tools.ports [port]).foldl insertNew ∅

/-- The ports that the rules and redirects of the firewall name, line by line. -/
def firewallPorts : List (List ℕ) := (readFrom [] (tools.getFwConeUnusedPorts config)).map fun eport => tools.ports (fields eport)

/-- The ports of the list and of the mappings. -/
def heldPorts : Finset ℕ := listPorts tools config ∪ (active.map fun mapping => mapping.eport.val).toFinset

/-- The endpoints of the list, as many as the set has room for. -/
def fixedDst : Finset Endpoint :=
  ((fields (config.natcapd.got "cone_nat_unused_dst")).map fun dst => tools.dst [dst]).foldl (addNew maxelem) ∅

/-- The list fills the set, or there is room for the endpoints of all mappings. -/
def Fits : Prop :=
  maxelem ≤ (fixedDst tools config).card ∨
    (fixedDst tools config ∪ (active.map Mapping.endpoint).toFinset).card ≤ maxelem

/-- What the sources reserve, where it fits: a set that the list fills takes nothing else. -/
def reserved : Sets where
  port := (firewallPorts tools config).foldl insertNew (heldPorts tools config active)
  dst :=
    if (fixedDst tools config).card < maxelem then fixedDst tools config ∪ (active.map Mapping.endpoint).toFinset
    else fixedDst tools config

/-- A mapping that comes fits, and of the ports that a line of the firewall adds none but the last is its external port. -/
structure Joins (mapping : Mapping) : Prop where
  fits : Fits tools config (mapping :: active)
  ranges : ∀ added ∈ takes (heldPorts tools config active) (firewallPorts tools config), mapping.eport.val ∉ added.dropLast

/-- No other source reserves the external port or the endpoint of a mapping. -/
structure Releases (mapping : Mapping) : Prop where
  listPort : mapping.eport.val ∉ listPorts tools config
  otherPort : ∀ other ∈ active.erase mapping, other.eport ≠ mapping.eport
  firewallPort : ∀ added ∈ takes (heldPorts tools config (active.erase mapping)) (firewallPorts tools config), mapping.eport.val ∉ added
  fixedDst : mapping.endpoint ∉ fixedDst tools config
  otherDst : (ConeNatUnused.fixedDst tools config).card < maxelem → ∀ other ∈ active.erase mapping, other.endpoint ≠ mapping.endpoint

/-- Every mapping that comes fits and cuts no range short, and every mapping that goes is the only one to reserve its entries. -/
def Harmless : List Mapping → List Change → Prop
  | _, [] => True
  | active, .add mapping :: changes => Joins tools config active mapping ∧ Harmless (mapping :: active) changes
  | active, .remove mapping :: changes => Releases tools config active mapping ∧ Harmless (active.erase mapping) changes

/-- The sets are what `init` would build, in whatever order the lease file lists the mappings. -/
def Matches (state : State) : Prop :=
  ∀ records, Lists records state.active → state.sets = initConeNatUnused tools config (fileText records)

end Reserved

/-- A port in decimal digits, and an address with a port behind `,udp:`, are read as what they say. -/
structure Tools.Reads (tools : Tools) : Prop where
  port : ∀ port : Port, tools.ports [port.text] = [port.val]
  dst : ∀ mapping : Mapping, tools.dst [dstText (dottedText mapping.iaddr) mapping.iport.text] = [mapping.endpoint]

/-! ## Texts of addresses and ports -/

theorem Port.digits (port : Port) : ∀ char ∈ port.text, char.isDigit = true := Ipops.toDigits_isDigit port

theorem Port.text_ne_nil (port : Port) : port.text ≠ [] := Nat.toDigits_ne_nil

theorem Port.free {char : Char} (other : char.isDigit = false) (port : Port) : char ∉ port.text := fun member =>
  Bool.false_ne_true (other.symm.trans (port.digits char member))

@[simp]
theorem tonumber_text (port : Port) : tonumber port.text = port.val := Ipops.tonumber_toDigits port

@[simp]
theorem validPort_text (port : Port) : validPort port.text = true := by
  simp [validPort, port.text_ne_nil, List.all_eq_true.mpr port.digits, port.property.1, port.property.2]

theorem splitOn_dottedText (addr : Quad) : (dottedText addr).splitOn '.' = addr.numbers.map (Nat.toDigits 10) := by
  rw [Natflow.dottedText_eq]
  refine List.splitOn_intercalate '.' (fun octet member dot => ?_) (List.cons_ne_nil _ _)
  obtain ⟨n, -, rfl⟩ := List.mem_map.mp member
  exact Bool.false_ne_true (Ipops.toDigits_isDigit n '.' dot)

@[simp]
theorem validAddr_dottedText (addr : Quad) : validAddr (dottedText addr) = true := by
  have octet (n : Fin 256) : ((Nat.toDigits 10 n ≠ [] : Bool) && (Nat.toDigits 10 n).all Char.isDigit && tonumber (Nat.toDigits 10 n) ≤ 255) = true := by
    have bound : n.val ≤ 255 := Nat.le_of_lt_succ n.isLt
    simp [Ipops.tonumber_toDigits, List.all_eq_true.mpr (Ipops.toDigits_isDigit n), bound]
  rw [validAddr, splitOn_dottedText, Quad.numbers]
  simp only [List.map_cons, List.map_nil, List.length_cons, List.length_nil, List.all_cons, List.all_nil, octet, Bool.and_true]
  rfl

/-- An address is no port: it has dots. -/
theorem validPort_dottedText (addr : Quad) : validPort (dottedText addr) = false := by
  have dot : '.' ∈ dottedText addr := by
    simp [dottedText, Quad.numbers, Ipops.printedParts]
  have other : (dottedText addr).all Char.isDigit = false := by
    rw [List.all_eq_false]
    exact ⟨'.', dot, by decide⟩
  rw [validPort, other]
  simp

theorem isBlank_eq_false {char : Char} (plain : char.isDigit = true ∨ char ∈ ".,udp:".toList) : isBlank char = false := by
  have blank (other : Char) (same : char = other) (odd : (other.isDigit || ".,udp:".toList.contains other) = false) : False := by
    subst same
    rw [Bool.or_eq_false_iff] at odd
    rcases plain with digit | member
    · exact Bool.false_ne_true (odd.1.symm.trans digit)
    · exact Bool.false_ne_true (odd.2.symm.trans (List.contains_iff_mem.mpr member))
  rw [isBlank, Bool.or_eq_false_iff, Bool.or_eq_false_iff]
  refine ⟨⟨beq_false_of_ne fun same => ?_, beq_false_of_ne fun same => ?_⟩, beq_false_of_ne fun same => ?_⟩
  · exact blank _ same (by decide +kernel)
  · exact blank _ same (by decide +kernel)
  · exact blank _ same (by decide +kernel)

theorem fields_text (port : Port) : fields port.text = [port.text] :=
  fields_word (fun _ member => isBlank_eq_false (.inl (port.digits _ member))) port.text_ne_nil

theorem mem_dottedText {addr : Quad} {char : Char} (member : char ∈ dottedText addr) : char.isDigit = true ∨ char = '.' := by
  rcases Ipops.mem_printedParts member with digit | separator
  · exact .inl digit
  · exact .inr (by simpa using separator)

theorem fields_dstText (addr : Quad) (port : Port) :
    fields (dstText (dottedText addr) port.text) = [dstText (dottedText addr) port.text] := by
  refine fields_word (fun char member => isBlank_eq_false ?_) ?_
  · rw [dstText, List.mem_append, List.mem_append] at member
    rcases member with (addr | separator) | port
    · rcases mem_dottedText addr with digit | dot
      · exact .inl digit
      · exact .inr (by rw [dot]; decide)
    · exact .inr (List.mem_cons_of_mem _ separator)
    · exact .inl (Port.digits _ _ port)
  · rw [dstText, List.append_assoc]
    exact List.append_ne_nil_of_right_ne_nil _ (List.cons_ne_nil _ _)

/-! ## The lease file -/

theorem splitOn_field {field : Text} {separator : Char} (free : separator ∉ field) (rest : Text) :
    (field ++ separator :: rest).splitOn separator = field :: rest.splitOn separator := by
  rw [List.splitOn_eq_splitOnP, List.splitOn_eq_splitOnP]
  exact @List.splitOnP_append_cons_of_forall_mem _ (· == separator) field
    (fun _ member => beq_false_of_ne fun same => free (same ▸ member)) separator (beq_self_eq_true separator) rest

theorem dottedText_line (addr : Quad) : '\n' ∉ dottedText addr := fun member => by
  rcases mem_dottedText member with digit | dot
  · cases digit
  · exact absurd dot (by decide)

theorem splitOn_inner (lease : Lease) :
    ∃ others, lease.inner.splitOn ':' = dottedText lease.mapping.iaddr :: lease.mapping.iport.text :: others := by
  refine ⟨(Nat.toDigits 10 lease.timestamp ++ ':' :: lease.desc.val).splitOn ':', ?_⟩
  simp only [Lease.inner, List.append_assoc, List.cons_append]
  rw [splitOn_field (Natflow.dottedText_free _), splitOn_field (Port.free rfl _)]

/-- What `awk` prints for a lease, in either format. -/
theorem printed_line (lease : Lease) :
    printed lease.line = some (lease.mapping.eport.text, dottedText lease.mapping.iaddr, lease.mapping.iport.text) := by
  obtain ⟨others, split⟩ := splitOn_inner lease
  have first : ':' ∉ udp := by decide
  have second : ':' ∉ lease.mapping.eport.text := Port.free rfl _
  cases remote : lease.rhost with
  | none =>
      have whole : lease.line.splitOn ':' =
          udp :: lease.mapping.eport.text :: dottedText lease.mapping.iaddr :: lease.mapping.iport.text :: others := by
        simp only [Lease.line, remote, List.append_assoc, List.cons_append]
        rw [splitOn_field first, splitOn_field second, split]
      simp [printed, whole]
  | some rhost =>
      have whole : lease.line.splitOn ':' =
          udp :: lease.mapping.eport.text :: rhost.val :: dottedText lease.mapping.iaddr :: lease.mapping.iport.text :: others := by
        simp only [Lease.line, remote, List.append_assoc, List.cons_append]
        rw [splitOn_field first, splitOn_field second, splitOn_field rhost.property.1, split]
      simp [printed, whole, validPort_dottedText]

theorem Lease.line_free (lease : Lease) : '\n' ∉ lease.line := by
  have first : '\n' ∉ udp := by decide
  have ports (port : Port) : '\n' ∉ port.text := Port.free rfl port
  have time : '\n' ∉ Nat.toDigits 10 lease.timestamp := fun member => Bool.false_ne_true (Ipops.toDigits_isDigit _ '\n' member)
  have inner : '\n' ∉ lease.inner := by
    simp [Lease.inner, ports, dottedText_line, time, lease.desc.property]
  cases remote : lease.rhost with
  | none => simp [Lease.line, remote, first, ports, inner]
  | some rhost => simp [Lease.line, remote, first, ports, inner, rhost.property.2]

theorem Record.line_free (record : Record) : '\n' ∉ record.line := by
  cases record with
  | udp lease => exact lease.line_free
  | tcp rest line => simpa [Record.line] using line

/-- The three texts of a mapping. -/
def Mapping.texts (mapping : Mapping) : Text × Text × Text := (mapping.eport.text, dottedText mapping.iaddr, mapping.iport.text)

theorem printed_record (record : Record) : printed record.line = record.mapping?.map Mapping.texts := by
  cases record with
  | udp lease => exact printed_line lease
  | tcp rest line =>
      have first : (Record.tcp rest line).line.splitOn ':' = "TCP".toList :: rest.splitOn ':' := splitOn_field (by decide) rest
      have other : "TCP".toList ≠ ConeNatUnused.udp := by decide
      simp only [printed, first, Nat.sub_self, List.getElem?_cons_zero, Option.getD_some, if_neg other]
      rfl

theorem printed_fileText (records : List Record) :
    ((fileText records).splitOn '\n').filterMap printed = (records.filterMap Record.mapping?).map Mapping.texts := by
  induction records with
  | nil => rfl
  | cons record records ih =>
      have whole : fileText (record :: records) = record.line ++ '\n' :: fileText records := by
        rw [fileText, List.flatMap_cons, List.append_assoc]
        rfl
      rw [whole, splitOn_field record.line_free, List.filterMap_cons, List.filterMap_cons, printed_record, ih]
      cases record.mapping? with
      | none => rfl
      | some mapping => rfl

/-! ## What `init` builds -/

section Build

variable {tools : Tools} (config : Config)

theorem addPort_foldl {α : Type} (args : α → List Text) (list : List α) (sets : Sets) :
    list.foldl (fun sets item => tools.addPort sets (args item)) sets =
      { sets with port := (list.map fun item => tools.ports (args item)).foldl insertNew sets.port } := by
  induction list generalizing sets with
  | nil => rfl
  | cons item list ih => rw [List.foldl_cons, ih, List.map_cons, List.foldl_cons, Tools.addPort]

theorem addDst_foldl {α : Type} (args : α → List Text) (list : List α) (sets : Sets) :
    list.foldl (fun sets item => tools.addDst sets (args item)) sets =
      { sets with dst := (list.map fun item => tools.dst (args item)).foldl (addNew maxelem) sets.dst } := by
  induction list generalizing sets with
  | nil => rfl
  | cons item list ih => rw [List.foldl_cons, ih, List.map_cons, List.foldl_cons, Tools.addDst]

variable (reads : tools.Reads)
include reads

/-- The two entries of a mapping. -/
theorem addLease_texts (sets : Sets) (mapping : Mapping) :
    addLease tools sets mapping.texts =
      ⟨insert mapping.eport.val sets.port, add maxelem sets.dst mapping.endpoint⟩ := by
  rw [addLease, Mapping.texts, fields_text, fields_dstText, Tools.addDst, Tools.addPort, reads.port, reads.dst, insertNew_singleton,
    addNew_singleton]

theorem addLease_foldl (active : List Mapping) (sets : Sets) :
    (active.map Mapping.texts).foldl (addLease tools) sets =
      ⟨sets.port ∪ (active.map fun mapping => mapping.eport.val).toFinset, addAll maxelem sets.dst (active.map Mapping.endpoint)⟩ := by
  induction active generalizing sets with
  | nil => simp [addAll]
  | cons mapping active ih =>
      rw [List.map_cons, List.foldl_cons, addLease_texts reads, ih, List.map_cons, List.map_cons, addAll_cons, List.toFinset_cons,
        Finset.insert_union, Finset.union_insert]

/-- What `init` builds: the lists come before the leases, which come in the order of the file, and the firewall comes last. -/
theorem init_eq (records : List Record) :
    initConeNatUnused tools config (fileText records) =
      ⟨(firewallPorts tools config).foldl insertNew (heldPorts tools config (records.filterMap Record.mapping?)),
        addAll maxelem (fixedDst tools config) ((records.filterMap Record.mapping?).map Mapping.endpoint)⟩ := by
  rw [initConeNatUnused, addDst_foldl (fun dst => [dst]), addPort_foldl (fun port => [port]), printed_fileText, addLease_foldl reads,
    addPort_foldl fields, firewallPorts, heldPorts, listPorts, fixedDst]

end Build

section Order

variable {tools : Tools} {config : Config} {active others : List Mapping}

theorem Fits.perm (same : others.Perm active) (fits : Fits tools config active) : Fits tools config others := by
  rw [Fits, List.toFinset_eq_of_perm _ _ (same.map Mapping.endpoint)]
  exact fits

theorem reserved_perm (same : others.Perm active) : reserved tools config others = reserved tools config active := by
  rw [reserved, reserved, heldPorts, heldPorts, List.toFinset_eq_of_perm _ _ (same.map Mapping.endpoint),
    List.toFinset_eq_of_perm _ _ (same.map _)]

/-- Where everything fits, the order of the leases does not matter. -/
theorem init_eq_reserved (reads : tools.Reads) (fits : Fits tools config active) {records : List Record} (lists : Lists records active) :
    initConeNatUnused tools config (fileText records) = reserved tools config active := by
  have fits := fits.perm lists
  rw [init_eq config reads, ← reserved_perm lists, reserved]
  refine congrArg _ ?_
  split
  next roomy => exact addAll_of_fits (fits.resolve_left (Nat.not_le.mpr roomy))
  next full => exact addAll_of_full (Nat.not_lt.mp full) _

theorem matches_reserved (reads : tools.Reads) (fits : Fits tools config active) : Matches tools config ⟨active, reserved tools config active⟩ :=
  fun _ lists => (init_eq_reserved reads fits lists).symm

end Order

/-! ## One change -/

section Step

variable {tools : Tools} {config : Config} {active : List Mapping} {mapping : Mapping}

theorem addrule_eq (reads : tools.Reads) (sets : Sets) :
    (Change.add mapping).call tools sets = ⟨insert mapping.eport.val sets.port, add maxelem sets.dst mapping.endpoint⟩ := by
  have addr : dottedText mapping.iaddr ≠ [] := by simp [dottedText, Quad.numbers, Ipops.printedParts]
  rw [Change.call, addrule, if_pos ⟨addr, mapping.iport.text_ne_nil, mapping.eport.text_ne_nil⟩]
  exact addLease_texts reads sets mapping

theorem delrule_eq (reads : tools.Reads) (sets : Sets) :
    (Change.remove mapping).call tools sets = ⟨sets.port.erase mapping.eport.val, sets.dst.erase mapping.endpoint⟩ := by
  have addr : dottedText mapping.iaddr ≠ [] := by simp [dottedText, Quad.numbers, Ipops.printedParts]
  rw [Change.call, delrule, if_pos mapping.eport.text_ne_nil, if_pos ⟨addr, mapping.iport.text_ne_nil⟩, fields_text, fields_dstText,
    Tools.delDst, Tools.delPort, reads.port, reads.dst, removeOld_singleton, removeOld_singleton]

/-- The ports with a mapping whose external port cuts no range short. -/
theorem reserved_cons_port
    (ranges : ∀ added ∈ takes (heldPorts tools config active) (firewallPorts tools config), mapping.eport.val ∉ added.dropLast) :
    (reserved tools config (mapping :: active)).port = insert mapping.eport.val (reserved tools config active).port := by
  rw [reserved, reserved, heldPorts, List.map_cons, List.toFinset_cons, Finset.union_insert]
  exact foldl_insertNew_insert ranges

theorem reserved_cons_dst :
    (reserved tools config (mapping :: active)).dst =
      if (fixedDst tools config).card < maxelem then insert mapping.endpoint (reserved tools config active).dst else fixedDst tools config := by
  rw [reserved, reserved, List.map_cons, List.toFinset_cons]
  dsimp only
  split
  next => exact Finset.union_insert ..
  next => rfl

/-- A mapping that comes adds what it reserves. -/
theorem addrule_reserved (reads : tools.Reads) (joins : Joins tools config active mapping) :
    (Change.add mapping).call tools (reserved tools config active) = reserved tools config (mapping :: active) := by
  rw [addrule_eq reads, Sets.ext_iff, reserved_cons_port joins.ranges, reserved_cons_dst]
  refine ⟨rfl, ?_⟩
  dsimp only
  split
  next roomy =>
    refine add_of_fits ?_
    have room := joins.fits.resolve_left (Nat.not_le.mpr roomy)
    rw [List.map_cons, List.toFinset_cons, Finset.union_insert] at room
    rwa [reserved, if_pos roomy]
  next full =>
    rw [reserved, if_neg full]
    exact add_of_full (Nat.not_lt.mp full) _

theorem Fits.erase (fits : Fits tools config active) : Fits tools config (active.erase mapping) := by
  refine fits.imp_right fun room => (Finset.card_le_card ?_).trans room
  refine Finset.union_subset_union_right fun endpoint member => ?_
  rw [List.mem_toFinset, List.mem_map] at member ⊢
  obtain ⟨other, inside, same⟩ := member
  exact ⟨other, List.mem_of_mem_erase inside, same⟩

namespace Releases

theorem port (releases : Releases tools config active mapping) :
    mapping.eport.val ∉ (reserved tools config (active.erase mapping)).port := by
  rw [reserved, foldl_insertNew, heldPorts, Finset.mem_union, Finset.mem_union, List.mem_toFinset, List.mem_toFinset, List.mem_map,
    List.mem_flatten]
  rintro ((listed | ⟨other, still, same⟩) | ⟨added, line, member⟩)
  · exact releases.listPort listed
  · exact releases.otherPort other still (Subtype.ext same)
  · exact releases.firewallPort added line member

theorem dst (releases : Releases tools config active mapping) :
    mapping.endpoint ∉ (reserved tools config (active.erase mapping)).dst := by
  rw [reserved]
  dsimp only
  split
  next roomy =>
    rw [Finset.mem_union, List.mem_toFinset, List.mem_map]
    rintro (listed | ⟨other, still, same⟩)
    · exact releases.fixedDst listed
    · exact releases.otherDst roomy other still same
  next => exact releases.fixedDst

end Releases

/-- A mapping that goes takes away what it reserves, and only that. -/
theorem delrule_reserved (reads : tools.Reads) (releases : Releases tools config active mapping) :
    (Change.remove mapping).call tools (reserved tools config active) = reserved tools config (active.erase mapping) := by
  rw [delrule_eq reads, Sets.ext_iff]
  by_cases listed : mapping ∈ active
  · have ranges : ∀ added ∈ takes (heldPorts tools config (active.erase mapping)) (firewallPorts tools config),
        mapping.eport.val ∉ added.dropLast :=
      fun added line member => releases.firewallPort added line (List.mem_of_mem_dropLast member)
    rw [← reserved_perm (List.perm_cons_erase listed).symm, reserved_cons_port ranges, reserved_cons_dst]
    refine ⟨Finset.erase_insert releases.port, ?_⟩
    dsimp only
    split
    next => exact Finset.erase_insert releases.dst
    next full =>
      rw [reserved, if_neg full]
      exact Finset.erase_eq_of_notMem releases.fixedDst
  · have port := releases.port
    have dst := releases.dst
    rw [List.erase_of_not_mem listed] at port dst ⊢
    exact ⟨Finset.erase_eq_of_notMem port, Finset.erase_eq_of_notMem dst⟩

end Step

/-! ## Runs -/

section Runs

variable {tools : Tools} {config : Config}

/-- What a harmless run reserves, and that it fits. -/
theorem run_reserved (reads : tools.Reads) {active : List Mapping} (fits : Fits tools config active) {changes : List Change}
    (harmless : Harmless tools config active changes) :
    ∃ later, Fits tools config later ∧
      State.run tools ⟨active, reserved tools config active⟩ changes = ⟨later, reserved tools config later⟩ := by
  induction changes generalizing active with
  | nil => exact ⟨active, fits, rfl⟩
  | cons change changes ih =>
      cases change with
      | add mapping =>
          obtain ⟨later, room, run⟩ := ih harmless.1.fits harmless.2
          rw [← addrule_reserved reads harmless.1] at run
          exact ⟨later, room, run⟩
      | remove mapping =>
          obtain ⟨later, room, run⟩ := ih fits.erase harmless.2
          rw [← delrule_reserved reads harmless.1] at run
          exact ⟨later, room, run⟩

theorem Harmless.front {active : List Mapping} {done changes : List Change} (before : done <+: changes)
    (harmless : Harmless tools config active changes) : Harmless tools config active done := by
  induction done generalizing active changes with
  | nil => exact trivial
  | cons change done ih =>
      obtain ⟨rest, rfl⟩ := before
      cases change with
      | add mapping => exact ⟨harmless.1, ih (List.prefix_append done rest) harmless.2⟩
      | remove mapping => exact ⟨harmless.1, ih (List.prefix_append done rest) harmless.2⟩

/-- After `init`, the sets equal a rebuild in every state of a run if the leases fit, every mapping that comes fits and cuts no
range of the firewall short, and every mapping that goes is the only source to reserve its port and its endpoint. -/
theorem reservations_match (reads : tools.Reads) (records : List Record) (changes : List Change)
    (fits : Fits tools config (records.filterMap Record.mapping?))
    (harmless : Harmless tools config (records.filterMap Record.mapping?) changes) :
    ∀ done, done <+: changes → Matches tools config
      (State.run tools ⟨records.filterMap Record.mapping?, initConeNatUnused tools config (fileText records)⟩ done) := by
  intro done before
  rw [init_eq_reserved reads fits (List.Perm.refl _)]
  obtain ⟨later, room, run⟩ := run_reserved reads fits (harmless.front before)
  rw [run]
  exact matches_reserved reads room

end Runs

/-! ## A household -/

/-- How `ipset` reads an address with a port behind `,udp:`. -/
def readEndpoint (entry : Text) : List Endpoint :=
  match entry.splitOn ',' with
  | [addr, service] =>
    match service.splitOn ':', (addr.splitOn '.').map tonumber with
    | [proto, port], [a, b, c, d] =>
      if proto = "udp".toList && validAddr addr && validPort port then
        [⟨⟨Fin.ofNat 256 a, Fin.ofNat 256 b, Fin.ofNat 256 c, Fin.ofNat 256 d⟩, 17, tonumber port⟩]
      else []
    | _, _ => []
  | _ => []

/-- How `ipset` reads a port or a range of ports. -/
def readPorts (entry : Text) : List ℕ :=
  match entry.splitOn '-' with
  | [port] => if validPort port then [tonumber port] else []
  | [low, high] => if validPort low && validPort high then List.range' (tonumber low) (tonumber high + 1 - tonumber low) else []
  | _ => []

/-- `echo` without options, and `ipset` for ports, ranges of ports and single endpoints. -/
def plainTools : Tools where
  echo args := [' '].intercalate args ++ ['\n']
  ports
    | [entry] => readPorts entry
    | _ => []
  dst
    | [entry] => readEndpoint entry
    | _ => []

theorem plainTools_reads : plainTools.Reads where
  port port := by
    have single : port.text.splitOn '-' = [port.text] := List.splitOn_eq_singleton (Port.free rfl _)
    simp [plainTools, readPorts, single]
  dst mapping := by
    have comma : ',' ∉ dottedText mapping.iaddr := fun member => by
      rcases mem_dottedText member with digit | dot
      · cases digit
      · exact absurd dot (by decide)
    have entry : (dstText (dottedText mapping.iaddr) mapping.iport.text).splitOn ',' =
        [dottedText mapping.iaddr, "udp".toList ++ ':' :: mapping.iport.text] := by
      have whole : dstText (dottedText mapping.iaddr) mapping.iport.text =
          dottedText mapping.iaddr ++ ',' :: ("udp".toList ++ ':' :: mapping.iport.text) := by
        rw [dstText, List.append_assoc]
        rfl
      rw [whole, splitOn_field comma, List.splitOn_eq_singleton]
      simp [Port.free]
    have service : ("udp".toList ++ ':' :: mapping.iport.text).splitOn ':' = ["udp".toList, mapping.iport.text] := by
      rw [splitOn_field (by decide), List.splitOn_eq_singleton (Port.free rfl _)]
    have octets : ((dottedText mapping.iaddr).splitOn '.').map tonumber = mapping.iaddr.numbers := by
      rw [splitOn_dottedText, List.map_map]
      exact List.map_id'' Ipops.tonumber_toDigits _
    simp only [plainTools, readEndpoint, entry, service, octets, Quad.numbers]
    simp [Mapping.endpoint]

/-- A lease file in the format of old versions. -/
def legacyRecords (active : List Mapping) : List Record :=
  active.map fun mapping => .udp ⟨mapping, none, 0, ⟨[], List.not_mem_nil⟩⟩

/-- The ports `53 500`, a rule for the UDP port 123, and a redirect of the UDP ports from 5000 to 5010. -/
def home : Config where
  natcapd := [("cone_nat_unused_port", .option "53 500".toList)]
  rules := [[("dest_port", .option "123".toList), ("proto", .option "udp".toList)]]
  redirects := [[("src_dport", .option "5000-5010".toList), ("proto", .option "udp".toList)]]

/-- A mapping of 192.168.1.2, with its port and the external port. -/
def desktop (iport eport : Port) : Mapping := ⟨⟨192, 168, 1, 2⟩, iport, eport⟩

/-- Two external ports for one endpoint. -/
def first : Mapping := desktop ⟨5060, by decide⟩ ⟨6000, by decide⟩

def second : Mapping := desktop ⟨5060, by decide⟩ ⟨7000, by decide⟩

/-- The endpoint of the second mapping is gone with the first. -/
theorem shared_endpoint_released :
    (State.run plainTools ⟨[], initConeNatUnused plainTools home []⟩ [.add first, .add second, .remove first]).active = [second] ∧
      (State.run plainTools ⟨[], initConeNatUnused plainTools home []⟩ [.add first, .add second, .remove first]).sets ≠
        initConeNatUnused plainTools home (fileText (legacyRecords [second])) := by
  refine ⟨by decide +kernel, fun same => ?_⟩
  exact absurd (congrArg Sets.dst same) (by decide +kernel)

-- The range of the redirect ends at a mapping in it when the sets are built again.
example :
    (State.run plainTools ⟨[], initConeNatUnused plainTools home []⟩ [.add (desktop ⟨5060, by decide⟩ ⟨5005, by decide⟩)]).sets.port ≠
      (initConeNatUnused plainTools home (fileText (legacyRecords [desktop ⟨5060, by decide⟩ ⟨5005, by decide⟩]))).port := by
  decide +kernel

/-- The state of the boot with one mapping in the file. -/
def homeStart : State :=
  ⟨(legacyRecords [first]).filterMap Record.mapping?, initConeNatUnused plainTools home (fileText (legacyRecords [first]))⟩

/-- One mapping comes at the end of the range, one outside of it, and the first goes. -/
def homeChanges : List Change :=
  [.add (desktop ⟨5061, by decide⟩ ⟨5010, by decide⟩), .add (desktop ⟨5062, by decide⟩ ⟨7000, by decide⟩), .remove first]

theorem reservations_match_at_home :
    Matches plainTools home (State.run plainTools homeStart (homeChanges.take 1)) ∧
      Matches plainTools home (State.run plainTools homeStart (homeChanges.take 2)) ∧
      Matches plainTools home (State.run plainTools homeStart homeChanges) := by
  have kept : ∀ done, done <+: homeChanges → Matches plainTools home (State.run plainTools homeStart done) :=
    reservations_match plainTools_reads (legacyRecords [first]) homeChanges (.inr (by decide +kernel))
      ⟨⟨.inr (by decide +kernel), by decide +kernel⟩, ⟨.inr (by decide +kernel), by decide +kernel⟩,
        ⟨by decide +kernel, by decide +kernel, by decide +kernel, by decide +kernel, fun _ => by decide +kernel⟩, trivial⟩
  exact ⟨kept _ (List.take_prefix 1 homeChanges), kept _ (List.take_prefix 2 homeChanges), kept _ List.prefix_rfl⟩

end XWrt.Natcap.ConeNatUnused
