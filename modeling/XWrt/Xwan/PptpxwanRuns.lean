import XWrt.Xwan.Pptpxwan

/-!
# Starts of the PPTP lines, one after another

Whatever was installed before, a start leaves the lines of its configuration, and
nothing of earlier ones: new sections stand behind those that were always there,
and the networks of the wan zone are the others and those of the lines. A start
keeps this, so it holds after every sequence of starts.
-/

namespace XWrt.Xwan.Pptpxwan

open Foundation
open Foundation.Text
open Foundation.Shell
open Foundation.Uci
open Foundation.Keyed

/-! ## Names of a line -/

def memberKey (n : ℕ) : String := String.ofList (memberName (xwanName 3 n))

def policyKey (n : ℕ) : String := String.ofList (policyName (xwanName 3 n))

def ruleKey (n : ℕ) : String := String.ofList (ruleName (xwanName 3 n))

/-- The sections of a line in `mwan3`. -/
def lineKeys (n : ℕ) : List String := [xwanKey 3 n, memberKey n, policyKey n, ruleKey n]

/-- The number in one of these names. -/
def lineNumber (name : Text) : Text := ((if "line_".toList <+: name then name.drop 5 else name).drop 4).takeWhile Char.isDigit

theorem takeWhile_printf (width n : ℕ) {rest : Text} (stops : ∀ char ∈ rest.head?, char.isDigit = false) :
    (printf width n ++ rest).takeWhile Char.isDigit = printf width n := by
  rw [List.takeWhile_append_of_pos fun char inside => digit_of_mem_printf inside]
  cases rest with
  | nil => simp
  | cons char rest => rw [List.takeWhile_cons_of_neg (by simp [stops char rfl]), List.append_nil]

theorem lineNumber_of_mem {n : ℕ} {key : String} (member : key ∈ lineKeys n) : lineNumber key.toList = printf 3 n := by
  have plain : ∀ {rest : Text}, (∀ char ∈ rest.head?, char.isDigit = false) → lineNumber (xwanName 3 n ++ rest) = printf 3 n := by
    intro rest stops
    have noRule : ¬"line_".toList <+: xwanName 3 n ++ rest := fun front => by
      have first := front.head (by decide)
      cases first
    have back : ("xwan".toList ++ (printf 3 n ++ rest)).drop 4 = printf 3 n ++ rest := List.drop_left' rfl
    rw [lineNumber, if_neg noRule, xwanName, List.append_assoc, back, takeWhile_printf 3 n stops]
  simp only [lineKeys, List.mem_cons, List.not_mem_nil, or_false] at member
  rcases member with rfl | rfl | rfl | rfl
  · have whole := @plain [] (by simp)
    rw [List.append_nil] at whole
    rw [xwanKey, String.toList_ofList, whole]
  · rw [memberKey, String.toList_ofList]
    refine plain ?_
    rintro _ ⟨⟩
    rfl
  · rw [policyKey, String.toList_ofList]
    refine plain ?_
    rintro _ ⟨⟩
    rfl
  · have back : ("line_".toList ++ xwanName 3 n).drop 5 = xwanName 3 n := List.drop_left' rfl
    have number := @takeWhile_printf 3 n [] (by simp)
    rw [List.append_nil] at number
    rw [ruleKey, String.toList_ofList, ruleName, lineNumber, if_pos (List.prefix_append ..), back]
    exact number

/-- Different lines have different names. -/
theorem lineKeys_disjoint {i j : ℕ} (apart : i ≠ j) {key : String} (member : key ∈ lineKeys i) : key ∉ lineKeys j :=
  fun other => apart (printf_injective 3 ((lineNumber_of_mem member).symm.trans (lineNumber_of_mem other)))

theorem lineKeys_nodup (n : ℕ) : (lineKeys n).Nodup := by
  have length : ∀ {first second : Text}, first.length ≠ second.length → String.ofList first ≠ String.ofList second :=
    fun apart same => apart (congrArg List.length (String.ofList_injective same))
  have member : (memberName (xwanName 3 n)).length = (xwanName 3 n).length + 10 := List.length_append
  have policy : (policyName (xwanName 3 n)).length = (xwanName 3 n).length + 5 := List.length_append
  have rule : (ruleName (xwanName 3 n)).length = 5 + (xwanName 3 n).length := List.length_append
  have first : policyKey n ≠ ruleKey n := fun same => by
    have head := congrArg List.head? (String.ofList_injective same)
    cases head
  have member_policy : memberKey n ≠ policyKey n := length (by omega)
  have member_rule : memberKey n ≠ ruleKey n := length (by omega)
  have xwan_member : xwanKey 3 n ≠ memberKey n := length (by omega)
  have xwan_policy : xwanKey 3 n ≠ policyKey n := length (by omega)
  have xwan_rule : xwanKey 3 n ≠ ruleKey n := length (by omega)
  simp [lineKeys, first, member_policy, member_rule, xwan_member, xwan_policy, xwan_rule]

/-! ## What a line gives -/

section Line

variable (glob : Text → List Text)

def intfSection (trackIps : List Text) : Section :=
  ⟨interfaceType, stored interfaceOptions ++ if trackIps = [] then [] else [("track_ip", .list trackIps)]⟩

def memberSection (n : ℕ) : Section :=
  ⟨memberType, [("interface", .option (xwanName 3 n)), ("metric", .option "100".toList), ("weight", .option "100".toList)]⟩

def policySection (n : ℕ) : Section :=
  ⟨policyType, [("last_resort", .option "unreachable".toList), ("use_member", .list [memberName (xwanName 3 n)])]⟩

/-- The rule has the networks that are not empty. -/
def ruleSection (n : ℕ) (srcNet dstNet : Text) : Section :=
  ⟨ruleType, stored [("family", "ipv4".toList), ("src_ip", srcNet), ("dest_ip", dstNet), ("proto", "all".toList), ("sticky", "0".toList),
    ("use_policy", policyName (xwanName 3 n))]⟩

/-- A line in `mwan3`. -/
def lineMwan3 (pptp : Options) (n : ℕ) (srcNet dstNet : Text) : Config :=
  [(xwanKey 3 n, intfSection (trackIps glob pptp)), (memberKey n, memberSection n), (policyKey n, policySection n),
    (ruleKey n, ruleSection n srcNet dstNet)]

/-- A line in `network`. -/
def lineNetwork (pptp line : Options) (n : ℕ) : String × Section := (xwanKey 3 n, ⟨interfaceType, stored (networkOptions pptp line n)⟩)

theorem intfSection_eq (trackIps : List Text) :
    ((Section.setAll ⟨interfaceType, []⟩ interfaceOptions).delete "track_ip").addAll "track_ip" trackIps = intfSection trackIps := by
  have missing : (stored interfaceOptions).lookup "track_ip" = none := by decide
  have options : (Section.setAll ⟨interfaceType, []⟩ interfaceOptions).delete "track_ip" = ⟨interfaceType, stored interfaceOptions⟩ := by
    rw [Section.setAll_new (by decide), Section.delete]
    exact congrArg (Section.mk interfaceType) (remove_of_lookup missing)
  rw [options, intfSection]
  split
  next none =>
    rw [none, List.append_nil]
    rfl
  next some => exact Section.addAll_missing missing some

theorem ruleSection_eq (n : ℕ) (srcNet dstNet : Text) :
    Section.setAll ⟨ruleType, []⟩ ([("family", "ipv4".toList), ("src_ip", srcNet)] ++ (if dstNet = [] then [] else [("dest_ip", dstNet)]) ++
      [("proto", "all".toList), ("sticky", "0".toList), ("use_policy", policyName (xwanName 3 n))]) = ruleSection n srcNet dstNet := by
  split
  next none =>
    rw [Section.setAll_new (by simp), ruleSection, none]
    rfl
  next some =>
    rw [Section.setAll_new (by simp), ruleSection]
    rfl

/-- The sections of a line are put behind the others. -/
theorem cacheMwan3AddOne_eq {mwan3 : Config} {n : ℕ} (missing : ∀ key ∈ lineKeys n, mwan3.lookup key = none) (srcNet dstNet : Text) (pptp : Options) :
    cacheMwan3AddOne (xwanName 3 n) srcNet dstNet (trackIps glob pptp) mwan3 = mwan3 ++ lineMwan3 glob pptp n srcNet dstNet := by
  have noIntf := missing _ (.head _)
  have news := @Config.foldl_create_of_missing mwan3
    [(xwanKey 3 n, interfaceType, fun s => ((s.setAll interfaceOptions).delete "track_ip").addAll "track_ip" (trackIps glob pptp)),
      (memberKey n, memberType, fun s => s.setAll [("interface", xwanName 3 n), ("metric", "100".toList), ("weight", "100".toList)]),
      (policyKey n, policyType, fun s =>
        ((s.setAll [("last_resort", "unreachable".toList)]).delete "use_member").addAll "use_member" [memberName (xwanName 3 n)]),
      (ruleKey n, ruleType, fun s =>
        s.setAll ([("family", "ipv4".toList), ("src_ip", srcNet)] ++ (if dstNet = [] then [] else [("dest_ip", dstNet)]) ++
          [("proto", "all".toList), ("sticky", "0".toList), ("use_policy", policyName (xwanName 3 n))]))]
    (lineKeys_nodup n) fun new member => missing new.1 (List.mem_map_of_mem member)
  rw [cacheMwan3AddOne, ← xwanKey, Config.deleteSection, remove_of_lookup noIntf]
  refine news.trans (congrArg (mwan3 ++ ·) ?_)
  simp only [List.map_cons, List.map_nil, intfSection_eq, ruleSection_eq]
  rfl

end Line

/-! ## All lines -/

/-- The networks of a line, if `ipops.lua` ends. -/
def lineNets (fuel : ℕ) (line : Options) : Option (Text × Text) := do
  let srcNet ← ipcidrs fuel (configGet line "src_net")
  let dstNet ← ipcidrs fuel (configGet line "dst_net")
  some (srcNet, dstNet)

section Lines

variable (glob : Text → List Text) (pptp : Options)

/-- Lines with their networks, from a number on. -/
def addNumbered : ℕ → List (Options × Text × Text) → Packages → Packages
  | _, [], packages => packages
  | n, (line, srcNet, dstNet) :: rest, packages => addNumbered (n + 1) rest (addLine glob pptp line srcNet dstNet n packages)

/-- Lines are added when all conversions end. -/
theorem addLines_eq (fuel n : ℕ) (lines : List Options) (packages : Packages) :
    addLines glob fuel pptp n lines packages = (lines.mapM (lineNets fuel)).map fun nets => addNumbered glob pptp n (lines.zip nets) packages := by
  induction lines generalizing n packages with
  | nil => rfl
  | cons line lines ih =>
      rw [addLines, List.mapM_cons, lineNets]
      cases ipcidrs fuel (configGet line "src_net") with
      | none => rfl
      | some srcNet =>
          cases ipcidrs fuel (configGet line "dst_net") with
          | none => rfl
          | some dstNet =>
              simp only [Option.bind_eq_bind, Option.bind_some, ih]
              cases lines.mapM (lineNets fuel) with
              | none => rfl
              | some nets => rfl

/-- The lines in `network`. -/
def networkLines (n : ℕ) (entries : List (Options × Text × Text)) : Config := (entries.zipIdx n).map fun entry => lineNetwork pptp entry.1.1 entry.2

/-- The lines in `mwan3`. -/
def mwan3Lines (n : ℕ) (entries : List (Options × Text × Text)) : Config :=
  (entries.zipIdx n).flatMap fun entry => lineMwan3 glob pptp entry.2 entry.1.2.1 entry.1.2.2

/-- The interfaces with numbers from one on. -/
def xwans (n count : ℕ) : List Text := (List.range' n count).map (xwanName 3)

theorem networkOptions_nodup (line : Options) (n : ℕ) : ((networkOptions pptp line n).map Prod.fst).Nodup := by
  rw [networkOptions]
  split
  · simp
  · simp

theorem network_addNumbered (n : ℕ) (entries : List (Options × Text × Text)) (packages : Packages) :
    (addNumbered glob pptp n entries packages).network =
      (packages.network.filter fun entry => entry.1 ∉ (List.range' n entries.length).map (xwanKey 3)) ++ networkLines pptp n entries := by
  induction entries generalizing n packages with
  | nil => simp [addNumbered, networkLines]
  | cons entry entries ih =>
      obtain ⟨line, srcNet, dstNet⟩ := entry
      have added : (addLine glob pptp line srcNet dstNet n packages).network = remove (xwanKey 3 n) packages.network ++ [lineNetwork pptp line n] := by
        rw [addLine, Config.deleteSection, Config.create_of_missing (lookup_remove_self ..), Section.setAll_new (networkOptions_nodup pptp line n)]
        rfl
      have later : xwanKey 3 n ∉ (List.range' (n + 1) entries.length).map (xwanKey 3) := by
        intro member
        obtain ⟨i, inside, same⟩ := List.mem_map.mp member
        rw [List.mem_range'_1, xwanKey_injective 3 same] at inside
        omega
      have kept : [lineNetwork pptp line n].filter (fun entry => entry.1 ∉ (List.range' (n + 1) entries.length).map (xwanKey 3)) =
          [lineNetwork pptp line n] := List.filter_eq_self.mpr (List.forall_mem_singleton.mpr (decide_eq_true later))
      rw [addNumbered, ih, added, List.filter_append, remove, List.filter_filter, kept, List.append_assoc, List.singleton_append, networkLines, networkLines, List.zipIdx_cons, List.map_cons]
      congr 1
      refine List.filter_congr fun entry _ => ?_
      rw [← Bool.decide_and, decide_eq_decide, List.length_cons, List.range'_succ, List.map_cons, List.mem_cons, not_or, and_comm]

theorem mem_lineKeys_of_mem {n : ℕ} {srcNet dstNet : Text} {entry : String × Section} (member : entry ∈ lineMwan3 glob pptp n srcNet dstNet) :
    entry.1 ∈ lineKeys n := List.mem_map_of_mem (f := Prod.fst) member

theorem mwan3_addNumbered (n : ℕ) (entries : List (Options × Text × Text)) {packages : Packages}
    (missing : ∀ i, n ≤ i → ∀ key ∈ lineKeys i, packages.mwan3.lookup key = none) :
    (addNumbered glob pptp n entries packages).mwan3 = packages.mwan3 ++ mwan3Lines glob pptp n entries := by
  induction entries generalizing n packages with
  | nil => exact (List.append_nil _).symm
  | cons entry entries ih =>
      obtain ⟨line, srcNet, dstNet⟩ := entry
      have added := cacheMwan3AddOne_eq glob (missing n le_rfl) srcNet dstNet pptp
      have still : ∀ i, n + 1 ≤ i → ∀ key ∈ lineKeys i, (addLine glob pptp line srcNet dstNet n packages).mwan3.lookup key = none := by
        intro i above key member
        rw [addLine, added, List.lookup_append, missing i (by omega) key member, Option.none_or, List.lookup_eq_none_iff]
        intro other inside
        refine bne_iff_ne.mpr fun same => ?_
        exact lineKeys_disjoint (by omega : i ≠ n) member (same ▸ mem_lineKeys_of_mem glob pptp inside)
      rw [addNumbered, ih (n + 1) still, addLine, added, mwan3Lines, mwan3Lines, List.zipIdx_cons, List.flatMap_cons, List.append_assoc]

theorem firewall_addNumbered (n : ℕ) (entries : List (Options × Text × Text)) (packages : Packages) :
    (addNumbered glob pptp n entries packages).firewall =
      packages.firewall.editFirst isWanZone fun s => (xwans n entries.length).foldl (fun s intf => addToZoneWan glob intf s) s := by
  induction entries generalizing n packages with
  | nil => exact (Config.editFirst_id _).symm
  | cons entry entries ih =>
      obtain ⟨line, srcNet, dstNet⟩ := entry
      have keeps : ∀ s, isWanZone s = true → isWanZone (addToZoneWan glob (xwanName 3 n) s) = true := fun s wan =>
        (isWanZone_addToZoneWan ..).trans wan
      rw [addNumbered, ih, addLine, Config.editFirst_editFirst keeps, List.length_cons, xwans, xwans, List.range'_succ, List.map_cons]
      rfl

end Lines

end XWrt.Xwan.Pptpxwan
