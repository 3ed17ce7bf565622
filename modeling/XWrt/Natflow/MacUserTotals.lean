import Mathlib.Algebra.BigOperators.Group.List.Basic
import XWrt.Natflow.MacUsers

/-!
# What the users by MAC keep of the lines

An entry holds the sums, the addresses and the least idle time of the lines of
its MAC, and the interface of the least idle line that it follows. Which of two
lines with the least idle time that is, which of several host names it takes, and
which interface where that line names none, depends on the order of the lines;
nothing else does.
-/

namespace XWrt.Natflow.MacUsers

open XWrt.Foundation
open XWrt.Foundation.Grouping

variable {Number : Type} {env : Surroundings Number} {lines : List (UserLine Number)} {line : UserLine Number} {entry : Entry Number}

/-! ## The merge rules -/

/-- The addresses of one family. -/
def Collected (lines : List (UserLine Number)) (isIpv6 : Bool) (ips : List (List Char)) : Prop :=
  ips.Nodup ∧ ∀ ip, ip ∈ ips ↔ ∃ line ∈ lines, line.isIpv6 = isIpv6 ∧ line.ip = ip

def LeastIdle (lines : List (UserLine Number)) (line : UserLine Number) : Prop :=
  line ∈ lines ∧ ∀ other ∈ lines, line.idleTime ≤ other.idleTime

def Blocked [OfNat Number 6] (lines : List (UserLine Number)) : Prop := ∃ line ∈ lines, line.authStatus = 6

/-- One of the texts, and not the empty one unless all are empty. -/
def Picked (texts : List (List Char)) (text : List Char) : Prop := text ∈ texts ∧ (text = [] → ∀ other ∈ texts, other = [])

theorem Collected.insert {isIpv6 : Bool} {ips : List (List Char)} (before : Collected lines isIpv6 ips)
    (same : line.isIpv6 = isIpv6) : Collected (lines ++ [line]) isIpv6 (insertIp ips line.ip) := by
  have members : ∀ ip, ip ∈ insertIp ips line.ip ↔ ip ∈ ips ∨ ip = line.ip := by
    intro ip
    rw [insertIp]
    split
    next old => exact ⟨.inl, fun either => either.elim id fun new => new ▸ old⟩
    next => rw [List.mem_append, List.mem_singleton]
  refine ⟨?_, fun ip => ?_⟩
  · rw [insertIp]
    split
    next => exact before.1
    next new =>
      refine List.nodup_append.mpr ⟨before.1, List.nodup_singleton _, fun old inside one single differ => ?_⟩
      rw [List.mem_singleton] at single
      exact new (single ▸ differ ▸ inside)
  · simp only [members, before.2, List.mem_append, List.mem_singleton, or_and_right, exists_or, exists_eq_left, same, true_and,
      @eq_comm _ ip]

theorem Collected.skip {isIpv6 : Bool} {ips : List (List Char)} (before : Collected lines isIpv6 ips)
    (other : line.isIpv6 ≠ isIpv6) : Collected (lines ++ [line]) isIpv6 ips := by
  refine ⟨before.1, fun ip => ?_⟩
  simp only [before.2, List.mem_append, List.mem_singleton, or_and_right, exists_or, exists_eq_left, other, false_and, or_false]

theorem LeastIdle.keep {least : UserLine Number} (before : LeastIdle lines least) (later : least.idleTime ≤ line.idleTime) :
    LeastIdle (lines ++ [line]) least := by
  refine ⟨List.mem_append_left _ before.1, fun other member => ?_⟩
  rcases List.mem_append.mp member with old | new
  · exact before.2 other old
  · exact List.mem_singleton.mp new ▸ later

theorem LeastIdle.replace {least : UserLine Number} (before : LeastIdle lines least) (earlier : line.idleTime < least.idleTime) :
    LeastIdle (lines ++ [line]) line := by
  refine ⟨List.mem_append_right _ (.head _), fun other member => ?_⟩
  rcases List.mem_append.mp member with old | new
  · exact earlier.le.trans (before.2 other old)
  · exact (List.mem_singleton.mp new ▸ le_rfl)

theorem Collected.perm_of {isIpv6 : Bool} {ips others : List (List Char)} (left : Collected lines isIpv6 ips)
    (right : Collected lines isIpv6 others) : ips.Perm others :=
  (List.perm_ext_iff_of_nodup left.1 right.1).mpr fun ip => (left.2 ip).trans (right.2 ip).symm

theorem LeastIdle.idleTime_eq {a b : UserLine Number} (left : LeastIdle lines a) (right : LeastIdle lines b) :
    a.idleTime = b.idleTime := le_antisymm (left.2 b right.1) (right.2 a left.1)

/-- A text that is left empty takes the next one. -/
theorem Picked.fill {texts : List (List Char)} {text next : List Char} (before : Picked texts text) (empty : text = []) :
    Picked (texts ++ [next]) next := by
  refine ⟨List.mem_append_right _ (.head _), fun none other member => ?_⟩
  rcases List.mem_append.mp member with old | new
  · exact before.2 empty other old
  · exact (List.mem_singleton.mp new).trans none

theorem Picked.keep {texts : List (List Char)} {text next : List Char} (before : Picked texts text) (some : text ≠ [] ∨ next = []) :
    Picked (texts ++ [next]) text := by
  refine ⟨List.mem_append_left _ before.1, fun empty other member => ?_⟩
  rcases List.mem_append.mp member with old | new
  · exact before.2 empty other old
  · exact (List.mem_singleton.mp new).trans (some.resolve_left (not_not.mpr empty))

theorem Picked.take {texts : List (List Char)} {next : List Char} (some : next ≠ []) : Picked (texts ++ [next]) next :=
  ⟨List.mem_append_right _ (.head _), fun empty => absurd empty some⟩

/-! ## One line -/

theorem takeHostname_eq (hostname : List Char) :
    entry.takeHostname hostname = { entry with hostname := if entry.hostname = [] then hostname else entry.hostname } := by
  rw [Entry.takeHostname]
  split
  next empty =>
    split
    next => rfl
    next none => rw [not_not.mp none, ← empty]
  next => rfl

theorem takeIdle_eq : entry.takeIdle line =
    { entry with
      idleTime := if line.idleTime < entry.idleTime then line.idleTime else entry.idleTime
      authType := if line.idleTime < entry.idleTime then line.authType else entry.authType
      status := if line.idleTime < entry.idleTime then line.authStatus else entry.status
      ruleId := if line.idleTime < entry.idleTime then line.ruleId else entry.ruleId
      ifname := if line.ifname ≠ [] ∧ (line.idleTime < entry.idleTime ∨ entry.ifname = []) then line.ifname else entry.ifname } := by
  rw [Entry.takeIdle]
  by_cases earlier : line.idleTime < entry.idleTime
  · simp only [earlier, if_true, true_or, and_true]
  · simp only [earlier, if_false, false_or, @and_comm (line.ifname ≠ [])]
    split <;> rfl

variable [OfNat Number 6]

/-- What an entry holds of the lines merged into it. -/
structure Merged (env : Surroundings Number) (lines : List (UserLine Number)) (entry : Entry Number) : Prop where
  mac : ∃ line ∈ lines, entry.mac = line.mac
  counters : ∀ c, (lines.map (·.count c)).sum < 2 ^ 53 → entry.counters c = (lines.map (·.count c)).sum
  ip : Collected lines false entry.ip
  ip6 : Collected lines true entry.ip6
  idle : ∃ line, LeastIdle lines line ∧ entry.idleTime = line.idleTime ∧ entry.authType = line.authType ∧
    entry.ruleId = line.ruleId ∧ entry.status = line.authStatus ∧ (line.ifname ≠ [] → entry.ifname = line.ifname)
  hasBlocked : entry.hasBlocked = true ↔ Blocked lines
  hostname : Picked (lines.map (hostHint env)) entry.hostname
  ifname : Picked (lines.map UserLine.ifname) entry.ifname

section Steps

variable [DecidableEq Number]

/-- The step of the loop on an entry. -/
theorem merge_addAddress : (entry.merge env line).addAddress line =
    { mac := entry.mac
      ip := if line.isIpv6 then entry.ip else insertIp entry.ip line.ip
      ip6 := if line.isIpv6 then insertIp entry.ip6 line.ip else entry.ip6
      hostname := if entry.hostname = [] then hostHint env line else entry.hostname
      authType := if line.idleTime < entry.idleTime then line.authType else entry.authType
      status := if line.idleTime < entry.idleTime then line.authStatus else entry.status
      hasBlocked := if line.authStatus = 6 then true else entry.hasBlocked
      ruleId := if line.idleTime < entry.idleTime then line.ruleId else entry.ruleId
      idleTime := if line.idleTime < entry.idleTime then line.idleTime else entry.idleTime
      counters := fun c => (entry.counters c).add (line.counter c)
      ifname := if line.ifname ≠ [] ∧ (line.idleTime < entry.idleTime ∨ entry.ifname = []) then line.ifname else entry.ifname } := by
  rw [Entry.merge, takeHostname_eq, takeIdle_eq, Entry.addAddress]
  split <;> rfl

theorem newEntry_addAddress : (newEntry env line).addAddress line =
    { newEntry env line with
      ip := if line.isIpv6 then [] else [line.ip]
      ip6 := if line.isIpv6 then [line.ip] else [] } := by
  rw [Entry.addAddress]
  split <;> rfl

theorem Merged.start (env : Surroundings Number) (line : UserLine Number) :
    Merged env [line] ((newEntry env line).addAddress line) := by
  have collected : ∀ isIpv6, Collected [line] isIpv6 (if line.isIpv6 = isIpv6 then [line.ip] else []) := by
    intro isIpv6
    have none : Collected ([] : List (UserLine Number)) isIpv6 [] := ⟨List.nodup_nil, fun ip => by simp⟩
    split
    next same => exact none.insert same
    next other => exact none.skip other
  rw [newEntry_addAddress]
  exact
    { mac := ⟨line, .head _, rfl⟩
      counters := fun c small => by
        rw [List.map_singleton, List.sum_singleton] at small ⊢
        exact Double.ofNat_exact small
      ip := by
        convert collected false using 1
        cases line.isIpv6 <;> rfl
      ip6 := collected true
      idle := ⟨line, ⟨.head _, fun other member => List.mem_singleton.mp member ▸ le_rfl⟩, rfl, rfl, rfl, rfl, fun _ => rfl⟩
      hasBlocked := by simp [newEntry, Blocked]
      hostname := ⟨.head _, fun empty other member => (List.mem_singleton.mp member).trans empty⟩
      ifname := ⟨.head _, fun empty other member => (List.mem_singleton.mp member).trans empty⟩ }

theorem Merged.step (before : Merged env lines entry) (line : UserLine Number) :
    Merged env (lines ++ [line]) ((entry.merge env line).addAddress line) := by
  rw [merge_addAddress]
  exact
    { mac := by
        obtain ⟨first, member, same⟩ := before.mac
        exact ⟨first, List.mem_append_left _ member, same⟩
      counters := fun c small => by
        rw [List.map_append, List.sum_append, List.map_singleton, List.sum_singleton] at small ⊢
        dsimp only
        rw [before.counters c (by omega), UserLine.counter, Double.ofNat_exact (by omega)]
        exact Double.add_exact small
      ip := by
        dsimp only
        split
        next six => exact before.ip.skip (by rw [six]; decide)
        next four => exact before.ip.insert (Bool.eq_false_of_not_eq_true four)
      ip6 := by
        dsimp only
        split
        next six => exact before.ip6.insert six
        next four => exact before.ip6.skip four
      idle := by
        obtain ⟨least, always, idle, authType, ruleId, status, ifname⟩ := before.idle
        by_cases earlier : line.idleTime < entry.idleTime
        · simp only [if_pos earlier]
          exact ⟨line, always.replace (idle ▸ earlier), rfl, rfl, rfl, rfl, fun named => if_pos ⟨named, .inl earlier⟩⟩
        · simp only [if_neg earlier]
          refine ⟨least, always.keep (idle ▸ not_lt.mp earlier), idle, authType, ruleId, status, fun named => ?_⟩
          -- The entry shows the interface of that line already, and keeps it.
          have kept : ¬(line.ifname ≠ [] ∧ (line.idleTime < entry.idleTime ∨ entry.ifname = [])) := fun other =>
            named ((ifname named).symm.trans (other.2.resolve_left earlier))
          rw [if_neg kept, ifname named]
      hasBlocked := by
        have blocked : Blocked (lines ++ [line]) ↔ Blocked lines ∨ line.authStatus = 6 := by
          simp only [Blocked, List.mem_append, List.mem_singleton, or_and_right, exists_or, exists_eq_left]
        rw [blocked, ← before.hasBlocked]
        dsimp only
        split
        next six => exact ⟨fun _ => .inr six, fun _ => rfl⟩
        next other => exact ⟨.inl, fun either => either.resolve_right other⟩
      hostname := by
        rw [List.map_append, List.map_singleton]
        dsimp only
        split
        next empty => exact before.hostname.fill empty
        next some => exact before.hostname.keep (.inl some)
      ifname := by
        rw [List.map_append, List.map_singleton]
        dsimp only
        split
        next new => exact Picked.take new.1
        next old =>
          refine before.ifname.keep ?_
          by_contra both
          rw [not_or, not_not] at both
          exact old ⟨both.2, .inr both.1⟩ }

theorem merged_of_mem {k : List Char} (member : (k, entry) ∈ usersMap env lines) : Merged env (ofKey UserLine.mac lines k) entry :=
  groups_induction (Merged.start env) (fun _ _ line before => before.step line) member

theorem mac_of_mem {k : List Char} (member : (k, entry) ∈ usersMap env lines) : entry.mac = k := by
  obtain ⟨line, inside, same⟩ := (merged_of_mem member).mac
  exact same.trans (mem_ofKey.mp inside).2

end Steps

/-! ## What is returned -/

/-- What a returned entry tells of the lines of its MAC. It follows one with the least idle time, also in the interface
where that one names any. -/
structure Conserves (env : Surroundings Number) (lines : List (UserLine Number)) (user : MacUser Number) : Prop where
  counters : ∀ c, user.counters c = (lines.map (·.count c)).sum
  ip : Collected lines false user.ip
  ip6 : Collected lines true user.ip6
  idle : ∃ line, LeastIdle lines line ∧ user.idleTime = line.idleTime ∧ user.authType = line.authType ∧
    user.ruleId = line.ruleId ∧ (¬Blocked lines → user.status = line.authStatus) ∧
    ∃ ifname, Picked (lines.map UserLine.ifname) ifname ∧ (line.ifname ≠ [] → ifname = line.ifname) ∧
      user.toLocation = locate env user.mac ifname
  blocked : Blocked lines → user.status = 6
  hostname : Picked (lines.map (hostHint env)) user.hostname

theorem Merged.finish (merged : Merged env lines entry) (small : ∀ c, (lines.map (·.count c)).sum < 2 ^ 53) :
    Conserves env lines (finish env entry) where
  counters := fun c => merged.counters c (small c)
  ip := merged.ip
  ip6 := merged.ip6
  idle := by
    obtain ⟨line, always, idle, authType, ruleId, status, ifname⟩ := merged.idle
    refine ⟨line, always, idle, authType, ruleId, fun free => ?_, entry.ifname, merged.ifname, ifname, rfl⟩
    exact (if_neg (mt merged.hasBlocked.mp free)).trans status
  blocked := fun blocked => if_pos (merged.hasBlocked.mpr blocked)
  hostname := merged.hostname

/-- Texts that leave no choice. -/
def Agree (texts : List (List Char)) : Prop := ∀ a ∈ texts, ∀ b ∈ texts, a ≠ [] → b ≠ [] → a = b

/-- Two entries for the same lines: what can differ is the order of the addresses, what is taken from one of the lines
with the least idle time, the host name where the lines have several, and the interface where they have several and
some line with the least idle time names none. -/
structure SameData (env : Surroundings Number) (lines : List (UserLine Number)) (user other : MacUser Number) : Prop where
  ip : other.ip.Perm user.ip
  ip6 : other.ip6.Perm user.ip6
  idleTime : other.idleTime = user.idleTime
  counters : other.counters = user.counters
  blocked : Blocked lines → other.status = user.status
  companions : (∀ a b, LeastIdle lines a → LeastIdle lines b →
      a.authType = b.authType ∧ a.ruleId = b.ruleId ∧ a.authStatus = b.authStatus) →
    other.authType = user.authType ∧ other.ruleId = user.ruleId ∧ other.status = user.status
  hostname : Agree (lines.map (hostHint env)) → other.hostname = user.hostname
  location : Agree (lines.map UserLine.ifname) ∨
      (∀ a b, LeastIdle lines a → LeastIdle lines b → a.ifname ≠ [] ∧ a.ifname = b.ifname) →
    other.toLocation = user.toLocation

theorem Picked.unique {texts : List (List Char)} {a b : List Char} (agree : Agree texts) (left : Picked texts a)
    (right : Picked texts b) : a = b := by
  rcases eq_or_ne a [] with empty | someA
  · exact empty.trans (left.2 empty b right.1).symm
  · rcases eq_or_ne b [] with empty | someB
    · exact absurd (right.2 empty a left.1) someA
    · exact agree a left.1 b right.1 someA someB

theorem Conserves.same {user other : MacUser Number} (first : Conserves env lines user) (second : Conserves env lines other)
    (mac : other.mac = user.mac) : SameData env lines user other := by
  obtain ⟨a, leastA, idleA, authTypeA, ruleIdA, statusA, nameA, pickedA, namedA, placeA⟩ := first.idle
  obtain ⟨b, leastB, idleB, authTypeB, ruleIdB, statusB, nameB, pickedB, namedB, placeB⟩ := second.idle
  have status : Blocked lines → other.status = user.status := fun blocked =>
    (second.blocked blocked).trans (first.blocked blocked).symm
  exact
    { ip := second.ip.perm_of first.ip
      ip6 := second.ip6.perm_of first.ip6
      idleTime := by rw [idleA, idleB, leastB.idleTime_eq leastA]
      counters := funext fun c => (second.counters c).trans (first.counters c).symm
      blocked := status
      companions := fun only => by
        obtain ⟨authType, ruleId, authStatus⟩ := only b a leastB leastA
        refine ⟨by rw [authTypeA, authTypeB, authType], by rw [ruleIdA, ruleIdB, ruleId], ?_⟩
        by_cases blocked : Blocked lines
        · exact status blocked
        · rw [statusA blocked, statusB blocked, authStatus]
      hostname := fun agree => second.hostname.unique agree first.hostname
      location := fun known => by
        have same : nameB = nameA := by
          rcases known with agree | least
          · exact pickedB.unique agree pickedA
          · obtain ⟨some, equal⟩ := least b a leastB leastA
            rw [namedB some, namedA (equal ▸ some), equal]
        rw [placeA, placeB, mac, same] }

/-! ## Other orders of the lines -/

theorem Conserves.perm {others : List (UserLine Number)} {user : MacUser Number} (perm : lines.Perm others)
    (conserves : Conserves env lines user) : Conserves env others user := by
  have members : ∀ line, line ∈ lines ↔ line ∈ others := fun line => perm.mem_iff
  have texts : ∀ (read : UserLine Number → List Char) text, Picked (lines.map read) text → Picked (others.map read) text :=
    fun read text picked => ⟨(perm.map read).mem_iff.mp picked.1,
      fun empty other member => picked.2 empty other ((perm.map read).mem_iff.mpr member)⟩
  have blocked : Blocked lines ↔ Blocked others := by simp only [Blocked, members]
  obtain ⟨line, least, idle, authType, ruleId, status, ifname, picked, place⟩ := conserves.idle
  simp only [LeastIdle, members] at least
  exact
    { counters := fun c => by rw [conserves.counters c, (perm.map _).sum_eq]
      ip := ⟨conserves.ip.1, by simpa only [members] using conserves.ip.2⟩
      ip6 := ⟨conserves.ip6.1, by simpa only [members] using conserves.ip6.2⟩
      idle := ⟨line, least, idle, authType, ruleId, by rwa [← blocked], ifname, texts _ _ picked, place⟩
      blocked := fun six => conserves.blocked (blocked.mpr six)
      hostname := texts _ _ conserves.hostname }

/-- The accepted lines of a MAC. -/
def linesOf [DecidableEq Number] [OfNat Number 0] (env : Surroundings Number) (lines : List (List Char)) (mac : List Char) :
    List (UserLine Number) :=
  ofKey UserLine.mac (lines.filterMap (acceptLine env)) mac

section Outcome

variable [DecidableEq Number] [OfNat Number 0] {texts : List (List Char)}

theorem exists_entry {user : MacUser Number} (member : user ∈ getMacUsers env texts) :
    ∃ entry, (user.mac, entry) ∈ usersMap env (texts.filterMap (acceptLine env)) ∧ user = finish env entry := by
  obtain ⟨⟨k, entry⟩, inside, rfl⟩ := List.mem_map.mp member
  have mac : (finish env entry).mac = k := mac_of_mem inside
  exact ⟨entry, mac ▸ inside, rfl⟩

/-- There is one entry for each group. -/
theorem macs_eq : (getMacUsers env texts).map MacUser.mac = (usersMap env (texts.filterMap (acceptLine env))).map Prod.fst := by
  rw [getMacUsers, List.map_map]
  exact List.map_congr_left fun group member => mac_of_mem member

theorem mem_macs {mac : List Char} :
    mac ∈ (getMacUsers env texts).map MacUser.mac ↔ ∃ line ∈ texts.filterMap (acceptLine env), line.mac = mac := by
  rw [macs_eq]
  exact mem_keys

theorem conserves_of_mem {user : MacUser Number} (member : user ∈ getMacUsers env texts)
    (small : ∀ c, ((linesOf env texts user.mac).map (·.count c)).sum < 2 ^ 53) :
    Conserves env (linesOf env texts user.mac) user := by
  obtain ⟨entry, inside, rfl⟩ := exists_entry member
  exact (merged_of_mem inside).finish small

/-- The users by MAC hold what the lines say, and other orders of the lines change no more than `SameData` allows. -/
theorem getMacUsers_conserves (env : Surroundings Number) (texts : List (List Char))
    (small : ∀ line ∈ texts.filterMap (acceptLine env), ∀ c, ((linesOf env texts line.mac).map (·.count c)).sum < 2 ^ 53) :
    ((getMacUsers env texts).map MacUser.mac).Nodup ∧
      (∀ mac, mac ∈ (getMacUsers env texts).map MacUser.mac ↔ ∃ line ∈ texts.filterMap (acceptLine env), line.mac = mac) ∧
      (∀ user ∈ getMacUsers env texts, Conserves env (linesOf env texts user.mac) user) ∧
      ∀ others : List (List Char), others.Perm texts →
        ((getMacUsers env others).map MacUser.mac).Perm ((getMacUsers env texts).map MacUser.mac) ∧
          ∀ user ∈ getMacUsers env texts, ∀ other ∈ getMacUsers env others, other.mac = user.mac →
            SameData env (linesOf env texts user.mac) user other := by
  have distinct : ∀ texts, ((getMacUsers env texts).map MacUser.mac).Nodup := fun texts => by
    rw [macs_eq]
    exact keys_nodup _
  have bounded : ∀ user ∈ getMacUsers env texts, ∀ c, ((linesOf env texts user.mac).map (·.count c)).sum < 2 ^ 53 := by
    intro user member
    obtain ⟨line, accepted, same⟩ := mem_macs.mp (List.mem_map_of_mem member)
    exact same ▸ small line accepted
  refine ⟨distinct texts, fun mac => mem_macs, fun user member => conserves_of_mem member (bounded user member), ?_⟩
  intro others perm
  have accepted := perm.filterMap (acceptLine env)
  refine ⟨?_, fun user member other inside same => ?_⟩
  · refine (List.perm_ext_iff_of_nodup (distinct others) (distinct texts)).mpr fun mac => ?_
    simp only [mem_macs, accepted.mem_iff]
  · have lines : (linesOf env others user.mac).Perm (linesOf env texts user.mac) := accepted.filter _
    have conserved := conserves_of_mem inside fun c => by
      rw [same, (lines.map _).sum_eq]
      exact bounded user member c
    rw [same] at conserved
    exact (conserves_of_mem member (bounded user member)).same (conserved.perm lines) same

end Outcome

/-- Two addresses with different host names. -/
def twoNames : Surroundings ℕ where
  tonumber text := if text = "0x1".toList then some 1 else none
  luciIp := none
  macToHost _ := none
  ipToHost ip :=
    if ip = "10.0.0.1".toList then some "phone".toList else if ip = "10.0.0.2".toList then some "tablet".toList else none
  wifiByIfnameMac _ := none
  wifiByMac _ := none
  wifiApsByIfname _ := none

def slowLine : List Char := "10.0.0.1,AA:BB:CC:DD:EE:FF,0x1,0x1,1,10,1:100,2:200,3:300,4:400,br-lan".toList
def slowestLine : List Char := "fd00::1,AA:BB:CC:DD:EE:FF,0x1,0x1,2,20,5:500,6:600,7:700,8:800,wg0".toList
def fastLine : List Char := "10.0.0.2,AA:BB:CC:DD:EE:FF,0x1,0x1,1,5,1:100,2:200,3:300,4:400,".toList

/-- The host name, and the interface where the line with the least idle time names none, depend on the order of lines
with different idle times. -/
theorem fills_in_order :
    [fastLine, slowestLine, slowLine].Perm [slowLine, fastLine, slowestLine] ∧
    (([slowLine, fastLine, slowestLine].filterMap (acceptLine twoNames)).map UserLine.idleTime).Nodup ∧
    (getMacUsers twoNames [slowLine, fastLine, slowestLine]).map MacUser.hostname = ["phone".toList] ∧
    (getMacUsers twoNames [fastLine, slowestLine, slowLine]).map MacUser.hostname = ["tablet".toList] ∧
    ((getMacUsers twoNames [slowLine, fastLine, slowestLine]).map fun user => user.ifname) = ["br-lan".toList] ∧
    ((getMacUsers twoNames [fastLine, slowestLine, slowLine]).map fun user => user.ifname) = ["wg0".toList] :=
  ⟨by decide +kernel, by decide +kernel, by decide +kernel, by decide +kernel, by decide +kernel, by decide +kernel⟩

theorem getMacUsers_conserves_twoNames :
    ∃ user ∈ getMacUsers twoNames [slowLine, fastLine, slowestLine],
      Conserves twoNames (linesOf twoNames [slowLine, fastLine, slowestLine] user.mac) user := by
  have small : ∀ line ∈ [slowLine, fastLine, slowestLine].filterMap (acceptLine twoNames), ∀ c,
      ((linesOf twoNames [slowLine, fastLine, slowestLine] line.mac).map (·.count c)).sum < 2 ^ 53 := by
    intro line member c
    cases c <;> revert line <;> decide
  obtain ⟨user, member⟩ := List.exists_mem_of_ne_nil (getMacUsers twoNames [slowLine, fastLine, slowestLine]) (by decide)
  exact ⟨user, member, (getMacUsers_conserves twoNames [slowLine, fastLine, slowestLine] small).2.2.1 user member⟩

end XWrt.Natflow.MacUsers
