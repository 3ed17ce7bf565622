import Mathlib.Data.List.Perm.Basic
import XWrt.Foundation.Registry
import XWrt.Quectel.QmiProxyControl

/-!
# Client ids and the messages of services

The modem allots client ids in its answers to control requests. A service
message for a client id goes to the one connection that was told this id and has
neither been told of its release nor been closed.
-/

namespace XWrt.Quectel.QmiProxy

open XWrt.Foundation
open XWrt.Foundation.Registry (Tracks)

variable {s : Proxy}

/-! ## The registry of a run -/

/-- The connection of each client id. -/
abbrev Holders := Client → Option ℤ

def allotted (qmi : List UInt8) : Client := ⟨allottedType qmi, allottedId qmi⟩

/-- A connection is told an answer of the modem. -/
def told (qmi : List UInt8) (holders : Holders) (fd : ℤ) : Holders :=
  if qmiResult qmi = 0 ∧ qmiError qmi = 0 then
    if qmictlType qmi = QMICTL_GET_CLIENT_ID_RESP then Registry.enter holders (allotted qmi) fd
    else if (qmictlType qmi = QMICTL_RELEASE_CLIENT_ID_RESP ∨
        qmictlType qmi = QMICTL_REVOKE_CLIENT_ID_IND) ∧ holders (allotted qmi) = some fd then
      Registry.strike holders (allotted qmi)
    else holders
  else holders

/-- The control frame of the modem that a step reads. -/
def answerRead (s : Proxy) : Ready → Option (List UInt8)
  | .device data => if controlFrame s (.device data) then some (received s data) else none
  | _ => none

def noteSent (answer : Option (List UInt8)) (holders : Holders) : Sent → Holders
  | .toCdcWdm _ => holders
  | .toClient _ fd => answer.elim holders fun qmi => told qmi holders fd
  | .close fd => Registry.forget holders fd

def holdersAfter (holders : Holders) (trace : List (Entry Proxy Ready Sent)) : Holders :=
  trace.foldl (fun holders e => e.emitted.foldl (noteSent (answerRead e.before e.input)) holders)
    holders

/-- The client ids of the connections. -/
def held (connections : List Connection) : List (Client × ℤ) :=
  connections.flatMap fun con => con.clients.map fun client => (client, con.clientFd)

/-- The kernel hands out descriptors that are not in use, and the modem client
ids that no connection holds. -/
def Allots (s : Proxy) : Ready → Prop
  | .server clientFd => clientFd ∉ fds s
  | .device data =>
      controlFrame s (.device data) = true →
        ctlFlags (received s data) = QMICTL_CTL_FLAG_RSP →
        qmictlType (received s data) = QMICTL_GET_CLIENT_ID_RESP →
        qmiResult (received s data) = 0 → qmiError (received s data) = 0 →
        allotted (received s data) ∉ (held s.connections).map Prod.fst
  | _ => True

/-- The proxy's lists are the registry. -/
structure Known (s : Proxy) (holders : Holders) : Prop where
  server : s.serverFd ≠ -1
  nodup : (fds s).Nodup
  tracks : Tracks (held s.connections) holders

/-! ## Outputs that change no holder -/

theorem foldl_noteSent {answer : Option (List UInt8)} {sent : List Sent} (holders : Holders)
    (quiet : ∀ out ∈ sent, noteSent answer holders out = holders) :
    sent.foldl (noteSent answer) holders = holders := by
  induction sent with
  | nil => rfl
  | cons out rest ih =>
    rw [List.foldl_cons, quiet out List.mem_cons_self]
    exact ih fun later member => quiet later (List.mem_cons_of_mem _ member)

theorem foldl_noteSent_sendHead (s : Proxy) (answer : Option (List UInt8)) (holders : Holders) :
    (sendHead s).foldl (noteSent answer) holders = holders := by
  refine foldl_noteSent holders fun out member => ?_
  unfold sendHead at member
  split at member
  · simp at member
  · obtain ⟨_, -, rfl⟩ := List.mem_map.mp member
    rfl

theorem foldl_noteSent_passOn (s : Proxy) (qmi : List UInt8) (holders : Holders) :
    (passOn s qmi).foldl (noteSent none) holders = holders := by
  refine foldl_noteSent holders fun out member => ?_
  obtain ⟨con, -, inside⟩ := List.mem_flatMap.mp member
  obtain ⟨_, -, rfl⟩ := List.mem_map.mp inside
  rfl

/-! ## Closing connections -/

theorem eraseP_clientFd {connections : List Connection} (fd : ℤ)
    (nodup : (connections.map Connection.clientFd).Nodup) :
    connections.eraseP (·.clientFd == fd) = connections.filter fun con => con.clientFd ≠ fd := by
  induction connections with
  | nil => rfl
  | cons con rest ih =>
    obtain ⟨fresh, distinct⟩ := List.nodup_cons.mp nodup
    by_cases same : con.clientFd = fd
    · have kept : rest.filter (fun con => con.clientFd ≠ fd) = rest :=
        List.filter_eq_self.mpr fun other member => by
          have apart : other.clientFd ≠ fd := fun equal =>
            fresh (List.mem_map.mpr ⟨other, member, equal.trans same.symm⟩)
          simpa using apart
      rw [List.eraseP_cons_of_pos (by simpa using same), List.filter_cons_of_neg (by simpa using same), kept]
    · simpa [same] using ih distinct

theorem held_filter (connections : List Connection) (fd : ℤ) :
    held (connections.filter fun con => con.clientFd ≠ fd) =
      (held connections).filter fun pair => pair.2 ≠ fd := by
  induction connections with
  | nil => rfl
  | cons con rest ih =>
    have inside : (con.clients.map fun client => (client, con.clientFd)).filter
        (fun pair => pair.2 ≠ fd) =
        if con.clientFd = fd then [] else con.clients.map fun client => (client, con.clientFd) := by
      split_ifs with same <;> simp [List.filter_map, Function.comp_def, same]
    simp only [held, List.flatMap_cons, List.filter_append] at ih ⊢
    rw [inside, ← ih]
    by_cases same : con.clientFd = fd <;> simp [same]

theorem known_cleanup {holders : Holders} (known : Known s holders) (fd : ℤ)
    (answer : Option (List UInt8)) :
    Known (cleanupQmiConnection s fd).1
      ((cleanupQmiConnection s fd).2.foldl (noteSent answer) holders) := by
  unfold cleanupQmiConnection
  split
  · refine ⟨known.server, ?_, ?_⟩
    · exact (List.eraseP_sublist.map Connection.clientFd).nodup known.nodup
    · simp only [eraseP_clientFd fd known.nodup, held_filter]
      exact known.tracks.forget fd
  · exact known

theorem known_cleanupAll {holders : Holders} (n : ℕ) (known : Known s holders)
    (answer : Option (List UInt8)) :
    Known (cleanupAll n s).1 ((cleanupAll n s).2.foldl (noteSent answer) holders) := by
  induction n generalizing s holders with
  | zero => exact known
  | succ n ih =>
    unfold cleanupAll
    split
    · exact known
    · rw [List.foldl_append]
      exact ih (known_cleanup known _ answer)

theorem known_exitLoop {holders : Holders} (known : Known s holders)
    (answer : Option (List UInt8)) :
    Known (exitLoop s).1 ((exitLoop s).2.foldl (noteSent answer) holders) :=
  let closed := known_cleanupAll s.connections.length known answer
  ⟨closed.server, closed.nodup, closed.tracks⟩

/-! ## Answers -/

/-- One connection is told an answer, and the others hold what they held. -/
theorem tracks_noteAnswer {qmi : List UInt8} {con : Connection} {others : List (Client × ℤ)}
    {holders : Holders} (tracks : Tracks (held [con] ++ others) holders)
    (apart : ∀ pair ∈ others, pair.2 ≠ con.clientFd)
    (fresh : qmictlType qmi = QMICTL_GET_CLIENT_ID_RESP → qmiResult qmi = 0 → qmiError qmi = 0 →
      allotted qmi ∉ (held [con] ++ others).map Prod.fst) :
    Tracks (held [noteAnswer qmi con] ++ others) (told qmi holders con.clientFd) := by
  by_cases good : qmiResult qmi = 0 ∧ qmiError qmi = 0
  · by_cases get : qmictlType qmi = QMICTL_GET_CLIENT_ID_RESP
    · have entered : Tracks ((allotted qmi, con.clientFd) :: (held [con] ++ others))
          (Registry.enter holders (allotted qmi) con.clientFd) := tracks.enter (fresh get good.1 good.2)
      rw [told, if_pos good, if_pos get]
      refine entered.perm ?_
      simp only [noteAnswer, if_pos get, getClientId, if_pos good, held, List.flatMap_cons,
        List.flatMap_nil, List.append_nil, List.map_append, List.map_cons, List.map_nil,
        List.append_assoc, List.singleton_append]
      exact List.perm_middle.symm
    · by_cases release : qmictlType qmi = QMICTL_RELEASE_CLIENT_ID_RESP ∨
          qmictlType qmi = QMICTL_REVOKE_CLIENT_ID_IND
      · have now : noteAnswer qmi con = { con with clients := con.clients.erase (allotted qmi) } := by
          simp [noteAnswer, get, release, releaseClientId, good, allotted]
        by_cases mine : allotted qmi ∈ con.clients
        · have owner : holders (allotted qmi) = some con.clientFd :=
            (tracks.exact _ _).mpr (List.mem_append_left _ (by simp [held, mine]))
          rw [told, if_pos good, if_neg get, if_pos ⟨release, owner⟩, now]
          refine Tracks.strike (tracks.perm (?_ : List.Perm _ ((allotted qmi, con.clientFd) :: _)))
          have moved := (List.perm_cons_erase mine).map fun client => (client, con.clientFd)
          simpa [held] using moved.append_right others
        · have elsewhere : holders (allotted qmi) ≠ some con.clientFd := fun owner => by
            rcases List.mem_append.mp ((tracks.exact _ _).mp owner) with here | there
            · exact mine (by simpa [held] using here)
            · exact apart _ there rfl
          rw [told, if_pos good, if_neg get, if_neg fun both => elsewhere both.2, now,
            List.erase_of_not_mem mine]
          exact tracks
      · rw [told, if_pos good, if_neg get, if_neg fun both => release both.1]
        simpa [noteAnswer, get, release] using tracks
  · rw [told, if_neg good]
    have same : noteAnswer qmi con = con := by
      simp only [noteAnswer, getClientId, releaseClientId, if_neg good]
      split_ifs <;> rfl
    rw [same]
    exact tracks

/-- A change of the connection with one descriptor. -/
theorem map_clientFd {before behind : List Connection} {con : Connection}
    (nodup : ((before ++ con :: behind).map Connection.clientFd).Nodup)
    (change : Connection → Connection) :
    (before ++ con :: behind).map (fun other =>
      if other.clientFd = con.clientFd then change other else other) =
      before ++ change con :: behind := by
  rw [List.map_append, List.map_cons, List.nodup_append] at nodup
  obtain ⟨-, distinct, apart⟩ := nodup
  have first : before.map (fun other =>
      if other.clientFd = con.clientFd then change other else other) = before :=
    (List.map_congr_left fun other member =>
      if_neg (apart _ (List.mem_map_of_mem member) _ List.mem_cons_self)).trans (List.map_id before)
  have last : behind.map (fun other =>
      if other.clientFd = con.clientFd then change other else other) = behind :=
    (List.map_congr_left fun other member => if_neg fun equal : other.clientFd = con.clientFd =>
      (List.nodup_cons.mp distinct).1 (List.mem_map.mpr ⟨other, member, equal⟩)).trans
      (List.map_id behind)
  rw [List.map_append, List.map_cons, first, last, if_pos rfl]

theorem fds_recvControlAnswer (s : Proxy) (qmi : List UInt8) :
    fds (recvControlAnswer s qmi).1 = fds s := by
  unfold recvControlAnswer
  split
  · rfl
  · simp only [fds, List.map_map]
    refine List.map_congr_left fun other _ => ?_
    simp only [Function.comp_apply]
    split_ifs
    · exact clientFd_noteAnswer qmi other
    · rfl

theorem known_recvControlAnswer {holders : Holders} (known : Known s holders) {qmi : List UInt8}
    (fresh : qmictlType qmi = QMICTL_GET_CLIENT_ID_RESP → qmiResult qmi = 0 → qmiError qmi = 0 →
      allotted qmi ∉ (held s.connections).map Prod.fst) :
    Known (recvControlAnswer s qmi).1
      ((recvControlAnswer s qmi).2.foldl (noteSent (some qmi)) holders) := by
  refine ⟨?_, fds_recvControlAnswer s qmi ▸ known.nodup, ?_⟩
  · unfold recvControlAnswer
    split <;> exact known.server
  cases waiting : s.ctlMsg with
  | nil => simpa [recvControlAnswer, waiting] using known.tracks
  | cons msg rest =>
    simp only [recvControlAnswer, waiting]
    by_cases connected : msg.clientFd ∈ fds s
    · obtain ⟨con, member, belongs⟩ := List.mem_map.mp connected
      obtain ⟨before, behind, split⟩ := List.append_of_mem member
      obtain ⟨found, same, only⟩ := filter_clientFd known.nodup connected
      have nodup : ((before ++ con :: behind).map Connection.clientFd).Nodup := split ▸ known.nodup
      have order (middle : Connection) : (held (before ++ middle :: behind)).Perm
          (held [middle] ++ (held before ++ held behind)) := by
        simp only [held, List.flatMap_append, List.flatMap_cons, List.flatMap_nil, List.append_nil]
        rw [← List.append_assoc, ← List.append_assoc]
        exact List.Perm.append_right _ List.perm_append_comm
      have apart : ∀ pair ∈ held before ++ held behind, pair.2 ≠ con.clientFd := by
        rw [List.map_append, List.map_cons, List.nodup_append] at nodup
        obtain ⟨-, distinct, others⟩ := nodup
        intro pair inside
        rcases List.mem_append.mp inside with first | last
        · obtain ⟨other, at_, client⟩ := List.mem_flatMap.mp first
          obtain ⟨_, -, rfl⟩ := List.mem_map.mp client
          exact others _ (List.mem_map_of_mem at_) _ List.mem_cons_self
        · obtain ⟨other, at_, client⟩ := List.mem_flatMap.mp last
          obtain ⟨_, -, rfl⟩ := List.mem_map.mp client
          exact fun equal : other.clientFd = con.clientFd =>
            (List.nodup_cons.mp distinct).1 (List.mem_map.mpr ⟨other, at_, equal⟩)
      rw [only, ← belongs, split, map_clientFd nodup, List.map_singleton, List.foldl_cons,
        List.foldl_nil]
      rw [split] at fresh
      have after := @tracks_noteAnswer qmi _ _ _ (known.tracks.perm (split ▸ order con)) apart
        fun get result error member =>
          fresh get result error (((order con).map Prod.fst).mem_iff.mpr member)
      simpa [noteSent, same, belongs] using after.perm (order (noteAnswer qmi con)).symm
    · have none : s.connections.filter (·.clientFd == msg.clientFd) = [] :=
        List.filter_eq_nil_iff.mpr fun con member equal =>
          connected (List.mem_map.mpr ⟨con, member, beq_iff_eq.mp equal⟩)
      have kept : s.connections.map (fun con =>
          if con.clientFd = msg.clientFd then noteAnswer qmi con else con) = s.connections :=
        (List.map_congr_left fun con member => if_neg fun equal : con.clientFd = msg.clientFd =>
          connected (List.mem_map.mpr ⟨con, member, equal⟩)).trans (List.map_id _)
      rw [none, kept]
      exact known.tracks

/-! ## Steps and runs -/

theorem known_recvQmiFromDev {holders : Holders} (known : Known s holders) {qmi : List UInt8}
    (control : qmiType qmi = QMUX_TYPE_CTL)
    (fresh : ctlFlags qmi = QMICTL_CTL_FLAG_RSP → qmictlType qmi = QMICTL_GET_CLIENT_ID_RESP →
      qmiResult qmi = 0 → qmiError qmi = 0 → allotted qmi ∉ (held s.connections).map Prod.fst) :
    Known (recvQmiFromDev s qmi).1
      ((recvQmiFromDev s qmi).2.foldl (noteSent (some qmi)) holders) := by
  simp only [recvQmiFromDev, if_neg known.server, if_pos control, List.foldl_append,
    foldl_noteSent_sendHead]
  split_ifs with answer
  · exact known_recvControlAnswer known (fresh answer)
  · exact known

theorem known_device {holders : Holders} {data : List UInt8} (known : Known s holders)
    (running : s.looping = true) (allots : Allots s (.device data)) :
    Known (fromDevice s data).1
      ((fromDevice s data).2.foldl (noteSent (answerRead s (.device data))) holders) := by
  have buffered : Known { s with qmiBuf := received s data } holders :=
    ⟨known.server, known.nodup, known.tracks⟩
  cases data with
  | nil => exact known_exitLoop known _
  | cons first others =>
    by_cases whole : complete (received s (first :: others)) (first :: others) = true
    · have taken : Known
          (recvQmiFromDev { s with qmiBuf := received s (first :: others) }
            (received s (first :: others))).1
          ((recvQmiFromDev { s with qmiBuf := received s (first :: others) }
            (received s (first :: others))).2.foldl
            (noteSent (answerRead s (.device (first :: others)))) holders) := by
        by_cases control : qmiType (received s (first :: others)) = QMUX_TYPE_CTL
        · have here : controlFrame s (.device (first :: others)) = true := by
            simp [controlFrame, running, whole, control]
          rw [answerRead, if_pos here]
          exact known_recvQmiFromDev buffered control (allots here)
        · have none : controlFrame s (.device (first :: others)) = false := by
            simp [controlFrame, control]
          rw [answerRead, none]
          simp only [recvQmiFromDev, if_neg known.server, if_neg control]
          exact (foldl_noteSent_passOn _ _ holders).symm ▸ buffered
      simp only [fromDevice, whole, if_true]
      split
      · rw [List.foldl_append]
        exact known_exitLoop taken _
      · exact taken
    · simp only [fromDevice, whole]
      exact buffered

theorem known_client {holders : Holders} {fd : ℤ} {data : List UInt8} (known : Known s holders) :
    Known (fromClient s fd data).1 ((fromClient s fd data).2.foldl (noteSent none) holders) := by
  cases data with
  | nil => exact known_cleanup known fd none
  | cons first others =>
    have buffered : Known { s with qmiBuf := received s (first :: others) } holders :=
      ⟨known.server, known.nodup, known.tracks⟩
    simp only [fromClient, recvQmiFromClient]
    split_ifs <;> exact ⟨buffered.server, buffered.nodup, buffered.tracks⟩

theorem known_step {holders : Holders} {ready : Ready} (known : Known s holders)
    (allots : Allots s ready) :
    Known (step s ready).1 ((step s ready).2.foldl (noteSent (answerRead s ready)) holders) := by
  cases running : s.looping with
  | false => simpa [step, running] using known
  | true =>
    simp only [step, running, if_true]
    cases ready with
    | server clientFd =>
      have added : fds (acceptQmiConnection s clientFd) = fds s ++ [clientFd] := by
        simp [fds, acceptQmiConnection]
      refine ⟨known.server, ?_, ?_⟩
      · rw [added]
        exact List.nodup_append.mpr ⟨known.nodup, List.nodup_singleton _, fun a ha b hb equal =>
          allots (List.mem_singleton.mp hb ▸ equal ▸ ha)⟩
      · simpa [acceptQmiConnection, held] using known.tracks
    | device data => exact known_device known running allots
    | client fd data => exact known_client known
    | hangup fd => exact known_cleanup known fd none
    | deviceGone => exact known_exitLoop known none

theorem known_run {holders : Holders} (inputs : List Ready) (known : Known s holders)
    (allots : proxy.AllSteps Allots s inputs) :
    Known (proxy.final s inputs) (holdersAfter holders (proxy.trace s inputs)) := by
  induction inputs generalizing s holders with
  | nil => exact known
  | cons ready rest ih =>
    obtain ⟨now, later⟩ := (Transducer.allSteps_cons ..).mp allots
    exact ih (known_step known now) later

/-- The loop ends as soon as the modem has reset itself. -/
theorem going_step {ready : Ready} (going : s.looping = true → s.modemResetFlag = false)
    (running : (step s ready).1.looping = true) : (step s ready).1.modemResetFlag = false := by
  have cleanup (fd : ℤ) : (cleanupQmiConnection s fd).1.looping = s.looping ∧
      (cleanupQmiConnection s fd).1.modemResetFlag = s.modemResetFlag := by
    unfold cleanupQmiConnection
    split <;> exact ⟨rfl, rfl⟩
  cases here : s.looping with
  | false => simp [step, here] at running
  | true =>
    have clear := going here
    simp only [step, here, if_true] at running ⊢
    cases ready with
    | server clientFd => exact clear
    | device data =>
      cases data with
      | nil => simp [fromDevice] at running
      | cons first others =>
        simp only [fromDevice] at running ⊢
        split_ifs at running ⊢ with whole reset
        · simp at running
        · exact Bool.eq_false_iff.mpr reset
        · exact clear
    | client fd data =>
      cases data with
      | nil => exact (cleanup fd).2.trans clear
      | cons first others =>
        simp only [fromClient, recvQmiFromClient]
        split_ifs <;> exact clear
    | hangup fd => exact (cleanup fd).2.trans clear
    | deviceGone => simp at running

theorem going_run (inputs : List Ready) (going : s.looping = true → s.modemResetFlag = false)
    (running : (proxy.final s inputs).looping = true) :
    (proxy.final s inputs).modemResetFlag = false := by
  induction inputs generalizing s with
  | nil => exact going running
  | cons ready rest ih => exact ih (going_step going) running

/-! ## Messages of services -/

theorem passOn_eq (s : Proxy) (qmi : List UInt8) :
    passOn s qmi = ((held s.connections).filter fun pair =>
      qmiType qmi == pair.1.qmiType && (clientId qmi == 0 || clientId qmi == pair.1.clientId)).map
        fun pair => .toClient (frame qmi) pair.2 := by
  unfold passOn held
  induction s.connections with
  | nil => rfl
  | cons con rest ih =>
    rw [List.flatMap_cons, List.flatMap_cons, List.filter_append, List.map_append, ih,
      List.filter_map, List.map_map]
    rfl

theorem step_service {data : List UInt8} (running : s.looping = true) (server : s.serverFd ≠ -1)
    (some : data ≠ []) (whole : complete (received s data) data = true)
    (service : qmiType (received s data) ≠ QMUX_TYPE_CTL)
    (reset : s.modemResetFlag = false) :
    (step s (.device data)).2 = passOn s (received s data) := by
  obtain ⟨first, others, rfl⟩ := List.exists_cons_of_ne_nil some
  have passed : (step s (.device (first :: others))).2 =
      passOn { s with qmiBuf := received s (first :: others) } (received s (first :: others)) := by
    simp [step, running, fromDevice, whole, recvQmiFromDev, server, service, reset]
  exact passed

/-- A service message for one client id. -/
theorem passOn_one {holders : Holders} (known : Known s holders) {qmi : List UInt8}
    (one : clientId qmi ≠ 0) :
    passOn s qmi = (holders ⟨qmiType qmi, clientId qmi⟩).toList.map fun fd =>
      .toClient (frame qmi) fd := by
  have keys : (fun pair : Client × ℤ => qmiType qmi == pair.1.qmiType &&
      (clientId qmi == 0 || clientId qmi == pair.1.clientId)) =
      fun pair => decide (pair.1 = ⟨qmiType qmi, clientId qmi⟩) := by
    funext ⟨⟨type, id⟩, fd⟩
    have other : (clientId qmi == 0) = false := beq_eq_false_iff_ne.mpr one
    rw [Bool.eq_iff_iff, other, Bool.false_or, Bool.and_eq_true, beq_iff_eq, beq_iff_eq,
      decide_eq_true_iff, Client.mk.injEq, eq_comm (a := type), eq_comm (a := id)]
  rw [passOn_eq, keys, known.tracks.filter_key, List.map_map]
  rfl

/-- A service message for all client ids. -/
theorem mem_passOn_all {holders : Holders} (known : Known s holders) {qmi : List UInt8}
    (all : clientId qmi = 0) (out : Sent) :
    out ∈ passOn s qmi ↔
      ∃ id fd, holders ⟨qmiType qmi, id⟩ = some fd ∧ out = .toClient (frame qmi) fd := by
  rw [passOn_eq, List.mem_map]
  constructor
  · rintro ⟨⟨⟨type, id⟩, fd⟩, member, rfl⟩
    obtain ⟨inside, kind⟩ := List.mem_filter.mp member
    have kind : qmiType qmi = type := by simpa [all] using kind
    exact ⟨id, fd, (known.tracks.exact _ _).mpr (kind ▸ inside), rfl⟩
  · rintro ⟨id, fd, holds, rfl⟩
    exact ⟨(⟨qmiType qmi, id⟩, fd),
      List.mem_filter.mpr ⟨(known.tracks.exact _ _).mp holds, by simp [all]⟩, rfl⟩

theorem known_start {serverFd : ℤ} (positive : 0 < serverFd) (qmiBuf : List UInt8) :
    Known (start serverFd qmiBuf) fun _ => none := by
  refine ⟨?_, List.nodup_nil, Tracks.nil⟩
  simp only [start]
  omega

/-- After every run in which the modem allots no client id that is in use, a
service message for one client id goes to its holder and to nobody else, and one
for all of them to the holders of ids of the service. -/
theorem service_routed {serverFd : ℤ} (positive : 0 < serverFd) (qmiBuf : List UInt8)
    (inputs : List Ready) (allots : proxy.AllSteps Allots (start serverFd qmiBuf) inputs)
    {data : List UInt8} :
    let s := proxy.final (start serverFd qmiBuf) inputs
    let holders := holdersAfter (fun _ => none) (proxy.trace (start serverFd qmiBuf) inputs)
    let qmi := received s data
    s.looping = true → data ≠ [] → complete qmi data = true → qmiType qmi ≠ QMUX_TYPE_CTL →
      (clientId qmi ≠ 0 → (step s (.device data)).2 =
        (holders ⟨qmiType qmi, clientId qmi⟩).toList.map fun fd => .toClient data fd) ∧
      (clientId qmi = 0 → ∀ out, out ∈ (step s (.device data)).2 ↔
        ∃ id fd, holders ⟨qmiType qmi, id⟩ = some fd ∧ out = .toClient data fd) := by
  intro s holders qmi running some whole service
  have known : Known s holders := known_run inputs (known_start positive qmiBuf) allots
  have reset : s.modemResetFlag = false := going_run inputs (fun _ => rfl) running
  rw [step_service running known.server some whole service reset]
  have same : frame qmi = data := frame_received whole
  refine ⟨fun one => ?_, fun all out => ?_⟩
  · rw [passOn_one known one, same]
  · rw [mem_passOn_all known all, same]

/-- The answer that allots a client id of a service. -/
def allotment (type id : UInt8) : List UInt8 :=
  [1, 23, 0, 0, 0, 0, 1, 1, 0x22, 0, 12, 0, 2, 4, 0, 0, 0, 0, 0, 1, 2, 0, type, id]

/-- Two clients of one service. -/
def twoClients : List Ready :=
  [.server 5, .server 6, .client 5 (shortControl 0 1), .device (allotment 3 1),
    .client 6 (shortControl 0 1), .device (allotment 3 2)]

instance (s : Proxy) : (ready : Ready) → Decidable (Allots s ready)
  | .server clientFd => inferInstanceAs (Decidable (clientFd ∉ fds s))
  | .device data => inferInstanceAs (Decidable (controlFrame s (.device data) = true →
      ctlFlags (received s data) = QMICTL_CTL_FLAG_RSP →
      qmictlType (received s data) = QMICTL_GET_CLIENT_ID_RESP →
      qmiResult (received s data) = 0 → qmiError (received s data) = 0 →
      allotted (received s data) ∉ (held s.connections).map Prod.fst))
  | .client _ _ => inferInstanceAs (Decidable True)
  | .hangup _ => inferInstanceAs (Decidable True)
  | .deviceGone => inferInstanceAs (Decidable True)

theorem service_routed_twoClients :
    (step (proxy.final (start 4 []) twoClients) (.device [1, 8, 0, 0, 3, 2, 0, 1, 0])).2 =
      [.toClient [1, 8, 0, 0, 3, 2, 0, 1, 0] 6] := by
  obtain ⟨one, -⟩ := @service_routed 4 (by decide) [] twoClients
    (by unfold Transducer.AllSteps; decide) [1, 8, 0, 0, 3, 2, 0, 1, 0]
    (by decide) (by decide) (by decide) (by decide)
  exact (one (by decide)).trans (by decide)

end XWrt.Quectel.QmiProxy
