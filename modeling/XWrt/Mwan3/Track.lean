import XWrt.Foundation.Transducer
import Mathlib.Algebra.Order.Ring.Int

/-!
# The score machine of mwan3track

The probe loop and the score counter of `usr/sbin/mwan3track`. One counter
between 0 and `up + down` carries both thresholds: below `up` it counts the
successes of an interface that is down, above `up` it counts what is left
before an interface that is up is given up. The rounds are taken to be fewer than
`2 ^ 63`, so that no counter of the shell wraps.
-/

namespace XWrt.Mwan3

open XWrt.Foundation

/-- The options of the interface section that the main loop reads. The shell holds
the sum of the thresholds. -/
structure TrackConfig where
  reliability : Int
  up : Int
  down : Int
  interval : Int
  failureInterval : Int
  recoveryInterval : Int
  keepFailureInterval : Bool
  small : up + down < 2 ^ 63
  deriving DecidableEq, Repr

/-- The defaults of `config_get`. -/
def defaultConfig : TrackConfig where
  reliability := 1
  up := 5
  down := 5
  interval := 10
  failureInterval := 10
  recoveryInterval := 10
  keepFailureInterval := false
  small := by decide

/-- The contents of `$TRACK_DIR/STATUS`. -/
inductive TrackStatus where
  | notracking
  | online
  | offline
  | connecting
  | disconnecting
  deriving DecidableEq, Repr

/-- The `ACTION` of a hotplug call. -/
inductive Action where
  | connected
  | disconnected
  deriving DecidableEq, Repr

/-- What the probes of one target say. With `check_quality` a target between the
failure and the recovery thresholds is skipped. -/
inductive Verdict where
  | up
  | down
  | skipped
  deriving DecidableEq, Repr

/-- `IFDOWN_EVENT`, set by the signal handlers. -/
inductive IfdownEvent where
  | none
  | ifdown
  | exit
  deriving DecidableEq, Repr

/-- The variables of the main loop and the status file. -/
structure Tracker where
  score : Int
  hostUpCount : Int
  lost : Int
  turn : Int
  sleepTime : Int
  status : TrackStatus
  running : Bool
  deriving DecidableEq, Repr

/-- One turn of the loop: the answers of its targets, in order, and the signal
caught during its sleep. -/
structure Round where
  verdicts : List Verdict
  ifdownEvent : IfdownEvent
  deriving DecidableEq, Repr

/-- The status check of `disconnected`. -/
def TrackStatus.CountsOnline (status : TrackStatus) : Prop :=
  status = .online ∨ status = .disconnecting

instance (status : TrackStatus) : Decidable status.CountsOnline :=
  inferInstanceAs (Decidable (_ ∨ _))

def disconnected (first : Bool) (s : Tracker) : Tracker × List Action :=
  let status := s.status
  let s := { s with status := .offline, score := 0 }
  if first then (s, [])
  else if status.CountsOnline then (s, [.disconnected])
  else (s, [])

def connected (first : Bool) (s : Tracker) : Tracker × List Action :=
  let s := { s with status := .online, hostUpCount := 0, lost := 0, turn := 0 }
  if first then (s, []) else (s, [.connected])

def disconnecting (s : Tracker) : Tracker := { s with status := .disconnecting }

def connecting (s : Tracker) : Tracker := { s with status := .connecting }

/-- `firstconnect`, on the status given on the command line. -/
def firstconnect (startStatus : TrackStatus) (s : Tracker) : Tracker :=
  if startStatus = .offline then (disconnected true s).1 else (connected true s).1

/-- The loop body for one target: once `reliability` targets answered, the others
are skipped. -/
def probe (config : TrackConfig) (s : Tracker) (verdict : Verdict) : Tracker :=
  if s.hostUpCount < config.reliability then
    match verdict with
    | .up => { s with hostUpCount := s.hostUpCount + 1 }
    | .down => { s with lost := s.lost + 1 }
    | .skipped => s
  else s

def probeTargets (config : TrackConfig) (s : Tracker) (verdicts : List Verdict) : Tracker :=
  verdicts.foldl (probe config) s

/-- The score after a round with fewer than `reliability` answers. -/
def failedRound (config : TrackConfig) (s : Tracker) : Tracker × List Action :=
  let s := { s with score := s.score - 1 }
  let s :=
    if s.score < config.up then
      { s with
        score := 0
        sleepTime := if config.keepFailureInterval then config.failureInterval else s.sleepTime }
    else { disconnecting s with sleepTime := config.failureInterval }
  if s.score = config.up then
    ({ (disconnected false s).1 with score := 0 }, (disconnected false s).2)
  else (s, [])

/-- The report of lost probes in a round that succeeds all the same. -/
def reportLost (config : TrackConfig) (s : Tracker) : Tracker :=
  if s.score < config.down + config.up ∧ 0 < s.lost then connecting s else s

/-- The score after a round with `reliability` answers. -/
def successfulRound (config : TrackConfig) (s : Tracker) : Tracker × List Action :=
  let s := reportLost config s
  let s := { s with score := s.score + 1, lost := 0 }
  let s :=
    if s.score > config.up then { s with status := .online, score := config.down + config.up }
    else if s.score ≤ config.up then
      { connecting s with sleepTime := config.recoveryInterval }
    else s
  if s.score = config.up then connected false s else (s, [])

/-- The signal check after the sleep. -/
def afterSleep (event : IfdownEvent) (s : Tracker) : Tracker :=
  match event with
  | .none => s
  | .ifdown => (disconnected true s).1
  | .exit => { (disconnected true s).1 with running := false }

/-- One turn of `while true`. -/
def trackRound (config : TrackConfig) (s : Tracker) (round : Round) : Tracker × List Action :=
  if s.running then
    let s := probeTargets config { s with sleepTime := config.interval } round.verdicts
    let settled :=
      if s.hostUpCount < config.reliability then failedRound config s
      else successfulRound config s
    let s := { settled.1 with turn := settled.1.turn + 1, hostUpCount := 0 }
    (afterSleep round.ifdownEvent s, settled.2)
  else (s, [])

/-- The loop as long as no signal arrives; its inputs are the answers of each round. -/
def probeLoop (config : TrackConfig) : Transducer Tracker (List Verdict) Action :=
  ⟨fun s verdicts => trackRound config s ⟨verdicts, .none⟩⟩

/-- The variables before the loop, after `firstconnect`. -/
def startTracker (config : TrackConfig) (startStatus fileStatus : TrackStatus) : Tracker :=
  firstconnect startStatus
    { score := config.down + config.up, hostUpCount := 0, lost := 0, turn := 0,
      sleepTime := 0, status := fileStatus, running := true }

/-- A round in which fewer than `reliability` targets answer. -/
def RoundFails (config : TrackConfig) (s : Tracker) (verdicts : List Verdict) : Prop :=
  (probeTargets config { s with sleepTime := config.interval } verdicts).hostUpCount <
    config.reliability

instance (config : TrackConfig) (s : Tracker) (verdicts : List Verdict) :
    Decidable (RoundFails config s verdicts) :=
  inferInstanceAs (Decidable (_ < _))

/-! ## What a round can do -/

/-- What one round does to the score and the status, and what it fires. -/
inductive ScoreStep (config : TrackConfig) (s s' : Tracker) : Bool → List Action → Prop where
  /-- A failed round at or below `up` restarts the count, without an action. -/
  | restart (below : s.score ≤ config.up) (score : s'.score = 0) (status : s'.status = s.status) :
      ScoreStep config s s' false []
  | lose (last : s.score = config.up + 1) (score : s'.score = 0) (status : s'.status = .offline) :
      ScoreStep config s s' false [.disconnected]
  | weaken (above : config.up + 1 < s.score) (score : s'.score = s.score - 1)
      (status : s'.status = .disconnecting) : ScoreStep config s s' false []
  | count (below : s.score + 1 < config.up) (score : s'.score = s.score + 1)
      (status : s'.status = .connecting) : ScoreStep config s s' true []
  | gain (last : s.score + 1 = config.up) (score : s'.score = config.up)
      (status : s'.status = .online) : ScoreStep config s s' true [.connected]
  | refill (above : config.up ≤ s.score) (score : s'.score = config.down + config.up)
      (status : s'.status = .online) : ScoreStep config s s' true []

@[simp]
theorem probeTargets_nil (config : TrackConfig) (s : Tracker) : probeTargets config s [] = s := rfl

@[simp]
theorem probeTargets_cons (config : TrackConfig) (s : Tracker) (verdict : Verdict)
    (rest : List Verdict) :
    probeTargets config s (verdict :: rest) = probeTargets config (probe config s verdict) rest :=
  rfl

theorem probe_frame (config : TrackConfig) (s : Tracker) (verdict : Verdict) :
    (probe config s verdict).score = s.score ∧ (probe config s verdict).status = s.status ∧
      (probe config s verdict).running = s.running := by
  unfold probe
  split
  · cases verdict <;> exact ⟨rfl, rfl, rfl⟩
  · exact ⟨rfl, rfl, rfl⟩

/-- Probing touches neither the score nor the status. -/
theorem probeTargets_frame (config : TrackConfig) (s : Tracker) (verdicts : List Verdict) :
    (probeTargets config s verdicts).score = s.score ∧
      (probeTargets config s verdicts).status = s.status ∧
      (probeTargets config s verdicts).running = s.running := by
  induction verdicts generalizing s with
  | nil => exact ⟨rfl, rfl, rfl⟩
  | cons verdict rest ih =>
      obtain ⟨score, status, running⟩ := probe_frame config s verdict
      rw [probeTargets_cons, ← score, ← status, ← running]
      exact ih (probe config s verdict)

theorem failedRound_step {config : TrackConfig} (upPos : 0 < config.up) (s : Tracker) :
    ScoreStep config s (failedRound config s).1 false (failedRound config s).2 ∧
      (failedRound config s).1.running = s.running := by
  rcases lt_trichotomy (s.score - 1) config.up with below | last | above
  · have zero : ¬ (0 : Int) = config.up := by omega
    have result : failedRound config s =
        ({ s with
            score := 0
            sleepTime :=
              if config.keepFailureInterval then config.failureInterval else s.sleepTime },
          []) := by
      simp [failedRound, below, zero]
    rw [result]
    exact ⟨.restart (by omega) rfl rfl, rfl⟩
  · have result : failedRound config s =
        ({ s with score := 0, status := .offline, sleepTime := config.failureInterval },
          [.disconnected]) := by
      simp [failedRound, last, disconnecting, disconnected, TrackStatus.CountsOnline]
    rw [result]
    exact ⟨.lose (by omega) rfl rfl, rfl⟩
  · have result : failedRound config s =
        ({ s with
            score := s.score - 1
            status := .disconnecting
            sleepTime := config.failureInterval },
          []) := by
      simp [failedRound, above.not_gt, above.ne', disconnecting]
    rw [result]
    exact ⟨.weaken (by omega) rfl rfl, rfl⟩

theorem reportLost_frame (config : TrackConfig) (s : Tracker) :
    (reportLost config s).score = s.score ∧ (reportLost config s).running = s.running := by
  unfold reportLost
  split
  · exact ⟨rfl, rfl⟩
  · exact ⟨rfl, rfl⟩

theorem successfulRound_step {config : TrackConfig} (downPos : 0 < config.down) (s : Tracker) :
    ScoreStep config s (successfulRound config s).1 true (successfulRound config s).2 ∧
      (successfulRound config s).1.running = s.running := by
  obtain ⟨score, running⟩ := reportLost_frame config s
  unfold successfulRound
  generalize reportLost config s = reported at score running
  rcases lt_trichotomy (s.score + 1) config.up with below | last | above
  · simp only [score, gt_iff_lt, below.not_gt, below.le, below.ne, if_true, if_false, connecting]
    exact ⟨.count below rfl rfl, running⟩
  · simp only [score, last, gt_iff_lt, lt_irrefl, le_refl, if_true, if_false, connecting, connected]
    exact ⟨.gain last rfl rfl, running⟩
  · have full : ¬ config.down + config.up = config.up := by omega
    simp only [score, gt_iff_lt, above, full, if_true, if_false]
    exact ⟨.refill (by omega) rfl rfl, running⟩

/-- The relation reads only scores and statuses. -/
theorem ScoreStep.congr {config : TrackConfig} {s s' t t' : Tracker} {succeeded : Bool}
    {fired : List Action} (step : ScoreStep config s s' succeeded fired)
    (score : t.score = s.score) (status : t.status = s.status) (score' : t'.score = s'.score)
    (status' : t'.status = s'.status) : ScoreStep config t t' succeeded fired := by
  cases step with
  | restart below score₀ status₀ =>
      exact .restart (score ▸ below) (score' ▸ score₀) (by rw [status', status₀, status])
  | lose last score₀ status₀ => exact .lose (score ▸ last) (score' ▸ score₀) (status' ▸ status₀)
  | weaken above score₀ status₀ =>
      exact .weaken (score ▸ above) (by rw [score', score₀, score]) (status' ▸ status₀)
  | count below score₀ status₀ =>
      exact .count (score ▸ below) (by rw [score', score₀, score]) (status' ▸ status₀)
  | gain last score₀ status₀ => exact .gain (score ▸ last) (score' ▸ score₀) (status' ▸ status₀)
  | refill above score₀ status₀ =>
      exact .refill (score ▸ above) (score' ▸ score₀) (status' ▸ status₀)

theorem probeLoop_step {config : TrackConfig} (upPos : 0 < config.up) (downPos : 0 < config.down)
    {s : Tracker} (running : s.running = true) (verdicts : List Verdict) :
    ScoreStep config s ((probeLoop config).step s verdicts).1
        (!decide (RoundFails config s verdicts)) ((probeLoop config).step s verdicts).2 ∧
      ((probeLoop config).step s verdicts).1.running = true := by
  obtain ⟨score, status, still⟩ :=
    probeTargets_frame config { s with sleepTime := config.interval } verdicts
  have unfolded : (probeLoop config).step s verdicts =
      let probed := probeTargets config { s with sleepTime := config.interval } verdicts
      let settled :=
        if RoundFails config s verdicts then failedRound config probed
        else successfulRound config probed
      ({ settled.1 with turn := settled.1.turn + 1, hostUpCount := 0 }, settled.2) := by
    simp [probeLoop, trackRound, running, afterSleep, RoundFails]
  rw [unfolded]
  by_cases fails : RoundFails config s verdicts
  · obtain ⟨step, kept⟩ := failedRound_step upPos
      (probeTargets config { s with sleepTime := config.interval } verdicts)
    simp only [fails, if_true, decide_true, Bool.not_true]
    exact ⟨step.congr score.symm status.symm rfl rfl, by rw [kept, still, running]⟩
  · obtain ⟨step, kept⟩ := successfulRound_step downPos
      (probeTargets config { s with sleepTime := config.interval } verdicts)
    simp only [fails, if_false, decide_false, Bool.not_false]
    exact ⟨step.congr score.symm status.symm rfl rfl, by rw [kept, still, running]⟩

/-! ## The invariant -/

/-- What holds between two rounds as long as no round fails right after `connected`. -/
structure Coherent (config : TrackConfig) (s : Tracker) : Prop where
  running : s.running = true
  nonneg : 0 ≤ s.score
  capped : s.score ≤ config.up + config.down
  online_iff : s.status.CountsOnline ↔ config.up ≤ s.score

/-- A `connected` action leaves the score at `up`; the next round must not fail. -/
def Steady (config : TrackConfig) (s : Tracker) (verdicts : List Verdict) : Prop :=
  ¬ (s.score = config.up ∧ RoundFails config s verdicts)

instance (config : TrackConfig) (s : Tracker) (verdicts : List Verdict) :
    Decidable (Steady config s verdicts) :=
  inferInstanceAs (Decidable (¬ (_ ∧ _)))

theorem startTracker_cases (config : TrackConfig) (startStatus fileStatus : TrackStatus) :
    let start := startTracker config startStatus fileStatus
    start.running = true ∧ (start.score = 0 ∧ start.status = .offline ∨
      start.score = config.down + config.up ∧ start.status = .online) := by
  unfold startTracker firstconnect
  split
  · exact ⟨rfl, .inl ⟨rfl, rfl⟩⟩
  · exact ⟨rfl, .inr ⟨rfl, rfl⟩⟩

section

variable {config : TrackConfig} (upPos : 0 < config.up) (downPos : 0 < config.down)

include upPos downPos

theorem startTracker_coherent (startStatus fileStatus : TrackStatus) :
    Coherent config (startTracker config startStatus fileStatus) := by
  obtain ⟨running, ⟨score, status⟩ | ⟨score, status⟩⟩ :=
    startTracker_cases config startStatus fileStatus
  · refine ⟨running, by omega, by omega, ?_⟩
    simp [score, status, TrackStatus.CountsOnline, upPos]
  · refine ⟨running, by omega, by omega, ?_⟩
    simp [score, status, TrackStatus.CountsOnline, downPos.le]

theorem ScoreStep.coherent {s s' : Tracker} {succeeded : Bool} {fired : List Action}
    (step : ScoreStep config s s' succeeded fired) (coherent : Coherent config s)
    (steady : ¬ (s.score = config.up ∧ succeeded = false)) (running : s'.running = true) :
    Coherent config s' := by
  obtain ⟨-, nonneg, capped, online_iff⟩ := coherent
  cases step with
  | restart below score status =>
      have lower : s.score ≠ config.up := fun equal => steady ⟨equal, rfl⟩
      refine ⟨running, by omega, by omega, ?_⟩
      rw [status, score, online_iff]
      omega
  | lose last score status =>
      refine ⟨running, by omega, by omega, ?_⟩
      simp [status, score, TrackStatus.CountsOnline, upPos]
  | weaken above score status =>
      refine ⟨running, by omega, by omega, ?_⟩
      have still : config.up ≤ s.score - 1 := by omega
      simp [status, score, TrackStatus.CountsOnline, still]
  | count below score status =>
      refine ⟨running, by omega, by omega, ?_⟩
      simp [status, score, TrackStatus.CountsOnline, below]
  | gain last score status =>
      refine ⟨running, by omega, by omega, ?_⟩
      simp [status, score, TrackStatus.CountsOnline]
  | refill above score status =>
      refine ⟨running, by omega, by omega, ?_⟩
      simp [status, score, TrackStatus.CountsOnline, downPos.le]

theorem probeLoop_coherent (s : Tracker) (verdicts : List Verdict) (coherent : Coherent config s)
    (steady : Steady config s verdicts) :
    Coherent config ((probeLoop config).step s verdicts).1 := by
  obtain ⟨step, running⟩ := probeLoop_step upPos downPos coherent.running verdicts
  exact step.coherent upPos downPos coherent (by simpa [Steady] using steady) running

/-! ## The thresholds -/

/-- Every action announces a change between below `up` and at least `up`. -/
theorem ScoreStep.changes {s s' : Tracker} {succeeded : Bool} {fired : List Action}
    (step : ScoreStep config s s' succeeded fired)
    (steady : ¬ (s.score = config.up ∧ succeeded = false)) :
    fired = [] ∧ decide (config.up ≤ s'.score) = decide (config.up ≤ s.score) ∨
      ∃ action, fired = [action] ∧
        decide (action = .connected) = !decide (config.up ≤ s.score) ∧
        decide (config.up ≤ s'.score) = !decide (config.up ≤ s.score) := by
  cases step with
  | restart below score status =>
      have lower : s.score ≠ config.up := fun equal => steady ⟨equal, rfl⟩
      exact .inl ⟨rfl, decide_eq_decide.mpr (by omega)⟩
  | lose last score status =>
      exact .inr ⟨.disconnected, rfl, by simp [last], by simp [score, last, upPos]⟩
  | weaken above score status => exact .inl ⟨rfl, decide_eq_decide.mpr (by omega)⟩
  | count below score status => exact .inl ⟨rfl, decide_eq_decide.mpr (by omega)⟩
  | gain last score status =>
      have lower : s.score < config.up := by omega
      exact .inr ⟨.connected, rfl, by simp [lower], by simp [score, lower]⟩
  | refill above score status => exact .inl ⟨rfl, decide_eq_decide.mpr (by omega)⟩

theorem probeLoop_alternates {s : Tracker} (coherent : Coherent config s)
    (rounds : List (List Verdict)) (steady : (probeLoop config).AllSteps (Steady config) s rounds) :
    ((probeLoop config).emitted s rounds).IsChain (· ≠ ·) := by
  have alternates := (probeLoop config).emitted_alternates
    (fun s => decide (config.up ≤ s.score)) (fun action => decide (action = .connected))
    (probeLoop_coherent upPos downPos)
    (fun s verdicts coherent steady =>
      (probeLoop_step upPos downPos coherent.running verdicts).1.changes upPos downPos
        (by simpa [Steady] using steady))
    coherent rounds steady
  refine alternates.1.imp fun first second differ equal => ?_
  exact differ (by rw [equal])

/-- A score up to `up` counts the successful rounds that the past ends with. -/
def Counted (config : TrackConfig) (past : List (Entry Tracker (List Verdict) Action))
    (s : Tracker) : Prop :=
  s.score ≤ config.up → ∃ before successes, past = before ++ successes ∧
    (successes.length : Int) = s.score ∧ ∀ e ∈ successes, ¬ RoundFails config e.before e.input

omit upPos in
theorem ScoreStep.counted {s s' : Tracker} {succeeded : Bool} {fired : List Action}
    (step : ScoreStep config s s' succeeded fired)
    {past : List (Entry Tracker (List Verdict) Action)} (counted : Counted config past s)
    {entry : Entry Tracker (List Verdict) Action}
    (outcome : succeeded = true → ¬ RoundFails config entry.before entry.input) :
    Counted config (past ++ [entry]) s' := by
  -- Below `up` a success prolongs the block that the past ends with.
  have prolong : succeeded = true → s.score ≤ config.up → s'.score = s.score + 1 →
      Counted config (past ++ [entry]) s' := by
    intro good atMost score _
    obtain ⟨before, successes, split, length, all⟩ := counted atMost
    refine ⟨before, successes ++ [entry], by rw [split, List.append_assoc], ?_, ?_⟩
    · rw [score, List.length_append, Nat.cast_add, length]
      rfl
    · intro e member
      rcases List.mem_append.mp member with old | new
      · exact all e old
      · rw [List.mem_singleton.mp new]
        exact outcome good
  have fresh : s'.score = 0 → Counted config (past ++ [entry]) s' := by
    intro score _
    exact ⟨past ++ [entry], [], (List.append_nil _).symm, score.symm, by simp⟩
  cases step with
  | restart below score status => exact fresh score
  | lose last score status => exact fresh score
  | weaken above score status =>
      intro atMost
      omega
  | count below score status => exact prolong rfl (by omega) score
  | gain last score status => exact prolong rfl (by omega) (by omega)
  | refill above score status =>
      intro atMost
      exact absurd atMost (by omega)

theorem probeLoop_counted (startStatus fileStatus : TrackStatus) (rounds : List (List Verdict)) :
    let start := startTracker config startStatus fileStatus
    ((probeLoop config).final start rounds).running = true ∧
      Counted config ((probeLoop config).trace start rounds)
        ((probeLoop config).final start rounds) := by
  obtain ⟨running, cases⟩ := startTracker_cases config startStatus fileStatus
  have start : Counted config [] (startTracker config startStatus fileStatus) := by
    intro atMost
    obtain ⟨score, -⟩ | ⟨score, -⟩ := cases
    · exact ⟨[], [], rfl, score.symm, by simp⟩
    · omega
  refine (probeLoop config).history_invariant (fun _ _ => True)
    (fun past s => s.running = true ∧ Counted config past s) ⟨running, start⟩ ?_ rounds
    (fun _ _ => trivial)
  rintro past now verdicts ⟨running, counted⟩ -
  obtain ⟨step, still⟩ := probeLoop_step upPos downPos running verdicts
  exact ⟨still, step.counted downPos counted (by simp [Transducer.entry])⟩

omit upPos downPos in
theorem ScoreStep.failed {s s' : Tracker} {fired : List Action}
    (step : ScoreStep config s s' false fired) :
    s.score ≤ config.up ∨ .disconnected ∈ fired ∨
      config.up < s'.score ∧ s'.score = s.score - 1 := by
  cases step with
  | restart below score status => exact .inl below
  | lose last score status => exact .inr (.inl (List.mem_singleton.mpr rfl))
  | weaken above score status => exact .inr (.inr ⟨by omega, score⟩)

omit upPos downPos in
theorem ScoreStep.connected {s s' : Tracker} {succeeded : Bool} {fired : List Action}
    (step : ScoreStep config s s' succeeded fired) (connected : .connected ∈ fired) :
    s'.score = config.up := by
  cases step with
  | gain last score status => exact score
  | lose last score status => simp at connected
  | restart below score status => simp at connected
  | weaken above score status => simp at connected
  | count below score status => simp at connected
  | refill above score status => simp at connected

/-- `down` rounds that all fail end an interface that is online. -/
theorem probeLoop_gives_up (rounds : List (List Verdict)) {s : Tracker}
    (running : s.running = true)
    (fails : (probeLoop config).AllSteps (RoundFails config) s rounds)
    (online : config.up < s.score) (enough : s.score ≤ config.up + rounds.length) :
    .disconnected ∈ (probeLoop config).emitted s rounds := by
  induction rounds generalizing s with
  | nil =>
      rw [List.length_nil, Nat.cast_zero] at enough
      omega
  | cons verdicts rest ih =>
      obtain ⟨here, later⟩ := ((probeLoop config).allSteps_cons _ _ _ _).mp fails
      obtain ⟨step, still⟩ := probeLoop_step upPos downPos running verdicts
      rw [List.length_cons, Nat.cast_succ] at enough
      simp only [here, decide_true, Bool.not_true] at step
      rw [Transducer.emitted_cons, List.mem_append]
      rcases step.failed with below | fired | ⟨above, score⟩
      · omega
      · exact .inl fired
      · exact .inr (ih still later above (by omega))

end

/-- The thresholds over a whole trace: the actions alternate, `connected` ends at
least `up` successful rounds, and `down` failed rounds of an interface that counts
as online fire `disconnected`. -/
structure HonoursThresholds (config : TrackConfig)
    (run : List (Entry Tracker (List Verdict) Action)) : Prop where
  alternate : (run.flatMap Entry.emitted).IsChain (· ≠ ·)
  connectedAfter : ∀ earlier entry later, run = earlier ++ entry :: later →
    .connected ∈ entry.emitted → ∃ before successes, earlier ++ [entry] = before ++ successes ∧
      config.up ≤ successes.length ∧ ∀ e ∈ successes, ¬ RoundFails config e.before e.input
  disconnectedBy : ∀ earlier failures later, run = earlier ++ failures ++ later →
    (failures.length : Int) = config.down →
      (∀ e ∈ failures, RoundFails config e.before e.input) →
        (∀ e ∈ failures.head?, e.before.status.CountsOnline) →
          .disconnected ∈ failures.flatMap Entry.emitted

/-- Every run in which no round fails right after `connected` honours the thresholds. -/
theorem probeLoop_honours_thresholds (config : TrackConfig) (upPos : 0 < config.up)
    (downPos : 0 < config.down) (startStatus fileStatus : TrackStatus)
    (rounds : List (List Verdict))
    (steady : (probeLoop config).AllSteps (Steady config)
      (startTracker config startStatus fileStatus) rounds) :
    HonoursThresholds config
      ((probeLoop config).trace (startTracker config startStatus fileStatus) rounds) := by
  have coherent := startTracker_coherent upPos downPos startStatus fileStatus
  have counted := probeLoop_counted upPos downPos startStatus fileStatus
  generalize startTracker config startStatus fileStatus = start at coherent counted steady
  constructor
  · exact probeLoop_alternates upPos downPos coherent rounds steady
  · intro earlier entry later split fired
    obtain ⟨first, second, -, rfl, rest⟩ := (probeLoop config).trace_eq_append _ _ split
    obtain ⟨running, -⟩ := counted first
    cases second with
    | nil => simp at rest
    | cons verdicts others =>
        rw [Transducer.trace_cons, List.cons.injEq] at rest
        obtain ⟨rfl, -⟩ := rest
        have score := (probeLoop_step upPos downPos running verdicts).1.connected fired
        obtain ⟨-, block⟩ := counted (first ++ [verdicts])
        rw [Transducer.final_append, Transducer.trace_append] at block
        obtain ⟨before, successes, split, length, all⟩ := block score.le
        exact ⟨before, successes, split, (length.trans score).ge, all⟩
  · intro earlier failures later split length fails online
    rw [List.append_assoc] at split
    obtain ⟨first, second, rfl, rfl, rest⟩ := (probeLoop config).trace_eq_append _ _ split
    obtain ⟨third, fourth, rfl, rfl, -⟩ := (probeLoop config).trace_eq_append _ _ rest.symm
    obtain ⟨early, steady⟩ := ((probeLoop config).allSteps_append _ _ _ _).mp steady
    obtain ⟨steady, -⟩ := ((probeLoop config).allSteps_append _ _ _ _).mp steady
    have reached := (probeLoop config).final_invariant
      (probeLoop_coherent upPos downPos) coherent early
    rw [Transducer.trace_length] at length
    cases third with
    | nil =>
        rw [List.length_nil, Nat.cast_zero] at length
        omega
    | cons verdicts others =>
        have counts := online _ rfl
        have above := reached.online_iff.mp counts
        have firstFails := fails _ List.mem_cons_self
        have notAt : ((probeLoop config).final start first).score ≠ config.up :=
          fun equal => steady _ List.mem_cons_self ⟨equal, firstFails⟩
        have capped := reached.capped
        exact probeLoop_gives_up upPos downPos _ reached.running fails (by omega) (by omega)

theorem probeLoop_honours_thresholds_default :
    HonoursThresholds defaultConfig
      ((probeLoop defaultConfig).trace (startTracker defaultConfig .offline .notracking)
        (List.replicate 6 [.up] ++ List.replicate 5 [.down])) :=
  probeLoop_honours_thresholds defaultConfig (by decide) (by decide) .offline .notracking _
    (by unfold Transducer.AllSteps; decide)

/-- A failure in the round after `connected` is forgotten: five more failures fire
nothing, and five more successes fire `connected` again. -/
theorem probeLoop_misses_thresholds :
    ¬ HonoursThresholds defaultConfig
      ((probeLoop defaultConfig).trace (startTracker defaultConfig .offline .notracking)
        (List.replicate 5 [.up] ++ List.replicate 5 [.down] ++ List.replicate 5 [.up])) := by
  intro honours
  have alternate := honours.alternate
  have fired : (probeLoop defaultConfig).emitted
      (startTracker defaultConfig .offline .notracking)
      (List.replicate 5 [.up] ++ List.replicate 5 [.down] ++ List.replicate 5 [.up]) =
        [.connected, .connected] := by
    decide
  rw [Transducer.emitted] at fired
  rw [fired] at alternate
  simp at alternate

end XWrt.Mwan3
