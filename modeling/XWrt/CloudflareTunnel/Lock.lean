import Mathlib.Logic.Function.Basic
import XWrt.Foundation.Transducer

/-!
# The lock of the runtime

`lock`, `M.deploy`, `M.stop`, `M.queued` and `worker` of `runtime.lua` as
processes that share a lock directory and a job file. A process takes one
file-system step at a time, and between two steps anything may happen: other
processes step, time passes, processes start and die. The job file is replaced
by a rename, so a reader sees one whole job.
-/

namespace XWrt.CloudflareTunnel

open Foundation

abbrev Pid := ℕ

/-- The callers of `lock`: `M.deploy` in the background and in the foreground, and `M.stop`. -/
inductive Command
  | deploy
  | foreground
  | stop
  deriving DecidableEq, Repr

inductive JobPhase
  | deploying
  | ready
  | connecting
  | error
  | stopped
  deriving DecidableEq, Repr

/-- What the lock's code reads of the job file; an absent or broken file has no fields. -/
structure Job where
  phase : Option JobPhase := none
  pid : Option Pid := none
  deriving DecidableEq, Repr

/-- Where a process stands: before which of its steps. -/
inductive Control
  /-- `lock`: the first `mkdir` -/
  | entering (command : Command)
  /-- `read_json(JOB)` -/
  | reading (command : Command)
  /-- `fs.stat(LOCK)` -/
  | statting (command : Command) (job : Job)
  /-- the checks of the age and the job -/
  | judging (command : Command) (job : Job) (mtime : Option ℕ)
  /-- `fs.rmdir(LOCK)` of a lock taken for stale -/
  | clearing (command : Command)
  /-- the second `mkdir` -/
  | reentering (command : Command)
  /-- the work of `M.deploy` or `M.stop` up to the job it writes -/
  | owning (command : Command)
  /-- `M.deploy` in the background: the first `fork` -/
  | forking
  /-- `nixio.waitpid` -/
  | waiting
  /-- the child: the second `fork` -/
  | forked
  /-- `M.queued`: `fs.stat(LOCK)`, after the handoff or started by hand -/
  | summoned (handed : Bool)
  /-- `M.queued`: `read_json(JOB).phase` -/
  | checking (handed : Bool)
  /-- `worker` inside `core.deploy` -/
  | working (foreground : Bool)
  /-- `worker`: the last job it writes -/
  | reporting (foreground ok : Bool)
  /-- `worker`: `fs.rmdir(LOCK)` -/
  | leaving (foreground ok : Bool)
  /-- `M.deploy` after a failure, or `M.stop`: `fs.rmdir(LOCK)` -/
  | releasing
  /-- `M.deploy` in the foreground after the worker failed: its own `fs.rmdir(LOCK)` -/
  | undoing
  /-- not running -/
  | gone
  deriving DecidableEq, Repr

/-- The process is between taking the lock, itself or by handoff, and giving it up. -/
def Control.holds : Control → Bool
  | .owning _ | .forking | .forked | .summoned true | .checking true => true
  | .working _ | .reporting _ _ | .leaving _ _ | .releasing => true
  | _ => false

structure Machine where
  /-- the modification time of the lock directory -/
  lock : Option ℕ
  job : Job
  clock : ℕ
  procs : Pid → Control

/-- What the surroundings decide about one step. -/
structure Luck where
  /-- the call fails -/
  fault : Bool := false
  /-- the worker's deployment ends here -/
  last : Bool := false
  /-- the deployment found the tunnel connected -/
  connected : Bool := true
  /-- the process id of a child -/
  child : Pid := 0
  /-- a dead process's id is in use again by a command of the plugin -/
  reused : Bool := false
  deriving DecidableEq, Repr

inductive Move
  | start (pid : Pid) (command : Command)
  /-- `cloudflare-tunnel worker` run by hand -/
  | summon (pid : Pid)
  | run (pid : Pid) (luck : Luck)
  | die (pid : Pid)
  | elapse (seconds : ℕ)
  deriving DecidableEq, Repr

namespace Machine

/-- `active_job` -/
def activeJob (m : Machine) (job : Job) (reused : Bool) : Bool :=
  job.pid.any fun pid => 1 < pid && (m.procs pid != .gone || reused)

def goto (m : Machine) (pid : Pid) (next : Control) : Machine :=
  { m with procs := Function.update m.procs pid next }

def mkdir (m : Machine) (pid : Pid) (fault : Bool) (won lost : Control) : Machine :=
  if m.lock.isNone && !fault then { m with lock := some m.clock }.goto pid won else m.goto pid lost

def rmdir (m : Machine) (pid : Pid) (fault : Bool) (next : Control) : Machine :=
  { m with lock := if fault then m.lock else none }.goto pid next

/-- `job_status` -/
def writeJob (m : Machine) (pid : Pid) (fault : Bool) (job : Job) (next failed : Control) : Machine :=
  if fault then m.goto pid failed else { m with job := job }.goto pid next

def fork (m : Machine) (pid : Pid) (luck : Luck) (child next failed : Control) : Machine :=
  if luck.fault || luck.child == pid || m.procs luck.child != .gone then m.goto pid failed
  else (m.goto pid next).goto luck.child child

/-- The next step of a process. -/
def run (m : Machine) (pid : Pid) (luck : Luck) : Machine :=
  match m.procs pid with
  | .entering command => m.mkdir pid luck.fault (.owning command) (.reading command)
  | .reading command => m.goto pid (.statting command m.job)
  | .statting command job => m.goto pid (.judging command job m.lock)
  | .judging command job mtime =>
      if mtime.any (fun mtime => m.clock < mtime + 10) || (job.phase == some .deploying && m.activeJob job luck.reused) then
        m.goto pid .gone
      else m.goto pid (.clearing command)
  | .clearing command => m.rmdir pid luck.fault (.reentering command)
  | .reentering command => m.mkdir pid luck.fault (.owning command) .gone
  | .owning .deploy => m.writeJob pid luck.fault { phase := some .deploying, pid := some pid } .forking .releasing
  | .owning .foreground => m.writeJob pid luck.fault { phase := some .deploying, pid := some pid } (.working true) .releasing
  | .owning .stop => m.writeJob pid luck.fault { phase := some .stopped } .releasing .releasing
  | .forking => m.fork pid luck .forked .waiting .releasing
  | .waiting => m.goto pid .gone
  | .forked => m.fork pid luck (.summoned true) .gone .gone
  | .summoned handed => m.goto pid (if m.lock.isSome then .checking handed else .gone)
  | .checking _ =>
      m.goto pid (if m.job.phase == some .deploying && !luck.fault then .working false else .gone)
  | .working foreground =>
      if luck.last then m.goto pid (.reporting foreground !luck.fault)
      else
        m.writeJob pid luck.fault { phase := some .deploying, pid := some pid } (.working foreground)
          (.reporting foreground false)
  | .reporting foreground ok =>
      let phase := if ok then if luck.connected then .ready else .connecting else .error
      -- Only a foreground deployment is inside a `pcall` that still releases the lock.
      m.writeJob pid luck.fault { phase := some phase } (.leaving foreground ok) (if foreground then .releasing else .gone)
  | .leaving foreground ok => m.rmdir pid luck.fault (if foreground && !ok then .undoing else .gone)
  | .releasing => m.rmdir pid luck.fault .gone
  | .undoing => m.rmdir pid luck.fault .gone
  | .gone => m

def step (m : Machine) : Move → Machine
  | .start pid command => if m.procs pid = .gone then m.goto pid (.entering command) else m
  | .summon pid => if m.procs pid = .gone then m.goto pid (.summoned false) else m
  | .run pid luck => m.run pid luck
  | .die pid => m.goto pid .gone
  | .elapse seconds => { m with clock := m.clock + seconds }

/-- The moves of all processes, interleaved in any order. -/
def system : Transducer Machine Move Empty := ⟨fun m move => (m.step move, [])⟩

/-! ## Holding the lock -/

def Holds (m : Machine) (pid : Pid) : Prop := (m.procs pid).holds = true

/-- At most one live process holds the lock, and only while the directory is there. -/
structure Exclusive (m : Machine) : Prop where
  single : ∀ first second, m.Holds first → m.Holds second → first = second
  locked : ∀ pid, m.Holds pid → m.lock ≠ none

/-- No process but this one holds the lock. -/
def Unheld (m : Machine) (pid : Pid) : Prop := ∀ other, other ≠ pid → ¬m.Holds other

@[simp]
theorem goto_lock (m : Machine) (pid : Pid) (next : Control) : (m.goto pid next).lock = m.lock := rfl

theorem holds_goto (m : Machine) (pid other : Pid) (next : Control) :
    (m.goto pid next).Holds other ↔ if other = pid then next.holds = true else m.Holds other := by
  unfold Holds goto
  by_cases same : other = pid
  · subst same
    simp
  · simp [same]

theorem Exclusive.unheld {m : Machine} {pid : Pid} (exclusive : m.Exclusive) (holds : m.Holds pid) : m.Unheld pid :=
  fun other apart held => apart (exclusive.single other pid held holds)

/-- A lock that is free has no holder. -/
theorem Exclusive.unheld_of_free {m : Machine} (exclusive : m.Exclusive) (free : m.lock = none) (pid : Pid) : m.Unheld pid :=
  fun other _ held => exclusive.locked other held free

/-- A process on its own may go anywhere, with the lock if it is to hold it. -/
theorem exclusive_alone {m : Machine} {pid : Pid} {next : Control} (unheld : m.Unheld pid)
    (locked : next.holds = true → m.lock ≠ none) : (m.goto pid next).Exclusive := by
  have only : ∀ other, (m.goto pid next).Holds other → other = pid ∧ next.holds = true := by
    intro other held
    rw [holds_goto] at held
    split at held
    next same => exact ⟨same, held⟩
    next apart => exact absurd held (unheld other apart)
  constructor
  · intro first second one two
    rw [(only first one).1, (only second two).1]
  · intro other held
    exact locked (only other held).2

/-- A process may go where it holds no more than it did. -/
theorem Exclusive.goto {m : Machine} {pid : Pid} {next : Control} (exclusive : m.Exclusive)
    (less : next.holds = true → m.Holds pid) : (m.goto pid next).Exclusive := by
  have before : ∀ other, (m.goto pid next).Holds other → m.Holds other := by
    intro other held
    rw [holds_goto] at held
    split at held
    next same => exact same ▸ less held
    next => exact held
  exact ⟨fun first second one two => exclusive.single first second (before first one) (before second two),
    fun other held => exclusive.locked other (before other held)⟩

theorem Exclusive.of_same {m : Machine} (exclusive : m.Exclusive) (other : Machine) (procs : other.procs = m.procs)
    (lock : other.lock = m.lock) : other.Exclusive := by
  have same : ∀ pid, other.Holds pid ↔ m.Holds pid := fun pid => by rw [Holds, Holds, procs]
  exact ⟨fun first second one two => exclusive.single first second ((same first).mp one) ((same second).mp two),
    fun pid held => lock ▸ exclusive.locked pid ((same pid).mp held)⟩

/-! ## What each call keeps -/

theorem Exclusive.mkdir {m : Machine} {pid : Pid} {fault : Bool} {won lost : Control} (exclusive : m.Exclusive)
    (quiet : lost.holds = false) : (m.mkdir pid fault won lost).Exclusive := by
  unfold Machine.mkdir
  split
  next made =>
      rw [Bool.and_eq_true, Option.isNone_iff_eq_none] at made
      refine exclusive_alone (fun other apart held => exclusive.unheld_of_free made.1 pid other apart held) fun _ => ?_
      simp
  next => exact exclusive.goto (by simp [quiet])

/-- A directory is removed safely when nobody else relies on it. -/
theorem Exclusive.rmdir {m : Machine} {pid : Pid} {fault : Bool} {next : Control} (exclusive : m.Exclusive)
    (unheld : fault = false → m.Unheld pid) (quiet : next.holds = false) : (m.rmdir pid fault next).Exclusive := by
  unfold Machine.rmdir
  cases fault with
  | true => exact (exclusive.of_same _ rfl rfl).goto (by simp [quiet])
  | false => exact exclusive_alone (unheld rfl) (by simp [quiet])

theorem Exclusive.writeJob {m : Machine} {pid : Pid} {fault : Bool} {job : Job} {next failed : Control}
    (exclusive : m.Exclusive) (holds : m.Holds pid) : (m.writeJob pid fault job next failed).Exclusive := by
  unfold Machine.writeJob
  split
  · exact exclusive.goto fun _ => holds
  · exact (exclusive.of_same { m with job := job } rfl rfl).goto fun _ => holds

/-- A parent that holds the lock hands it to its child. -/
theorem Exclusive.fork {m : Machine} {pid : Pid} {luck : Luck} {child next failed : Control} (exclusive : m.Exclusive)
    (holds : m.Holds pid) (given : next.holds = false) : (m.fork pid luck child next failed).Exclusive := by
  unfold Machine.fork
  split
  · exact exclusive.goto fun _ => holds
  · refine exclusive_alone (fun other _ held => ?_) fun _ => exclusive.locked pid holds
    rw [holds_goto] at held
    split at held
    next => simp [given] at held
    next apart => exact exclusive.unheld holds other apart held

/-! ## Whole runs -/

/-- The move does not reach the two defects of the code: a lock directory is removed by one who
does not hold it while another live process does, and a worker that was not handed the lock
goes to work without it being there and free. -/
def Orderly (m : Machine) : Move → Prop
  | .run pid luck =>
      match m.procs pid with
      | .clearing _ | .undoing => luck.fault = false → m.Unheld pid
      | .checking false =>
          luck.fault = false → m.job.phase = some .deploying → m.lock ≠ none ∧ m.Unheld pid
      | _ => True
  | _ => True

theorem Exclusive.run {m : Machine} {pid : Pid} {luck : Luck} (exclusive : m.Exclusive) (orderly : m.Orderly (.run pid luck)) :
    (m.run pid luck).Exclusive := by
  unfold Orderly at orderly
  unfold Machine.run
  cases control : m.procs pid with
  | entering command => exact exclusive.mkdir rfl
  | reading command => exact exclusive.goto nofun
  | statting command job => exact exclusive.goto nofun
  | judging command job mtime =>
      simp only
      split
      · exact exclusive.goto nofun
      · exact exclusive.goto nofun
  | clearing command =>
      simp only [control] at orderly
      exact exclusive.rmdir orderly rfl
  | reentering command => exact exclusive.mkdir rfl
  | owning command =>
      have holds : m.Holds pid := by simp [Holds, control, Control.holds]
      cases command with
      | deploy => exact exclusive.writeJob holds
      | foreground => exact exclusive.writeJob holds
      | stop => exact exclusive.writeJob holds
  | forking => exact exclusive.fork (by simp [Holds, control, Control.holds]) rfl
  | waiting => exact exclusive.goto nofun
  | forked => exact exclusive.fork (by simp [Holds, control, Control.holds]) rfl
  | summoned handed =>
      simp only
      refine exclusive.goto fun holds => ?_
      cases handed with
      | true => simp [Holds, control, Control.holds]
      | false =>
          split at holds
          · cases holds
          · cases holds
  | checking handed =>
      simp only
      cases handed with
      | true => exact exclusive.goto fun _ => by simp [Holds, control, Control.holds]
      | false =>
          split
          next passed =>
              simp only [control] at orderly
              simp only [Bool.and_eq_true, beq_iff_eq, Bool.not_eq_true'] at passed
              obtain ⟨locked, unheld⟩ := orderly passed.2 passed.1
              exact exclusive_alone unheld fun _ => locked
          next => exact exclusive.goto nofun
  | working foreground =>
      have holds : m.Holds pid := by simp [Holds, control, Control.holds]
      simp only
      split
      · exact exclusive.goto fun _ => holds
      · exact exclusive.writeJob holds
  | reporting foreground ok => exact exclusive.writeJob (by simp [Holds, control, Control.holds])
  | leaving foreground ok =>
      refine exclusive.rmdir (fun _ => exclusive.unheld (by simp [Holds, control, Control.holds])) ?_
      split
      · rfl
      · rfl
  | releasing => exact exclusive.rmdir (fun _ => exclusive.unheld (by simp [Holds, control, Control.holds])) rfl
  | undoing =>
      simp only [control] at orderly
      exact exclusive.rmdir orderly rfl
  | gone => exact exclusive

theorem Exclusive.step {m : Machine} {move : Move} (exclusive : m.Exclusive) (orderly : m.Orderly move) :
    (m.step move).Exclusive := by
  cases move with
  | start pid command =>
      rw [Machine.step]
      split
      · exact exclusive.goto nofun
      · exact exclusive
  | summon pid =>
      rw [Machine.step]
      split
      · exact exclusive.goto nofun
      · exact exclusive
  | run pid luck => exact exclusive.run orderly
  | die pid => exact exclusive.goto nofun
  | elapse seconds => exact exclusive.of_same _ rfl rfl

/-- The system before any process runs, whatever an earlier one left behind. -/
theorem exclusive_of_no_process {m : Machine} (quiet : ∀ pid, m.procs pid = .gone) : m.Exclusive := by
  have nobody : ∀ pid, ¬m.Holds pid := fun pid => by simp [Holds, quiet pid, Control.holds]
  exact ⟨fun first _ one => absurd one (nobody first), fun pid held => absurd held (nobody pid)⟩

/-- In every orderly run, two live processes never hold the lock at once. -/
theorem orderly_runs_exclude {m : Machine} (quiet : ∀ pid, m.procs pid = .gone) (moves : List Move)
    (orderly : system.AllSteps Orderly m moves) (first second : Pid)
    (one : (system.final m moves).Holds first) (two : (system.final m moves).Holds second) : first = second :=
  (system.final_invariant (fun _ _ exclusive orderly => Exclusive.step exclusive orderly)
    (exclusive_of_no_process quiet) orderly).single first second one two

/-! ## A disorderly step -/

/-- Two live processes hold the lock. -/
def Broken (m : Machine) : Prop := ∃ first second, first ≠ second ∧ m.Holds first ∧ m.Holds second

/-- Past the removal of a lock that someone relies on, one more `mkdir` gives it a second holder. -/
theorem broken_of_mkdir {m : Machine} {pid other : Pid} {won lost : Control} (free : m.lock = none) (apart : other ≠ pid)
    (held : m.Holds other) (holds : won.holds = true) : (m.mkdir pid false won lost).Broken := by
  have made : m.mkdir pid false won lost = { m with lock := some m.clock }.goto pid won := by simp [Machine.mkdir, free]
  rw [made]
  refine ⟨pid, other, apart.symm, ?_, ?_⟩
  · rw [holds_goto, if_pos rfl]
    exact holds
  · rw [holds_goto, if_neg apart]
    exact held

theorem broken_of_start {m : Machine} (pid other : Pid) (gone : m.procs pid = .gone) (free : m.lock = none)
    (apart : other ≠ pid) (held : m.Holds other) : (system.final m [.start pid .stop, .run pid {}]).Broken := by
  have started : system.final m [.start pid .stop, .run pid {}] =
      (m.goto pid (.entering .stop)).mkdir pid false (.owning .stop) (.reading .stop) := by
    simp [system, Machine.step, Machine.run, gone, Machine.goto]
  rw [started]
  refine broken_of_mkdir free apart ?_ rfl
  rw [holds_goto, if_neg apart]
  exact held

/-- No weaker condition on the steps would do: as long as a process can be started, every step
that is not orderly can be followed by steps that let two processes hold the lock. -/
theorem broken_of_disorder {m : Machine} {move : Move} (disorder : ¬m.Orderly move)
    (spare : ∃ pid, m.procs pid = .gone) : ∃ moves, (system.final (m.step move) moves).Broken := by
  cases move with
  | run pid luck =>
      unfold Orderly at disorder
      simp only [Machine.step, Machine.run]
      cases control : m.procs pid with
      | clearing command =>
          simp only [control, Unheld, not_forall, Classical.not_not] at disorder
          obtain ⟨works, other, apart, held⟩ := disorder
          have cleared : m.rmdir pid luck.fault (.reentering command) =
              { m with lock := none }.goto pid (.reentering command) := by simp [Machine.rmdir, works]
          refine ⟨[.run pid {}], ?_⟩
          have taken : system.final ({ m with lock := none }.goto pid (.reentering command)) [.run pid {}] =
              ({ m with lock := none }.goto pid (.reentering command)).mkdir pid false (.owning command) .gone := by
            simp [system, Machine.step, Machine.run, Machine.goto]
          simp only [cleared, taken]
          refine broken_of_mkdir rfl apart ?_ rfl
          rw [holds_goto, if_neg apart]
          exact held
      | undoing =>
          simp only [control, Unheld, not_forall, Classical.not_not] at disorder
          obtain ⟨works, other, apart, held⟩ := disorder
          have undone : m.rmdir pid luck.fault .gone = { m with lock := none }.goto pid .gone := by
            simp [Machine.rmdir, works]
          simp only [undone]
          refine ⟨_, broken_of_start pid _ (by simp [Machine.goto]) rfl apart ?_⟩
          rw [holds_goto, if_neg apart]
          exact held
      | checking handed =>
          cases handed with
          | true => simp [control] at disorder
          | false =>
              simp only [control, not_forall, not_and_or] at disorder
              obtain ⟨works, deploying, bad⟩ := disorder
              have passed : (if m.job.phase == some .deploying && !luck.fault then Control.working false else .gone) =
                  .working false := by simp [works, deploying]
              simp only [passed]
              rcases bad with free | held
              · obtain ⟨spare, gone⟩ := spare
                have apart : pid ≠ spare := fun same => by rw [same, gone] at control; cases control
                refine ⟨_, broken_of_start spare pid ?_ (Classical.not_not.mp free) apart ?_⟩
                · simp [Machine.goto, apart.symm, gone]
                · rw [holds_goto, if_pos rfl]
                  rfl
              · simp only [Unheld, not_forall, Classical.not_not] at held
                obtain ⟨other, apart, held⟩ := held
                refine ⟨[], pid, other, apart.symm, ?_, ?_⟩
                · rw [Transducer.final_nil, holds_goto, if_pos rfl]
                  rfl
                · rw [Transducer.final_nil, holds_goto, if_neg apart]
                  exact held
      | _ => simp [control] at disorder
  | _ => exact absurd trivial disorder

/-! ## Runs from the start -/

def idle : Machine := { lock := none, job := {}, clock := 0, procs := fun _ => .gone }

/-- A deployment dies with the lock, and a stop takes it over. -/
def takeover : List Move :=
  [.start 2 .deploy, .run 2 {}, .run 2 {}, .die 2, .elapse 10, .start 3 .stop, .run 3 {}, .run 3 {}, .run 3 {}, .run 3 {},
    .run 3 {}, .run 3 {}]

theorem orderly_runs_exclude_takeover :
    (system.final idle takeover).Holds 3 ∧ ¬(system.final idle takeover).Holds 2 := by
  have dead : ({ idle with lock := some 0, job := { phase := some .deploying, pid := some 2 }, clock := 10 }.goto 3
      (.clearing .stop)).Unheld 3 := by
    intro other apart held
    rw [holds_goto, if_neg apart] at held
    cases held
  have orderly : system.AllSteps Orderly idle takeover := by
    simpa [takeover, system, idle, Machine.step, Machine.run, Machine.goto, Machine.mkdir, Machine.rmdir, Machine.writeJob,
      Machine.activeJob, Orderly] using dead
  have held : (system.final idle takeover).Holds 3 := by
    unfold Holds
    decide
  refine ⟨held, fun other => ?_⟩
  exact absurd (orderly_runs_exclude (fun _ => rfl) takeover orderly 3 2 held other) (by decide)

/-- Two processes find the same stale lock; the slower one removes the lock of the faster. -/
def race : List Move :=
  [.start 2 .deploy, .run 2 {}, .die 2, .elapse 10, .start 3 .deploy, .start 4 .stop, .run 3 {}, .run 4 {}, .run 3 {}, .run 4 {},
    .run 3 {}, .run 4 {}, .run 3 {}, .run 4 {}, .run 3 {}, .run 3 {}, .run 4 {}, .run 4 {}]

theorem stale_lock_is_taken_twice :
    ¬∀ moves first second, (system.final idle moves).Holds first → (system.final idle moves).Holds second → first = second := by
  intro exclusive
  exact absurd (exclusive race 3 4 (by unfold Holds; decide) (by unfold Holds; decide)) (by decide)

end Machine

end XWrt.CloudflareTunnel
