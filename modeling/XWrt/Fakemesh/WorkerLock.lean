import XWrt.Foundation.Interleaving

/-!
# Worker locks

`/usr/sbin/fakemesh` as processes that take one command at a time. A worker
makes a directory, puts a marker with its pid there and compares its generation
with the one in `/tmp/fakemesh.generation`, before and after. A setup process
writes the generation, ends the workers whose markers it finds and deletes the
directories.
-/

namespace XWrt.Fakemesh

open XWrt.Foundation

/-! ## Files and processes -/

/-- `/tmp/fakemesh_lck1` to `/tmp/fakemesh_lck7`, in the order of the glob -/
abbrev WorkerDir := Fin 7

/-- `$$.$(date +%s)` -/
structure Generation where
  pid : ℕ
  seconds : ℕ
  deriving DecidableEq, Repr

/-- A worker directory with the pids of its markers; no command reads who made it. -/
structure LockDir where
  maker : ℕ
  markers : List ℕ
  deriving DecidableEq, Repr

structure Host where
  /-- `/tmp/fakemesh.generation` -/
  generation : Option Generation
  dirs : WorkerDir → Option LockDir
  /-- who has locked `/var/lock/fakemesh.lock` -/
  flock : Option ℕ
  running : ℕ → Bool
  /-- a HUP, INT or TERM is pending -/
  signalled : ℕ → Bool

inductive Afterwards where
  | returns
  | exits
  deriving DecidableEq, Repr

/-- Where a worker stands: in `worker_lock` before the first `worker_current`, `mkdir`, `touch`, `trap` and the second
`worker_current`, past it, or in `worker_unlock` before `rm -f` and `rmdir`. -/
inductive WorkerControl where
  /-- outside of `worker_lock` and `worker_unlock`, without a lock -/
  | apart
  | checking (dir : WorkerDir)
  | making (dir : WorkerDir)
  | touching (dir : WorkerDir)
  | trapping (dir : WorkerDir)
  | rechecking (dir : WorkerDir)
  | holding (dir : WorkerDir)
  | unmarking (dir : WorkerDir) (afterwards : Afterwards)
  | unmaking (dir : WorkerDir) (afterwards : Afterwards)
  /-- the end of the `EXIT` trap -/
  | leaving
  deriving DecidableEq, Repr

/-- `$worker_dir`, unless the `EXIT` trap runs already -/
def WorkerControl.workerDir : WorkerControl → Option WorkerDir
  | .touching dir | .trapping dir | .rechecking dir | .holding dir => some dir
  | .unmarking dir .returns | .unmaking dir .returns => some dir
  | _ => none

/-- Where `stop_workers` stands: in the globs of the directories and of their markers, the two loops, or its `rm -rf`. -/
inductive StopControl where
  | globbing
  /-- directories yet to be read, markers found -/
  | listing (dirs : List WorkerDir) (found : List (WorkerDir × ℕ))
  | signalling (markers : List (WorkerDir × ℕ)) (pending : List ℕ)
  | waiting (pending alive : List ℕ) (waited : ℕ)
  | reglobbing
  | deleting (dirs : List WorkerDir)
  | emptying (dir : WorkerDir) (names : List ℕ) (dirs : List WorkerDir)
  deriving DecidableEq, Repr

/-- The commands that take the setup lock: none, or `stop`. -/
inductive SetupCommand where
  | start
  | stop
  deriving DecidableEq, Repr

/-- Where a setup process stands. -/
inductive SetupControl where
  | locking
  /-- up to `start_generation`; `rm -f /tmp/fakemesh.generation` -/
  | preparing
  | stopping (control : StopControl)
  /-- `start_generation`, or `stop_workers` for `stop`, has returned -/
  | started
  deriving DecidableEq, Repr

inductive MeshProcess where
  | ended
  /-- a worker command with its environment's `FAKEMESH_GENERATION` -/
  | starting (environment : Option Generation)
  | admitted (generation : Generation)
  /-- a worker, and whether the traps of `worker_lock` are set -/
  | worker (generation : Generation) (trapped : Bool) (control : WorkerControl)
  | setup (command : SetupCommand) (control : SetupControl)
  deriving DecidableEq, Repr

/-! ## Operations -/

/-- What a command does to what is shared. -/
inductive Operation where
  | nothing
  | launch
  | mkdir (dir : WorkerDir)
  | touch (dir : WorkerDir)
  | unlink (dir : WorkerDir) (name : ℕ)
  | rmdir (dir : WorkerDir)
  | flock
  | write (generation : Option Generation)
  | term (pid : ℕ)
  | kill (pid : ℕ)
  | take
  | exit
  deriving DecidableEq, Repr

/-- The process is gone, and the kernel releases what it has locked. -/
def Host.reap (s : Host) (pid : ℕ) : Host :=
  { s with running := Function.update s.running pid false, flock := if s.flock = some pid then none else s.flock }

/-- The operation of a process; a marker touched where no directory is, or a directory removed
that is not empty, changes nothing. -/
def Host.apply (s : Host) (pid : ℕ) : Operation → Host
  | .nothing => s
  | .launch =>
      { s with running := Function.update s.running pid true, signalled := Function.update s.signalled pid false }
  | .mkdir dir => { s with dirs := Function.update s.dirs dir (some ⟨pid, []⟩) }
  | .touch dir =>
      { s with dirs := Function.update s.dirs dir ((s.dirs dir).map fun d => { d with markers := d.markers.insert pid }) }
  | .unlink dir name =>
      { s with
        dirs := Function.update s.dirs dir
          ((s.dirs dir).map fun d => { d with markers := d.markers.filter (· ≠ name) }) }
  | .rmdir dir => { s with dirs := Function.update s.dirs dir ((s.dirs dir).filter fun d => d.markers ≠ []) }
  | .flock => { s with flock := some pid }
  | .write generation => { s with generation := generation }
  | .term other => { s with signalled := Function.update s.signalled other true }
  | .kill other => s.reap other
  | .take => { s with signalled := Function.update s.signalled pid false }
  | .exit => s.reap pid

def Host.glob (s : Host) : List WorkerDir := (List.finRange 7).filter fun dir => (s.dirs dir).isSome

def Host.markers (s : Host) (dir : WorkerDir) : List ℕ := ((s.dirs dir).map LockDir.markers).getD []

/-- `worker_current` -/
def Host.workerCurrent (s : Host) (generation : Generation) : Bool := s.generation == some generation

/-- `is_worker`, for the process `self` -/
def Host.isWorker (s : Host) (self pid : ℕ) : Bool := pid != self && s.running pid

/-! ## Commands -/

/-- What the surroundings choose for a turn. -/
inductive WorkerChoice where
  | launchWorker (environment : Option Generation)
  | launchSetup (command : SetupCommand)
  /-- the next command, with the seconds of the clock -/
  | proceed (seconds : ℕ)
  | lock (dir : WorkerDir)
  | unlock
  | exit
  | signal
  deriving DecidableEq, Repr

def stepWorker (pid : ℕ) (s : Host) (generation : Generation) (trapped : Bool) :
    WorkerChoice → WorkerControl → Operation × MeshProcess
  | .lock dir, .apart => (.nothing, .worker generation trapped (.checking dir))
  | .exit, .apart => (.exit, .ended)
  | .unlock, .holding dir => (.nothing, .worker generation trapped (.unmarking dir .returns))
  | .exit, .holding dir => (.nothing, .worker generation trapped (.unmarking dir .exits))
  | .proceed _, .checking dir =>
      (.nothing, .worker generation trapped (if s.workerCurrent generation then .making dir else .apart))
  | .proceed _, .making dir =>
      match s.dirs dir with
      | none => (.mkdir dir, .worker generation trapped (.touching dir))
      | some _ => (.nothing, .worker generation trapped .apart)
  | .proceed _, .touching dir => (.touch dir, .worker generation trapped (.trapping dir))
  | .proceed _, .trapping dir => (.nothing, .worker generation true (.rechecking dir))
  | .proceed _, .rechecking dir =>
      (.nothing, .worker generation trapped
        (if s.workerCurrent generation then .holding dir else .unmarking dir .returns))
  | .proceed _, .unmarking dir afterwards => (.unlink dir pid, .worker generation trapped (.unmaking dir afterwards))
  | .proceed _, .unmaking dir .returns => (.rmdir dir, .worker generation trapped .apart)
  | .proceed _, .unmaking dir .exits => (.rmdir dir, .worker generation trapped .leaving)
  | .proceed _, .leaving => (.exit, .ended)
  -- `exit 0` where the traps are set, and the `EXIT` trap; the end of the shell where they are not
  | .signal, control =>
      if s.signalled pid then
        match trapped, control.workerDir with
        | true, some dir => (.take, .worker generation trapped (.unmarking dir .exits))
        | _, _ => (.exit, .ended)
      else (.nothing, .worker generation trapped control)
  | _, control => (.nothing, .worker generation trapped control)

/-- The next command of `stop_workers`; `none` when it has returned. -/
def stepStop (pid : ℕ) (s : Host) : StopControl → Operation × Option StopControl
  | .globbing => (.nothing, some (.listing s.glob []))
  | .listing (dir :: dirs) found => (.nothing, some (.listing dirs (found ++ (s.markers dir).map (dir, ·))))
  | .listing [] found => (.nothing, some (.signalling found []))
  | .signalling ((dir, name) :: markers) pending =>
      if name ∈ s.markers dir ∧ s.isWorker pid name then (.term name, some (.signalling markers (pending ++ [name])))
      else (.nothing, some (.signalling markers pending))
  | .signalling [] pending => (.nothing, some (.waiting pending [] 0))
  | .waiting (name :: pending) alive waited =>
      if s.isWorker pid name then
        (if 15 ≤ waited then .kill name else .nothing, some (.waiting pending (alive ++ [name]) waited))
      else (.nothing, some (.waiting pending alive waited))
  | .waiting [] [] _ => (.nothing, some .reglobbing)
  -- `sleep 1`
  | .waiting [] alive waited => (.nothing, some (.waiting alive [] (waited + 1)))
  | .reglobbing => (.nothing, some (.deleting s.glob))
  | .deleting (dir :: dirs) => (.nothing, some (.emptying dir (s.markers dir) dirs))
  | .deleting [] => (.nothing, none)
  | .emptying dir (name :: names) dirs => (.unlink dir name, some (.emptying dir names dirs))
  | .emptying dir [] dirs => (.rmdir dir, some (.deleting dirs))

def stepSetup (pid : ℕ) (s : Host) (command : SetupCommand) :
    WorkerChoice → SetupControl → Operation × MeshProcess
  | .proceed _, .locking =>
      if s.flock = none then (.flock, .setup command .preparing) else (.nothing, .setup command .locking)
  | .proceed seconds, .preparing =>
      match command with
      | .start => (.write (some ⟨pid, seconds⟩), .setup .start (.stopping .globbing))
      | .stop => (.write none, .setup .stop (.stopping .globbing))
  | .proceed _, .stopping control =>
      match stepStop pid s control with
      | (operation, some next) => (operation, .setup command (.stopping next))
      | (operation, none) => (operation, .setup command .started)
  -- a failing `flock`, `rm` or configuration, and the end of the command
  | .exit, .locking | .exit, .preparing | .exit, .started => (.exit, .ended)
  | .signal, control => if s.signalled pid then (.exit, .ended) else (.nothing, .setup command control)
  | _, control => (.nothing, .setup command control)

/-- The next command of a process: what it does, and what becomes of the process. -/
def command (pid : ℕ) (choice : WorkerChoice) (s : Host) (process : MeshProcess) : Operation × MeshProcess :=
  if s.running pid then
    match process, choice with
    | .starting (some generation), .proceed _ => (.nothing, .admitted generation)
    | .starting none, .proceed _ =>
        match s.generation with
        | some generation => (.nothing, .admitted generation)
        | none => (.exit, .ended)
    | .admitted generation, .proceed _ =>
        if s.workerCurrent generation then (.nothing, .worker generation false .apart) else (.exit, .ended)
    | .starting _, .signal | .admitted _, .signal => if s.signalled pid then (.exit, .ended) else (.nothing, process)
    | .worker generation trapped control, choice => stepWorker pid s generation trapped choice control
    | .setup command control, choice => stepSetup pid s command choice control
    | _, _ => (.nothing, process)
  else
    match choice with
    | .launchWorker environment => (.launch, .starting environment)
    | .launchSetup command => (.launch, .setup command .locking)
    | _ => (.nothing, process)

/-- What happens besides: any process is sent a signal. -/
inductive HostEvent where
  | signal (pid : ℕ)
  | kill (pid : ℕ)
  deriving DecidableEq, Repr

def Host.surround (s : Host) : HostEvent → Host
  | .signal pid => { s with signalled := Function.update s.signalled pid true }
  | .kill pid => s.reap pid

def meshProcesses : Program Host MeshProcess WorkerChoice HostEvent Empty where
  step pid choice s process := (s.apply pid (command pid choice s process).1, (command pid choice s process).2, [])
  outside event s := s.surround event

abbrev MeshPool := Pool Host MeshProcess

abbrev MeshTurn := Turn WorkerChoice HostEvent

def booted : MeshPool where
  shared := { generation := none, dirs := fun _ => none, flock := none, running := fun _ => false, signalled := fun _ => false }
  procs _ := .ended

/-! ## What is to hold -/

/-- How far a worker has come with a directory: it has made it, marked it, or holds it. -/
inductive Claim where
  | made
  | marked
  | held
  deriving DecidableEq, Repr

/-- The claim of a process, its generation and the directory. -/
def MeshProcess.claim : MeshProcess → Option (Claim × Generation × WorkerDir)
  | .worker generation _ (.touching dir) => some (.made, generation, dir)
  | .worker generation _ (.trapping dir) | .worker generation _ (.rechecking dir) => some (.marked, generation, dir)
  | .worker generation _ (.holding dir) => some (.held, generation, dir)
  | _ => none

def Claiming (pool : MeshPool) (pid : ℕ) (claim : Claim) (generation : Generation) (dir : WorkerDir) : Prop :=
  pool.shared.running pid = true ∧ (pool.procs pid).claim = some (claim, generation, dir)

/-- No two living processes hold the same worker directory. -/
def Exclusive (pool : MeshPool) : Prop :=
  ∀ dir first second generation generation', Claiming pool first .held generation dir →
    Claiming pool second .held generation' dir → first = second

/-- `start_generation` of a living process has returned. -/
def Started (pool : MeshPool) : Prop :=
  ∃ pid, pool.shared.running pid = true ∧ pool.procs pid = .setup .start .started

def Host.Vacant (s : Host) (dir : WorkerDir) : Prop := ∃ d, s.dirs dir = some d ∧ d.markers = []

/-- A `rmdir` removes no directory that a living worker of the generation in the file has made and
not yet marked, a `rm` not its marker, and a generation is not written while a living worker has it
between its `mkdir` and its second look at the file. -/
def Operation.Spares (pool : MeshPool) : Operation → Prop
  | .rmdir dir =>
      pool.shared.Vacant dir → ∀ pid generation, Claiming pool pid .made generation dir →
        pool.shared.generation ≠ some generation
  | .unlink dir pid =>
      ∀ claim generation, Claiming pool pid claim generation dir → claim = .made ∨
        pool.shared.generation ≠ some generation
  | .write (some generation) => ∀ pid claim dir, Claiming pool pid claim generation dir → claim = .held
  | _ => True

/-- The turn takes no directory and no marker from a worker of the generation in the file. -/
def Undisturbed (pool : MeshPool) : MeshTurn → Prop
  | .outside _ => True
  | .run pid choice => (command pid choice pool.shared (pool.procs pid)).1.Spares pool

end XWrt.Fakemesh
