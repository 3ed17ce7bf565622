import XWrt.Foundation.Interleaving
import XWrt.Mwan3.StartStop

/-!
# Concurrent commands

`start`, `stop`, `restart` and `firewall_reload` of `usr/sbin/mwan3` as processes
that take one step at a time. What they do to the tables they do under the lock;
`mwan3_init` and the first `touch` come before it, and the route monitors of
`start` are launched after it has been released. The route monitors and the
killer of a stop run in the background, in turns of their own.
-/

namespace XWrt.Mwan3

open XWrt.Foundation

/-! ## Processes -/

inductive LifecycleCommand where
  | start
  | stop
  | restart
  | firewallReload
  deriving DecidableEq, Repr

/-- On whose behalf a section runs; the second half of a restart is a start. -/
inductive Origin where
  | start
  | stop
  | restart
  | reload
  deriving DecidableEq, Repr

/-- What a critical section was; a reload that finds mwan3 disabled is idle. -/
inductive SectionKind where
  | start
  | stop
  | reload
  | idle
  deriving DecidableEq, Repr

/-- Where a process stands: before which of its steps. In a stop, the killer is started by
`disabling`, `ending` looks for processes and `waiting` waits for the killer. -/
inductive Control where
  | gone
  | initialising (origin : Origin)
  | touching (origin : Origin)
  | locking (origin : Origin)
  | checking
  | comparing
  | disabling (origin : Origin)
  | clearing (origin : Origin)
  | ending (origin : Origin)
  | waiting (origin : Origin)
  | removing (origin : Origin)
  | reinitialising
  | enabling (origin : Origin)
  | installing (origin : Origin)
  | releasing (origin : Origin) (kind : SectionKind)
  -- The two steps of `mwan3_rtmon` for a family: `pgrep` and the launch.
  | looking (origin : Origin) (family : Family)
  | launching (origin : Origin) (family : Family)
  deriving DecidableEq, Repr

/-- A process with `$MMX_MASK` and its `NEED` flags. -/
structure Process where
  control : Control
  spelling : Spelling
  need : Family → Bool

def Process.goto (p : Process) (control : Control) : Process := { p with control := control }

/-- Where a `mwan3rtmon` stands: before which of the first calls of `main`, or in its loop. -/
inductive MonitorPhase where
  | initialising
  | settingLocal
  | settingConnected
  | watching
  deriving DecidableEq, Repr

/-- The background part of `stop_locked`: before `TERM`, or before `KILL`. -/
inductive KillerPhase where
  | terminating
  | killing
  deriving DecidableEq, Repr

/-- What the processes share: the tables of a family that hold routes, the route monitors that run,
and the last critical section, unless one runs or the firewall has been flushed since. -/
structure Lifecycle where
  sys : MaskSystem
  sets : SetState
  routes : Family → List Nat
  lock : Option Nat
  /-- `/var/run/mwan3.init` -/
  initFile : Bool
  monitors : Family → List MonitorPhase
  killer : Option KillerPhase
  last : Option SectionKind

/-- How many `mwan3rtmon` processes of a family `pgrep` finds. -/
def Lifecycle.running (s : Lifecycle) (family : Family) : Nat := (s.monitors family).length

/-- What the surroundings decide about a step: whether `config_load` succeeds, and whether `pgrep`
still finds a `mwan3track`. -/
structure Chance where
  command : Option LifecycleCommand
  up : Uplinks
  loads : Bool
  tracks : Bool

/-- What a route monitor reads from `ip monitor route`: a change of the local table, an IPv6 default
route of some interfaces, or another route. -/
inductive RouteNews where
  | localTable
  | default (interfaces : List String)
  | other (emptied : List Nat)

/-- Turns that no command takes. -/
inductive Background where
  | flush
  | killer
  | monitor (family : Family) (index : Nat) (news : RouteNews)

section Steps

variable (c : MaskConfig)

/-- `stop_locked`: what it flushes and destroys. -/
def clear (p : Process) (s : Lifecycle) : Lifecycle :=
  { s with
    sys := { s.sys with tables := (stopLocked s.sys).tables }
    sets := destroySets s.sets
    routes := fun family => (s.routes family).filter fun tid => interfaceMax p.spelling.mask < tid }

/-- The first step of a command. -/
def LifecycleCommand.begin : LifecycleCommand → Control
  | .start => .initialising .start
  | .stop => .initialising .stop
  | .restart => .initialising .restart
  | .firewallReload => .locking .reload

/-- The first step under the lock. -/
def Origin.enter : Origin → Control
  | .start => .enabling .start
  | .stop => .disabling .stop
  | .restart => .disabling .restart
  | .reload => .checking

/-- The step after `mwan3_unlock`. -/
def Origin.leave : Origin → Control
  | .start => .looking .start .ipv4
  | .stop => .gone
  | .restart => .touching .start
  | .reload => .gone

/-- The firewall may be flushed between critical sections. -/
def flushBetween (s : Lifecycle) : Lifecycle :=
  if s.lock.isSome then s
  else
    { s with
      sys := flushFirewall s.sys
      sets := { s.sets with helpers := [] }
      last := none }

/-- `mwan3_kill_processes TERM`, and after a second `mwan3_kill_processes KILL`. -/
def stepKiller (s : Lifecycle) : Lifecycle :=
  match s.killer with
  | none => s
  | some .terminating => { s with monitors := fun _ => [], killer := some .killing }
  | some .killing => { s with monitors := fun _ => [], killer := none }

/-- A turn of a route monitor. A route is added only where the table has a default route, so that no
table comes to hold routes. -/
def stepMonitor (family : Family) (index : Nat) (news : RouteNews) (s : Lifecycle) : Lifecycle :=
  let goto phase := Function.update s.monitors family ((s.monitors family).set index phase)
  match (s.monitors family)[index]? with
  | none => s
  | some .initialising => { s with sys := s.sys.init, monitors := goto .settingLocal }
  | some .settingLocal => { s with sets := setLocal family s.sets, monitors := goto .settingConnected }
  | some .settingConnected => { s with sets := setConnected family s.sets, monitors := goto .watching }
  | some .watching =>
      match news with
      | .localTable => { s with sets := setLocal family s.sets }
      | .default interfaces =>
          { s with sets := (interfaces.foldl (fun s interface => masqHelp interface s) s.sets).create "mwan3_native_v6" false }
      | .other emptied =>
          { s with
            sets := setConnected family s.sets
            routes := Function.update s.routes family ((s.routes family).filter (· ∉ emptied)) }

def Background.run (event : Background) (s : Lifecycle) : Lifecycle :=
  match event with
  | .flush => flushBetween s
  | .killer => stepKiller s
  | .monitor family index news => stepMonitor family index news s

end Steps

/-! ## What is to hold -/

/-- The process is between `mwan3_lock` and `mwan3_unlock`. -/
def Control.holds : Control → Bool
  | .checking | .comparing | .disabling _ | .clearing _ | .ending _ | .waiting _ | .removing _ => true
  | .reinitialising | .enabling _ | .installing _ | .releasing _ _ => true
  | .looking origin _ | .launching origin _ => origin = .reload
  | _ => false

/-- A stop section that has not cleared yet. -/
def Control.beforeClear : Control → Bool
  | .disabling _ | .clearing _ => true
  | _ => false

/-- A stop section that has not started its killer yet. -/
def Control.disables : Control → Bool
  | .disabling _ => true
  | _ => false

/-- The process that has the lock stands there. -/
def LockedAt (pool : Pool Lifecycle Process) (place : Control → Bool) : Prop :=
  ∃ holder, pool.shared.lock = some holder ∧ place (pool.procs holder).control = true

/-- A route monitor is launched while mwan3 is enabled and none runs for the family, or ahead of the
end of a killer; and it touches sets and routes while mwan3 is enabled, or before a stop clears them. -/
def Orderly (pool : Pool Lifecycle Process) : Turn Chance Background → Prop
  | .run pid _ =>
      match (pool.procs pid).control with
      | .launching _ family =>
          (pool.shared.running family = 0 ∧ pool.shared.sys.enabled = true) ∨
            pool.shared.killer.isSome = true ∨ LockedAt pool Control.disables
      | _ => True
  | .outside (.monitor family index _) =>
      (pool.shared.monitors family)[index]? ≠ some .initialising →
        pool.shared.sys.enabled = true ∨ LockedAt pool Control.beforeClear
  | .outside _ => True

/-- No chain, ip rule or interface table of mwan3 is there. -/
structure Bare (spelling : Spelling) (s : Lifecycle) : Prop where
  tables : ∀ family, s.sys.tables family = bareTables
  routes : ∀ family, ∀ tid ∈ s.routes family, interfaceMax spelling.mask < tid

/-- A stopped system. -/
structure Stopped (spelling : Spelling) (s : Lifecycle) : Prop where
  disabled : s.sys.enabled = false
  bare : Bare spelling s
  sets : s.sets = ⟨[], []⟩
  quiet : ∀ family, s.running family = 0

/-- The hook chain and both its parent jumps are there for every needed family. -/
def Hooked (c : MaskConfig) (spelling : Spelling) (s : Lifecycle) : Prop :=
  ∀ family, (c.withMask spelling).need family = true → (s.sys.tables family).Hooked

end XWrt.Mwan3
