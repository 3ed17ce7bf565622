import XWrt.Foundation.Interleaving

/-!
# Delayed hotplug events

`mwan3_delay_hotplug_call` as processes that take one step at a time: a call
writes its line to `iface_hotplug.cmd` and leaves a timer, and a timer that
finds the file old enough moves it to `iface_hotplug.cmd.tmp` and runs its
lines, or restarts mwan3. Files are replaced and deleted by name, and a timer
that has opened the moved file goes on reading it whatever becomes of its name.
-/

namespace XWrt.Mwan3

open XWrt.Foundation

/-! ## Calls -/

structure HotplugEvent where
  delay : String
  startup : String
  action : String
  interface : String
  device : String
  family : String
  deriving DecidableEq, Repr

/-- The test for the delay branch of `15-mwan3`, for the number of interface sections. -/
def HotplugEvent.delays (event : HotplugEvent) (interfaces : ℕ) : Bool :=
  event.delay == "" && event.startup != "1" && 10 ≤ interfaces

/-- The environment `mwan3_delay_hotplug_call` is called with in that branch. -/
def HotplugEvent.delayed (event : HotplugEvent) : HotplugEvent := { event with delay := "1", startup := "2" }

theorem delays_delayed (event : HotplugEvent) (interfaces : ℕ) : event.delayed.delays interfaces = false := rfl

/-- `local line` -/
def hotplugLine (event : HotplugEvent) : String :=
  "DELAY_HOTPLUG=" ++ event.delay ++ " MWAN3_STARTUP=" ++ event.startup ++ " ACTION=" ++ event.action ++
    " INTERFACE=" ++ event.interface ++ " DEVICE=" ++ event.device ++ " FAMILY=" ++ event.family ++
      " sh /etc/hotplug.d/iface/15-mwan3"

structure CmdLine where
  caller : ℕ
  text : String
  deriving DecidableEq, Repr

structure CmdFile where
  lines : List CmdLine
  mtime : ℕ
  deriving DecidableEq, Repr

inductive Report where
  | queued (line : CmdLine)
  | took (pid : ℕ) (lines : List CmdLine)
  | executed (pid : ℕ) (line : CmdLine)
  /-- `/etc/init.d/mwan3 restart` starts -/
  | restarted
  deriving DecidableEq, Repr

/-- What the timers share. -/
structure Spool where
  clock : ℕ
  /-- `$MWAN3_STATUS_DIR` is there -/
  dir : Bool
  /-- `iface_hotplug.cmd` -/
  queue : Option CmdFile
  /-- `iface_hotplug.cmd.tmp` -/
  batch : Option (List CmdLine)
  log : List Report

/-- Where a call or its timer stands: before the `sleep 11`, `date -r`, `date`, `mv`, `wc -l`, `rm -f` and `restart` of the
function, the `rm -rf` of the restart, the loop over the moved file and its deletion. -/
inductive TimerControl where
  | uncalled
  /-- at the earliest until `wake` -/
  | sleeping (wake : ℕ)
  | dating
  | clocking (last : ℕ)
  | moving
  | counting
  | removing
  | restarting
  | wiping
  | opening
  /-- with the lines not yet read -/
  | reading (rest : List CmdLine)
  | deleting
  | gone
  deriving DecidableEq, Repr

/-- What happens besides: time passes, or `mwan3_init` of another process makes the directory. -/
inductive Surroundings where
  | tick
  | remake
  deriving DecidableEq, Repr

abbrev HotplugPool := Pool Spool TimerControl

abbrev HotplugTurn := Turn (Option HotplugEvent) Surroundings

/-! ## Steps -/

def Spool.queueLines (s : Spool) : List CmdLine := (s.queue.map CmdFile.lines).getD []

def Spool.batchLines (s : Spool) : List CmdLine := s.batch.getD []

def Spool.report (s : Spool) (report : Report) : Spool := { s with log := s.log ++ [report] }

/-- `echo $line >>$MWAN3_STATUS_DIR/iface_hotplug.cmd` -/
def Spool.append (s : Spool) (line : CmdLine) : Spool :=
  if s.dir then
    ({ s with queue := some ⟨s.queueLines ++ [line], s.clock⟩ } : Spool).report (.queued line)
  else s

/-- The next step of a call or its timer. -/
def stepTimer (pid : ℕ) (call : Option HotplugEvent) (s : Spool) : TimerControl → Spool × TimerControl × List Empty
  | .uncalled =>
      match call with
      | some event => (s.append ⟨pid, hotplugLine event⟩, .sleeping (s.clock + 11), [])
      | none => (s, .uncalled, [])
  | .sleeping wake => (s, if wake ≤ s.clock then .dating else .sleeping wake, [])
  -- `date -r` of a missing file leaves `last_time` empty, which counts as 0
  | .dating => (s, .clocking ((s.queue.map CmdFile.mtime).getD 0), [])
  | .clocking last => (s, if 9 < s.clock - last then .moving else .gone, [])
  | .moving =>
      match s.queue with
      | some file => (({ s with queue := none, batch := some file.lines } : Spool).report (.took pid file.lines), .counting, [])
      | none => (s, .gone, [])
  -- without the file `NR` is empty and the test fails
  | .counting => (s, if 8 ≤ s.batchLines.length then .removing else .opening, [])
  | .removing => ({ s with queue := none, batch := none }, .restarting, [])
  | .restarting => (({ s with dir := true } : Spool).report .restarted, .wiping, [])
  | .wiping => ({ s with dir := false, queue := none, batch := none }, .gone, [])
  -- without the file the loop does not run
  | .opening =>
      match s.batch with
      | some lines => (s, .reading lines, [])
      | none => (s, .deleting, [])
  | .reading (line :: rest) => (s.report (.executed pid line), .reading rest, [])
  | .reading [] => (s, .deleting, [])
  | .deleting => ({ s with batch := none }, .gone, [])
  | .gone => (s, .gone, [])

def Spool.surround (s : Spool) : Surroundings → Spool
  | .tick => { s with clock := s.clock + 1 }
  | .remake => { s with dir := true }

def hotplugTimers : Program Spool TimerControl (Option HotplugEvent) Surroundings Empty where
  step := stepTimer
  outside event s := s.surround event

def unspooled : HotplugPool where
  shared := { clock := 0, dir := true, queue := none, batch := none, log := [] }
  procs _ := .uncalled

/-! ## What is to hold -/

def executions (line : CmdLine) (log : List Report) : ℕ :=
  log.countP fun report =>
    match report with
    | .executed _ other => other = line
    | _ => false

def queuedLines (log : List Report) : List CmdLine :=
  log.filterMap fun report =>
    match report with
    | .queued line => some line
    | _ => none

def tookBy (pid : ℕ) (log : List Report) : List CmdLine :=
  log.flatMap fun report =>
    match report with
    | .took other lines => if other = pid then lines else []
    | _ => []

/-- The lines a timer executed, in order. -/
def ranBy (pid : ℕ) (log : List Report) : List CmdLine :=
  log.filterMap fun report =>
    match report with
    | .executed other line => if other = pid then some line else none
    | _ => none

/-- A restart started after the line was queued. -/
def Covered (line : CmdLine) (log : List Report) : Prop := [.queued line, .restarted].Sublist log

/-- Every line was executed once or is covered by a restart, and every timer executed the lines
of its batch from the first on, in the order they were queued. -/
structure Delivered (log : List Report) : Prop where
  lines : ∀ line, .queued line ∈ log → Covered line log ∨ executions line log = 1
  order : ∀ pid, ranBy pid log <+: tookBy pid log ∧ (tookBy pid log).Sublist (queuedLines log)

/-- Finitely many calls, time that goes on, and no process that is never run again. -/
structure FairRun (turns : ℕ → HotplugTurn) : Prop where
  calls : ∃ first, ∀ n, first ≤ n → ∀ pid event, turns n ≠ .run pid (some event)
  time : ∀ n, ∃ m, n ≤ m ∧ turns m = .outside .tick
  procs : ∀ pid n, ∃ m, n ≤ m ∧ ∃ call, turns m = .run pid call

/-! ## Where a timer is in the way of another -/

/-- Between its `mv` and the opening of what it moved. -/
def TimerControl.holds : TimerControl → Bool
  | .counting | .opening => true
  | _ => false

/-- On the way to a restart. -/
def TimerControl.promises : TimerControl → Bool
  | .removing | .restarting => true
  | _ => false

/-- A restart that starts after the line was queued has started or will. -/
def Safe (pool : HotplugPool) (line : CmdLine) : Prop :=
  Covered line pool.shared.log ∨ ∃ pid, (pool.procs pid).promises = true

/-- The line stands in a moved file that its timer has not opened yet. -/
def Unread (pool : HotplugPool) (line : CmdLine) : Prop :=
  line ∈ pool.shared.batchLines ∧ ∃ pid, (pool.procs pid).holds = true

/-- A `mv` replaces no file that another timer has moved and not opened yet, and a deletion
takes away no line for which no restart is to come. -/
def Uncrossed (pool : HotplugPool) : HotplugTurn → Prop
  | .outside _ => True
  | .run pid _ =>
      match pool.procs pid with
      | .moving => pool.shared.queue.isSome → ∀ other, (pool.procs other).holds = false
      | .deleting => ∀ line, Unread pool line → Safe pool line
      | .wiping => ∀ line, Unread pool line ∨ line ∈ pool.shared.queueLines → Safe pool line
      | _ => True

end XWrt.Mwan3
