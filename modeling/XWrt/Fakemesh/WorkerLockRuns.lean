import XWrt.Fakemesh.WorkerLock

/-!
# Runs of worker locks

A living worker that holds a directory, or has made it and is of the generation
in the file, finds it there as it left it. So two cannot hold one directory,
and the markers show `stop_workers` every holder of an earlier generation.
-/

namespace XWrt.Fakemesh

open XWrt.Foundation

/-! ## Operations -/

/-- The directory is there as the claim says. -/
def Host.Backs (s : Host) (pid : ℕ) (dir : WorkerDir) (claim : Claim) : Prop :=
  ∃ d, s.dirs dir = some d ∧ d.maker = pid ∧ (claim ≠ .made → pid ∈ d.markers)

section Operations

variable {s : Host} {pid other : ℕ} {dir : WorkerDir} {claim : Claim} {operation : Operation}

theorem mem_glob : dir ∈ s.glob ↔ ∃ d, s.dirs dir = some d := by
  rw [Host.glob, List.mem_filter, Option.isSome_iff_exists]
  exact and_iff_right (List.mem_finRange dir)

theorem Host.Backs.mem_markers (backs : s.Backs pid dir .held) : pid ∈ s.markers dir := by
  obtain ⟨d, here, -, marked⟩ := backs
  rw [Host.markers, here]
  exact marked nofun

@[simp]
theorem reap_generation (s : Host) (pid : ℕ) : (s.reap pid).generation = s.generation := rfl

@[simp]
theorem reap_dirs (s : Host) (pid : ℕ) : (s.reap pid).dirs = s.dirs := rfl

theorem reap_running (running : (s.reap pid).running other = true) : other ≠ pid ∧ s.running other = true := by
  change Function.update s.running pid false other = true at running
  by_cases same : other = pid
  · rw [same, Function.update_self] at running
    cases running
  · rw [Function.update_of_ne same] at running
    exact ⟨same, running⟩

theorem reap_flock (apart : other ≠ pid) (locked : s.flock = some other) : (s.reap pid).flock = some other := by
  rw [Host.reap, if_neg fun own => apart (Option.some.inj (locked.symm.trans own))]
  exact locked

theorem apply_running (running : (s.apply pid operation).running other = true) :
    s.running other = true ∨ operation = .launch ∧ other = pid := by
  cases operation with
  | launch =>
      by_cases same : other = pid
      · exact .inr ⟨rfl, same⟩
      · change Function.update s.running pid true other = true at running
        rw [Function.update_of_ne same] at running
        exact .inl running
  | kill name => exact .inl (reap_running running).2
  | exit => exact .inl (reap_running running).2
  | _ => exact .inl running

theorem apply_generation (kept : ∀ generation, operation ≠ .write generation) :
    (s.apply pid operation).generation = s.generation := by
  cases operation with
  | write generation => exact absurd rfl (kept generation)
  | _ => rfl

theorem apply_flock (running : (s.apply pid operation).running other = true) (locked : s.flock = some other)
    (free : operation = .flock → s.flock = none) : (s.apply pid operation).flock = some other := by
  cases operation with
  | flock =>
      rw [free rfl] at locked
      cases locked
  | kill name => exact reap_flock (reap_running running).1 locked
  | exit => exact reap_flock (reap_running running).1 locked
  | _ => exact locked

/-- An operation on another directory. -/
theorem Host.Backs.update {changed : WorkerDir} {d : Option LockDir} (backs : s.Backs pid dir claim) (apart : dir ≠ changed) :
    ({ s with dirs := Function.update s.dirs changed d } : Host).Backs pid dir claim := by
  obtain ⟨d, here, fact⟩ := backs
  exact ⟨d, (Function.update_of_ne apart _ _).trans here, fact⟩

/-- What a claim rests on outlasts the operations of others that leave the directory and the
marker. -/
theorem Host.Backs.apply (backs : s.Backs pid dir claim) (mkdir : operation = .mkdir dir → s.dirs dir = none)
    (unlink : operation = .unlink dir pid → claim = .made)
    (rmdir : operation = .rmdir dir → s.Vacant dir → claim ≠ .made) :
    (s.apply other operation).Backs pid dir claim := by
  obtain ⟨d, here, made, marked⟩ := id backs
  cases operation with
  | mkdir changed =>
      by_cases same : dir = changed
      · subst same
        rw [mkdir rfl] at here
        cases here
      · exact backs.update same
  | touch changed =>
      by_cases same : dir = changed
      · subst same
        refine ⟨{ d with markers := d.markers.insert other }, ?_, made, fun later => ?_⟩
        · exact (Function.update_self ..).trans (congrArg _ here)
        · exact List.mem_insert_of_mem (marked later)
      · exact backs.update same
  | unlink changed name =>
      by_cases same : dir = changed
      · subst same
        refine ⟨{ d with markers := d.markers.filter (· ≠ name) }, ?_, made, fun later => ?_⟩
        · exact (Function.update_self ..).trans (congrArg _ here)
        · refine List.mem_filter.mpr ⟨marked later, decide_eq_true fun own => later ?_⟩
          exact unlink (by rw [own])
      · exact backs.update same
  | rmdir changed =>
      by_cases same : dir = changed
      · subst same
        have filled : d.markers ≠ [] := by
          intro vacant
          have later := rmdir rfl ⟨d, here, vacant⟩
          have inside := marked later
          rw [vacant] at inside
          cases inside
        refine ⟨d, ?_, made, marked⟩
        refine (Function.update_self ..).trans ?_
        rw [here]
        exact Option.filter_some_pos (decide_eq_true filled)
      · exact backs.update same
  | _ => exact backs

end Operations

/-! ## Commands -/

/-- A process that has locked the setup lock. -/
def MeshProcess.inCharge : MeshProcess → Bool
  | .setup _ .locking => false
  | .setup _ _ => true
  | _ => false

/-- The holder of a directory will be found, or is being waited for. -/
def StopControl.Covers (pid : ℕ) (dir : WorkerDir) : StopControl → Prop
  | .globbing => True
  | .listing dirs found => dir ∈ dirs ∨ (dir, pid) ∈ found
  | .signalling markers pending => (dir, pid) ∈ markers ∨ pid ∈ pending
  | .waiting pending alive _ => pid ∈ pending ∨ pid ∈ alive
  | .reglobbing | .deleting _ | .emptying _ _ _ => False

/-- A setup process that would not yet have ended the holder of a directory. -/
def MeshProcess.Covers (pid : ℕ) (dir : WorkerDir) : MeshProcess → Prop
  | .setup _ (.stopping control) => control.Covers pid dir
  | .setup _ .started => False
  | _ => True

theorem covers_of_not_inCharge {process : MeshProcess} (free : process.inCharge = false) (pid : ℕ) (dir : WorkerDir) :
    process.Covers pid dir := by
  cases process with
  | setup command control =>
      cases control with
      | locking => trivial
      | _ => cases free
  | _ => trivial

/-- When a process does what it does. -/
def Operation.Guard (pid : ℕ) (s : Host) (process : MeshProcess) : Operation → Prop
  | .launch => s.running pid = false
  | .mkdir dir => s.dirs dir = none
  | .flock => s.flock = none
  | .write _ => s.running pid = true ∧ process.inCharge = true ∧ ∀ other dir, process.Covers other dir
  | .unlink _ name => name = pid ∨ s.running pid = true ∧ ∀ other dir, ¬process.Covers other dir
  | _ => True

section Commands

variable {s : Host} {pid : ℕ} {process : MeshProcess} {choice : WorkerChoice} {generation : Generation} {dir : WorkerDir}

theorem stepWorker_guard (trapped : Bool) (control : WorkerControl) :
    (stepWorker pid s generation trapped choice control).1.Guard pid s process := by
  cases choice with
  | signal =>
      simp only [stepWorker]
      split
      · split <;> trivial
      · trivial
  | proceed seconds =>
      cases control with
      | making dir =>
          simp only [stepWorker]
          split <;> [assumption; trivial]
      | unmarking dir afterwards => exact .inl rfl
      | unmaking dir afterwards => cases afterwards <;> trivial
      | _ => trivial
  | _ => cases control <;> trivial

theorem stepStop_guard (running : s.running pid = true) (control : StopControl) (setup : SetupCommand) :
    (stepStop pid s control).1.Guard pid s (.setup setup (.stopping control)) := by
  cases control with
  | listing dirs found => cases dirs <;> trivial
  | signalling markers pending =>
      cases markers with
      | nil => trivial
      | cons marker markers =>
          simp only [stepStop]
          split <;> trivial
  | waiting pending alive waited =>
      cases pending with
      | nil => cases alive <;> trivial
      | cons name pending =>
          simp only [stepStop]
          split
          · split <;> trivial
          · trivial
  | deleting dirs => cases dirs <;> trivial
  | emptying dir names dirs =>
      cases names with
      | nil => trivial
      | cons name names => exact .inr ⟨running, fun _ _ covers => covers⟩
  | _ => trivial

theorem stepSetup_guard (running : s.running pid = true) (setup : SetupCommand) (control : SetupControl) :
    (stepSetup pid s setup choice control).1.Guard pid s (.setup setup control) := by
  cases choice with
  | signal =>
      simp only [stepSetup]
      split <;> trivial
  | proceed seconds =>
      cases control with
      | locking =>
          simp only [stepSetup]
          split <;> [assumption; trivial]
      | preparing => cases setup <;> exact ⟨running, rfl, fun _ _ => trivial⟩
      | stopping control =>
          have guarded := stepStop_guard running control setup
          simp only [stepSetup]
          split <;> rename_i stepped <;> rwa [stepped] at guarded
      | started => trivial
  | exit => cases control <;> trivial
  | _ => cases control <;> trivial

/-- The step of a process: a worker's, a setup process's, none, or one at the edge of its life. -/
inductive Taken (pid : ℕ) (choice : WorkerChoice) (s : Host) : MeshProcess → Operation × MeshProcess → Prop where
  | worker (running : s.running pid = true) (generation : Generation) (trapped : Bool) (control : WorkerControl) :
      Taken pid choice s (.worker generation trapped control) (stepWorker pid s generation trapped choice control)
  | setup (running : s.running pid = true) (setup : SetupCommand) (control : SetupControl) :
      Taken pid choice s (.setup setup control) (stepSetup pid s setup choice control)
  | stays {process : MeshProcess} : Taken pid choice s process (.nothing, process)
  | edge {process : MeshProcess} {operation : Operation} {next : MeshProcess} (guarded : operation.Guard pid s process)
      (claim : next.claim = none) (free : next.inCharge = false) : Taken pid choice s process (operation, next)

theorem command_taken (pid : ℕ) (choice : WorkerChoice) (s : Host) (process : MeshProcess) :
    Taken pid choice s process (command pid choice s process) := by
  unfold command
  split
  · rename_i running
    split
    · exact .edge trivial rfl rfl
    · split <;> exact .edge trivial rfl rfl
    · split <;> exact .edge trivial rfl rfl
    · split <;> exact .edge trivial rfl rfl
    · split <;> exact .edge trivial rfl rfl
    · exact .worker running _ _ _
    · exact .setup running _ _
    · exact .stays
  · rename_i absent
    split
    · exact .edge (eq_false_of_ne_true absent) rfl rfl
    · exact .edge (eq_false_of_ne_true absent) rfl rfl
    · exact .stays

variable {result : Operation × MeshProcess}

theorem Taken.guard (taken : Taken pid choice s process result) : result.1.Guard pid s process := by
  cases taken with
  | worker running generation trapped control => exact stepWorker_guard trapped control
  | setup running setup control => exact stepSetup_guard running setup control
  | stays => trivial
  | edge guarded => exact guarded

/-- A new process has nothing yet. -/
theorem Taken.launched (taken : Taken pid choice s process result) (launch : result.1 = .launch) :
    result.2.claim = none ∧ result.2.inCharge = false := by
  have guarded := taken.guard
  rw [launch] at guarded
  cases taken with
  | worker running => exact absurd running (ne_true_of_eq_false guarded)
  | setup running => exact absurd running (ne_true_of_eq_false guarded)
  | stays => cases launch
  | edge _ none free => exact ⟨none, free⟩

/-- How a process has come by a claim in its last step. -/
inductive Advance (s : Host) (process : MeshProcess) (generation : Generation) (dir : WorkerDir) :
    Operation → Claim → Prop where
  | keeps {claim : Claim} (before : process.claim = some (claim, generation, dir)) : Advance s process generation dir .nothing claim
  | makes : Advance s process generation dir (.mkdir dir) .made
  | marks (made : process.claim = some (.made, generation, dir)) : Advance s process generation dir (.touch dir) .marked
  | takes (marked : process.claim = some (.marked, generation, dir)) (current : s.generation = some generation) :
      Advance s process generation dir .nothing .held

variable {claim : Claim} {generation' : Generation}

theorem stepWorker_advance {trapped : Bool} {control : WorkerControl}
    (claims : (stepWorker pid s generation' trapped choice control).2.claim = some (claim, generation, dir)) :
    Advance s (.worker generation' trapped control) generation dir
      (stepWorker pid s generation' trapped choice control).1 claim := by
  cases choice with
  | signal =>
      simp only [stepWorker] at claims ⊢
      split at claims
      · split at claims <;> cases claims
      · rename_i silent
        rw [if_neg silent]
        exact .keeps claims
  | proceed seconds =>
      cases control with
      | making made =>
          simp only [stepWorker] at claims ⊢
          split at claims
          · cases claims
            exact .makes
          · cases claims
      | touching made =>
          cases claims
          exact .marks rfl
      | trapping marked =>
          cases claims
          exact .keeps rfl
      | rechecking marked =>
          simp only [stepWorker] at claims ⊢
          split at claims
          · rename_i current
            cases claims
            exact .takes rfl (beq_iff_eq.mp current)
          · cases claims
      | checking looked =>
          simp only [stepWorker] at claims
          split at claims <;> cases claims
      | unmaking removed afterwards => cases afterwards <;> cases claims
      | holding held => exact .keeps claims
      | _ => cases claims
  | _ => cases control <;> first | exact .keeps claims | cases claims

theorem stepSetup_claim (setup : SetupCommand) (control : SetupControl) :
    (stepSetup pid s setup choice control).2.claim = none := by
  cases choice with
  | signal =>
      simp only [stepSetup]
      split <;> rfl
  | proceed seconds =>
      cases control with
      | locking =>
          simp only [stepSetup]
          split <;> rfl
      | preparing => cases setup <;> rfl
      | stopping control =>
          simp only [stepSetup]
          split <;> rfl
      | started => rfl
  | _ => cases control <;> rfl

theorem Taken.advance (taken : Taken pid choice s process result)
    (claims : result.2.claim = some (claim, generation, dir)) : Advance s process generation dir result.1 claim := by
  cases taken with
  | worker running generation trapped control => exact stepWorker_advance claims
  | setup running setup control =>
      rw [stepSetup_claim] at claims
      cases claims
  | stays => exact .keeps claims
  | edge guarded none free =>
      rw [none] at claims
      cases claims

theorem stepWorker_inCharge (trapped : Bool) (control : WorkerControl) :
    (stepWorker pid s generation trapped choice control).2.inCharge = false := by
  cases choice with
  | signal =>
      simp only [stepWorker]
      split
      · split <;> rfl
      · rfl
  | proceed seconds =>
      cases control with
      | making dir =>
          simp only [stepWorker]
          split <;> rfl
      | unmaking dir afterwards => cases afterwards <;> rfl
      | _ => rfl
  | _ => cases control <;> rfl

theorem stepSetup_locking {setup : SetupCommand}
    (charge : (stepSetup pid s setup choice .locking).2.inCharge = true) :
    (stepSetup pid s setup choice .locking).1 = .flock := by
  cases choice with
  | proceed seconds =>
      simp only [stepSetup] at charge ⊢
      split at charge
      · rename_i free
        rw [if_pos free]
      · cases charge
  | signal =>
      simp only [stepSetup] at charge
      split at charge <;> cases charge
  | _ => cases charge

/-- Only the setup lock gives charge. -/
theorem Taken.inCharge (taken : Taken pid choice s process result) (charge : result.2.inCharge = true) :
    process.inCharge = true ∨ result.1 = .flock := by
  cases taken with
  | worker running generation trapped control =>
      rw [stepWorker_inCharge] at charge
      cases charge
  | setup running setup control =>
      cases control with
      | locking => exact .inr (stepSetup_locking charge)
      | _ => exact .inl rfl
  | stays => exact .inl charge
  | edge guarded none free =>
      rw [free] at charge
      cases charge

variable {other : ℕ}

/-- `stop_workers` does not lose the living holder of a directory. -/
theorem stepStop_covers {control next : StopControl} (covers : control.Covers other dir) (backs : s.Backs other dir .held)
    (worker : s.isWorker pid other = true) (stepped : (stepStop pid s control).2 = some next) : next.Covers other dir := by
  cases control with
  | globbing =>
      cases stepped
      obtain ⟨d, here, -⟩ := backs
      exact .inl (mem_glob.mpr ⟨d, here⟩)
  | listing dirs found =>
      cases dirs with
      | nil =>
          cases stepped
          rcases covers with unread | listed
          · cases unread
          · exact .inl listed
      | cons first dirs =>
          cases stepped
          rcases covers with unread | listed
          · rcases List.mem_cons.mp unread with rfl | later
            · exact .inr (List.mem_append_right _ (List.mem_map_of_mem backs.mem_markers))
            · exact .inl later
          · exact .inr (List.mem_append_left _ listed)
  | signalling markers pending =>
      cases markers with
      | nil =>
          cases stepped
          rcases covers with unseen | awaited
          · cases unseen
          · exact .inl awaited
      | cons marker markers =>
          simp only [stepStop] at stepped
          split at stepped
          · cases stepped
            rcases covers with unseen | awaited
            · rcases List.mem_cons.mp unseen with rfl | later
              · exact .inr (List.mem_append_right _ (List.mem_singleton_self _))
              · exact .inl later
            · exact .inr (List.mem_append_left _ awaited)
          · rename_i skipped
            cases stepped
            rcases covers with unseen | awaited
            · rcases List.mem_cons.mp unseen with rfl | later
              · exact absurd ⟨backs.mem_markers, worker⟩ skipped
              · exact .inl later
            · exact .inr awaited
  | waiting pending alive waited =>
      cases pending with
      | nil =>
          rcases covers with awaited | kept
          · cases awaited
          · cases alive with
            | nil => cases kept
            | cons name alive =>
                cases stepped
                exact .inl kept
      | cons name pending =>
          simp only [stepStop] at stepped
          split at stepped
          · cases stepped
            rcases covers with awaited | kept
            · rcases List.mem_cons.mp awaited with rfl | later
              · exact .inr (List.mem_append_right _ (List.mem_singleton_self _))
              · exact .inl later
            · exact .inr (List.mem_append_left _ kept)
          · rename_i gone
            cases stepped
            rcases covers with awaited | kept
            · rcases List.mem_cons.mp awaited with rfl | later
              · exact absurd worker gone
              · exact .inl later
            · exact .inr kept
  | _ => cases covers

theorem stepStop_returns {control : StopControl} (covers : control.Covers other dir) :
    (stepStop pid s control).2 ≠ none := by
  intro returned
  cases control with
  | deleting dirs => exact covers
  | listing dirs found => cases dirs <;> cases returned
  | signalling markers pending =>
      cases markers with
      | nil => cases returned
      | cons marker markers =>
          simp only [stepStop] at returned
          split at returned <;> cases returned
  | waiting pending alive waited =>
      cases pending with
      | nil => cases alive <;> cases returned
      | cons name pending =>
          simp only [stepStop] at returned
          split at returned <;> cases returned
  | emptying dir names dirs => exact covers
  | _ => cases returned

theorem stepSetup_covers {setup : SetupCommand} {control : SetupControl}
    (covers : (MeshProcess.setup setup control).Covers other dir) (backs : s.Backs other dir .held)
    (worker : s.isWorker pid other = true) : (stepSetup pid s setup choice control).2.Covers other dir := by
  cases choice with
  | signal =>
      simp only [stepSetup]
      split
      · trivial
      · exact covers
  | proceed seconds =>
      cases control with
      | locking =>
          simp only [stepSetup]
          split <;> trivial
      | preparing => cases setup <;> trivial
      | started => exact covers
      | stopping control =>
          simp only [stepSetup]
          split
          · rename_i operation next stepped
            exact stepStop_covers covers backs worker (congrArg Prod.snd stepped)
          · rename_i operation stepped
            exact absurd (congrArg Prod.snd stepped) (stepStop_returns covers)
  | exit => cases control <;> trivial
  | _ => exact covers

/-- No process loses the living holder of a directory. -/
theorem Taken.covers (taken : Taken pid choice s process result) (covers : process.Covers other dir)
    (backs : s.Backs other dir .held) (worker : s.isWorker pid other = true) : result.2.Covers other dir := by
  cases taken with
  | worker running generation trapped control => exact covers_of_not_inCharge (stepWorker_inCharge trapped control) other dir
  | setup running setup control => exact stepSetup_covers covers backs worker
  | stays => exact covers
  | edge guarded none free => exact covers_of_not_inCharge free other dir

end Commands

/-! ## The invariant -/

/-- What a living process can rely on. -/
structure Backed (pid : ℕ) (process : MeshProcess) (s : Host) : Prop where
  claim : ∀ claim generation dir, process.claim = some (claim, generation, dir) →
    claim = .held ∨ s.generation = some generation → s.Backs pid dir claim
  flock : process.inCharge = true → s.flock = some pid

def BackedNote (pid : ℕ) (process : MeshProcess) (s : Host) : Prop := s.running pid = true → Backed pid process s

/-- Every setup process still covers the living holders of other generations than the one in the
file. -/
def Swept (pool : MeshPool) : Prop :=
  ∀ stopper, pool.shared.running stopper = true → ∀ pid generation dir, Claiming pool pid .held generation dir →
    pool.shared.generation ≠ some generation → (pool.procs stopper).Covers pid dir

structure Orderly (pool : MeshPool) : Prop where
  backed : Program.Annotated (fun _ => True) BackedNote pool
  swept : Swept pool

theorem booted_orderly : Orderly booted :=
  ⟨⟨trivial, fun _ running => nomatch running⟩, fun _ running => nomatch running⟩

section Invariant

variable {pool : MeshPool} {pid other : ℕ} {choice : WorkerChoice}

/-- A step that leads to a claim brings about what the claim rests on. -/
theorem Advance.backs {s : Host} {process : MeshProcess} {generation : Generation} {dir : WorkerDir}
    {operation : Operation} {claim : Claim} (advance : Advance s process generation dir operation claim)
    (backed : Backed pid process s) (current : claim = .held ∨ s.generation = some generation) :
    (s.apply pid operation).Backs pid dir claim := by
  cases advance with
  | keeps before => exact backed.claim _ _ _ before current
  | makes => exact ⟨⟨pid, []⟩, Function.update_self .., rfl, fun late => absurd rfl late⟩
  | marks made =>
      obtain ⟨d, here, maker, -⟩ := backed.claim _ _ _ made (.inr (current.resolve_left nofun))
      refine ⟨{ d with markers := d.markers.insert pid }, ?_, maker, fun _ => List.mem_insert_self⟩
      exact (Function.update_self ..).trans (congrArg _ here)
  | takes marked now =>
      obtain ⟨d, here, maker, inside⟩ := backed.claim _ _ _ marked (.inr now)
      exact ⟨d, here, maker, fun _ => inside nofun⟩

theorem Advance.held {s : Host} {process : MeshProcess} {generation : Generation} {dir : WorkerDir}
    {operation : Operation} (advance : Advance s process generation dir operation .held) :
    process.claim = some (.held, generation, dir) ∨ s.generation = some generation := by
  cases advance with
  | keeps before => exact .inl before
  | takes marked current => exact .inr current

theorem Advance.generation_kept {s : Host} {process : MeshProcess} {generation : Generation} {dir : WorkerDir}
    {operation : Operation} {claim : Claim} (advance : Advance s process generation dir operation claim) :
    (s.apply pid operation).generation = s.generation := by
  cases advance <;> rfl

/-- A process's own step. -/
theorem BackedNote.own {s : Host} {process : MeshProcess} {result : Operation × MeshProcess} (note : BackedNote pid process s)
    (taken : Taken pid choice s process result) : BackedNote pid result.2 (s.apply pid result.1) := by
  intro running
  rcases apply_running running with before | ⟨launch, -⟩
  · have backed := note before
    refine ⟨fun claim generation dir claims current => ?_, fun charge => ?_⟩
    · have advance := taken.advance claims
      rw [advance.generation_kept] at current
      exact advance.backs backed current
    · rcases taken.inCharge charge with charged | locks
      · refine apply_flock running (backed.flock charged) fun locks => ?_
        have guarded := taken.guard
        rw [locks] at guarded
        exact guarded
      · rw [locks]
        rfl
  · obtain ⟨none, free⟩ := taken.launched launch
    refine ⟨fun claim generation dir claims => ?_, fun charge => ?_⟩
    · rw [none] at claims
      cases claims
    · rw [free] at charge
      cases charge

/-- The step of another process. -/
theorem BackedNote.bystander {result : Operation × MeshProcess} (orderly : Orderly pool)
    (taken : Taken pid choice pool.shared (pool.procs pid) result) (spares : result.1.Spares pool) (apart : other ≠ pid) :
    BackedNote other (pool.procs other) (pool.shared.apply pid result.1) := by
  intro running
  have guarded := taken.guard
  rcases apply_running running with before | ⟨-, same⟩
  · have backed := orderly.backed.procs other before
    refine ⟨fun claim generation dir claims current => ?_, fun charge => ?_⟩
    · have claiming : Claiming pool other claim generation dir := ⟨before, claims⟩
      have now : claim = .held ∨ pool.shared.generation = some generation := by
        rcases current with held | written
        · exact .inl held
        · by_cases kept : ∀ generation, result.1 ≠ .write generation
          · rw [apply_generation kept] at written
            exact .inr written
          · push Not at kept
            obtain ⟨generation', write⟩ := kept
            rw [write] at written spares
            cases written
            exact .inl (spares _ _ _ claiming)
      refine (backed.claim _ _ _ claims now).apply (fun mkdir => ?_) (fun unlink => ?_) (fun rmdir vacant made => ?_)
      · rw [mkdir] at guarded
        exact guarded
      · rw [unlink] at guarded spares
        rcases spares _ _ claiming with made | outdated
        · exact made
        · have held : claim = .held := now.resolve_right outdated
          subst held
          rcases guarded with own | ⟨actor, uncovered⟩
          · exact absurd own apart
          · exact absurd (orderly.swept pid actor other generation dir claiming outdated) (uncovered other dir)
      · rw [rmdir] at spares
        subst made
        exact spares vacant _ _ claiming (now.resolve_left nofun)
    · refine apply_flock running (backed.flock charge) fun locks => ?_
      rw [locks] at guarded
      exact guarded
  · exact absurd same apart

@[simp]
theorem procs_run (pool : MeshPool) (pid : ℕ) (choice : WorkerChoice) :
    (meshProcesses.system.step pool (.run pid choice)).1.procs pid = (command pid choice pool.shared (pool.procs pid)).2 :=
  Function.update_self ..

/-- Nothing comes to be held but by a worker of the generation in the file. -/
theorem held_of_step {turn : MeshTurn} {generation : Generation} {dir : WorkerDir}
    (claiming : Claiming (meshProcesses.system.step pool turn).1 pid .held generation dir) :
    Claiming pool pid .held generation dir ∨
      pool.shared.generation = some generation ∧
        (meshProcesses.system.step pool turn).1.shared.generation = pool.shared.generation := by
  obtain ⟨running, claims⟩ := claiming
  cases turn with
  | outside event =>
      refine .inl ⟨?_, claims⟩
      cases event with
      | signal name => exact running
      | kill name => exact (reap_running running).2
  | run runner choice =>
      by_cases own : pid = runner
      · subst own
        have taken := command_taken pid choice pool.shared (pool.procs pid)
        rw [procs_run] at claims
        rcases apply_running running with before | ⟨launch, -⟩
        · have advance := taken.advance claims
          rcases advance.held with held | current
          · exact .inl ⟨before, held⟩
          · exact .inr ⟨current, advance.generation_kept⟩
        · rw [(taken.launched launch).1] at claims
          cases claims
      · rw [Program.procs_step_of_ne fun choice same => own (Turn.run.inj same).1.symm] at claims
        rcases apply_running running with before | ⟨-, same⟩
        · exact .inl ⟨before, claims⟩
        · exact absurd same own

/-- A holder that is not of the generation in the file was there before the step. -/
theorem outdated_of_step {turn : MeshTurn} {generation : Generation} {dir : WorkerDir}
    (claiming : Claiming (meshProcesses.system.step pool turn).1 pid .held generation dir)
    (outdated : (meshProcesses.system.step pool turn).1.shared.generation ≠ some generation) :
    Claiming pool pid .held generation dir := by
  rcases held_of_step claiming with before | ⟨current, kept⟩
  · exact before
  · exact absurd (kept.trans current) outdated

theorem claim_of_uncovered {process : MeshProcess} {dir : WorkerDir} (uncovered : ¬process.Covers pid dir) :
    process.claim = none := by
  cases process with
  | worker generation trapped control => exact absurd trivial uncovered
  | _ => rfl

/-- Only one process is in charge. -/
theorem Orderly.alone (orderly : Orderly pool) (first : pool.shared.running pid = true)
    (charge : (pool.procs pid).inCharge = true) (second : pool.shared.running other = true) (apart : other ≠ pid) :
    (pool.procs other).inCharge = false := by
  by_contra charged
  have locked := (orderly.backed.procs pid first).flock charge
  rw [(orderly.backed.procs other second).flock (eq_true_of_ne_false charged)] at locked
  exact apart (Option.some.inj locked)

theorem swept_step (orderly : Orderly pool) (turn : MeshTurn) : Swept (meshProcesses.system.step pool turn).1 := by
  intro stopper alive holder generation dir claiming outdated
  have before := outdated_of_step claiming outdated
  cases turn with
  | outside event =>
      cases event with
      | signal name => exact orderly.swept stopper alive holder generation dir before outdated
      | kill name => exact orderly.swept stopper (reap_running alive).2 holder generation dir before outdated
  | run runner choice =>
      have taken := command_taken runner choice pool.shared (pool.procs runner)
      have guarded := taken.guard
      by_cases own : stopper = runner
      · subst own
        rw [procs_run]
        by_contra uncovered
        have apart : holder ≠ stopper := by
          rintro rfl
          have claims := claiming.2
          rw [procs_run, claim_of_uncovered uncovered] at claims
          cases claims
        rcases apply_running alive with present | ⟨launch, -⟩
        · refine uncovered (taken.covers ?_ ((orderly.backed.procs holder before.1).claim _ _ _ before.2 (.inl rfl)) ?_)
          · by_cases kept : ∀ generation, (command stopper choice pool.shared (pool.procs stopper)).1 ≠ .write generation
            · refine orderly.swept stopper present holder generation dir before ?_
              rwa [← apply_generation kept]
            · push Not at kept
              obtain ⟨written, write⟩ := kept
              rw [write] at guarded
              exact guarded.2.2 holder dir
          · rw [Host.isWorker, Bool.and_eq_true, bne_iff_ne]
            exact ⟨apart, before.1⟩
        · exact uncovered (covers_of_not_inCharge (taken.launched launch).2 holder dir)
      · rw [Program.procs_step_of_ne fun choice same => own (Turn.run.inj same).1.symm]
        have present := (apply_running alive).resolve_right fun launched => own launched.2
        by_cases kept : ∀ generation, (command runner choice pool.shared (pool.procs runner)).1 ≠ .write generation
        · refine orderly.swept stopper present holder generation dir before ?_
          rwa [← apply_generation kept]
        · push Not at kept
          obtain ⟨written, write⟩ := kept
          rw [write] at guarded
          exact covers_of_not_inCharge (orderly.alone guarded.1 guarded.2.1 present own) holder dir

theorem BackedNote.surround {s : Host} {process : MeshProcess} (note : BackedNote pid process s) (event : HostEvent) :
    BackedNote pid process (s.surround event) := by
  intro running
  cases event with
  | signal name => exact ⟨(note running).claim, (note running).flock⟩
  | kill name =>
      obtain ⟨apart, before⟩ := reap_running running
      exact ⟨(note before).claim, fun charge => reap_flock apart ((note before).flock charge)⟩

/-- The notes are kept by the turns that take nothing from a worker, while the setup processes
cover the holders. -/
theorem backed_keeps :
    meshProcesses.Keeps (fun pool turn => Undisturbed pool turn ∧ Swept pool) (fun _ => True) BackedNote where
  own _ pid _ annotated _ := ⟨trivial, (annotated.procs pid).own (command_taken ..)⟩
  others _ _ _ annotated permitted _ apart := .bystander ⟨annotated, permitted.2⟩ (command_taken ..) permitted.1 apart
  outside _ event annotated _ := ⟨trivial, fun pid => (annotated.procs pid).surround event⟩

theorem orderly_step (orderly : Orderly pool) {turn : MeshTurn} (undisturbed : Undisturbed pool turn) :
    Orderly (meshProcesses.system.step pool turn).1 :=
  ⟨backed_keeps.step orderly.backed ⟨undisturbed, orderly.swept⟩, swept_step orderly turn⟩

theorem orderly_run {turns : List MeshTurn} (undisturbed : meshProcesses.system.AllSteps Undisturbed booted turns) :
    Orderly (meshProcesses.system.final booted turns) := by
  have keeps : ∀ pool turn, Orderly pool → Undisturbed pool turn → Orderly (meshProcesses.system.step pool turn).1 :=
    fun _ _ orderly undisturbed => orderly_step orderly undisturbed
  exact meshProcesses.system.final_invariant keeps booted_orderly undisturbed

/-- Who made the directory is the only one to hold it. -/
theorem Orderly.exclusive (orderly : Orderly pool) : Exclusive pool := by
  intro dir first second generation generation' holds holds'
  obtain ⟨d, here, maker, -⟩ := (orderly.backed.procs first holds.1).claim _ _ _ holds.2 (.inl rfl)
  obtain ⟨d', here', maker', -⟩ := (orderly.backed.procs second holds'.1).claim _ _ _ holds'.2 (.inl rfl)
  rw [here, Option.some.injEq] at here'
  rw [← maker, here', maker']

/-- Where `start_generation` has returned, everything held is held by workers of the generation in
the file. -/
theorem Orderly.current_of_started (orderly : Orderly pool) (started : Started pool) {generation : Generation}
    {dir : WorkerDir} (claiming : Claiming pool pid .held generation dir) :
    pool.shared.generation = some generation := by
  obtain ⟨stopper, alive, returned⟩ := started
  by_contra outdated
  have covers := orderly.swept stopper alive pid generation dir claiming outdated
  rw [returned] at covers
  exact covers

end Invariant

/-! ## Runs -/

/-- In every run in which no turn takes a directory or a marker from a worker of the generation in
the file, no two living workers hold one directory, and once `start_generation` has returned
nothing is held by a worker of a generation that has not been in the file since. -/
theorem workers_exclusive (turns : List MeshTurn)
    (undisturbed : meshProcesses.system.AllSteps Undisturbed booted turns) :
    Exclusive (meshProcesses.system.final booted turns) ∧
      ∀ first second, turns = first ++ second → Started (meshProcesses.system.final booted first) →
        ∀ pid generation dir, Claiming (meshProcesses.system.final booted turns) pid .held generation dir →
          ∃ later rest, second = later ++ rest ∧
            (meshProcesses.system.final booted (first ++ later)).shared.generation = some generation := by
  refine ⟨(orderly_run undisturbed).exclusive, ?_⟩
  rintro first second rfl started pid generation dir claiming
  rw [meshProcesses.system.allSteps_append] at undisturbed
  rw [meshProcesses.system.final_append] at claiming
  obtain ⟨later, rest, split, found⟩ := meshProcesses.system.final_since
    (fun pool generation => Claiming pool pid .held generation dir)
    (fun pool generation => pool.shared.generation = some generation)
    (fun _ _ _ claiming => (held_of_step claiming).imp id And.left)
    (fun _ claiming => (orderly_run undisturbed.1).current_of_started started claiming) second claiming
  refine ⟨later, rest, split, ?_⟩
  rw [meshProcesses.system.final_append]
  exact found

/-! ## Two runs -/

/-- A process takes its next commands, at one time. -/
def proceeds (pid commands : ℕ) : List MeshTurn := List.replicate commands (.run pid (.proceed 100))

/-- A worker without a generation in its environment, up to the end of `worker_lock`. -/
def lockTurns (pid : ℕ) (dir : WorkerDir) : List MeshTurn :=
  .run pid (.launchWorker none) :: proceeds pid 2 ++ .run pid (.lock dir) :: proceeds pid 5

/-- `start_generation` where no worker runs. -/
def startTurns : List MeshTurn := .run 1 (.launchSetup .start) :: proceeds 1 8

/-! ### Checked runs -/

/-- What `Operation.Spares` asks of one process. -/
def Operation.sparesOne (pool : MeshPool) (operation : Operation) (pid : ℕ) : Bool :=
  !pool.shared.running pid ||
    match operation, (pool.procs pid).claim with
    | .rmdir dir, some (.made, generation, dir') =>
        dir' != dir || pool.shared.markers dir != [] || pool.shared.generation != some generation
    | .unlink dir name, some (claim, generation, dir') =>
        name != pid || dir' != dir || claim == .made || pool.shared.generation != some generation
    | .write (some generation), some (claim, generation', _) => generation' != generation || claim == .held
    | _, _ => true

/-- The turns of processes with small pids, each checked against all of these. -/
def checkedRun (bound : ℕ) : MeshPool → List MeshTurn → Bool
  | _, [] => true
  | _, .outside _ :: _ => false
  | pool, .run pid choice :: rest =>
      pid < bound && (List.range bound).all ((command pid choice pool.shared (pool.procs pid)).1.sparesOne pool) &&
        checkedRun bound (meshProcesses.system.step pool (.run pid choice)).1 rest

theorem spares_of_sparesOne {pool : MeshPool} {operation : Operation}
    (all : ∀ pid, operation.sparesOne pool pid = true) : operation.Spares pool := by
  have one : ∀ pid, pool.shared.running pid = true → operation.sparesOne pool pid = true := fun pid _ => all pid
  cases operation with
  | rmdir dir =>
      rintro ⟨d, here, unmarked⟩ pid generation ⟨alive, claim⟩ current
      have spared := one pid alive
      simp [Operation.sparesOne, alive, claim, current, Host.markers, here, unmarked] at spared
  | unlink dir pid =>
      rintro claim generation ⟨alive, claims⟩
      have spared := one pid alive
      simpa [Operation.sparesOne, alive, claims] using spared
  | write generation =>
      cases generation with
      | none => trivial
      | some generation =>
          rintro pid claim dir ⟨alive, claims⟩
          have spared := one pid alive
          simpa [Operation.sparesOne, alive, claims] using spared
  | nothing | launch | mkdir _ | touch _ | flock | term _ | kill _ | take | exit => trivial

/-- Only a launched process starts to run. -/
theorem running_step {pool : MeshPool} {pid : ℕ} {choice : WorkerChoice} {other : ℕ} (apart : other ≠ pid)
    (dead : pool.shared.running other = false) :
    (meshProcesses.system.step pool (.run pid choice)).1.shared.running other = false := by
  change (pool.shared.apply pid (command pid choice pool.shared (pool.procs pid)).1).running other = false
  generalize (command pid choice pool.shared (pool.procs pid)).1 = operation
  have reaped : ∀ victim, (pool.shared.reap victim).running other = false := fun victim => by
    change Function.update pool.shared.running victim false other = false
    by_cases same : other = victim
    · rw [same, Function.update_self]
    · rw [Function.update_of_ne same, dead]
  cases operation with
  | launch => exact (Function.update_of_ne apart _ _).trans dead
  | kill victim => exact reaped victim
  | exit => exact reaped pid
  | nothing | mkdir _ | touch _ | unlink _ _ | rmdir _ | flock | write _ | term _ | take => exact dead

theorem undisturbed_of_checkedRun {bound : ℕ} {pool : MeshPool} {turns : List MeshTurn}
    (dead : ∀ pid, bound ≤ pid → pool.shared.running pid = false) (checked : checkedRun bound pool turns = true) :
    meshProcesses.system.AllSteps Undisturbed pool turns := by
  induction turns generalizing pool with
  | nil => exact meshProcesses.system.allSteps_nil _ _
  | cons turn rest ih =>
      cases turn with
      | outside event => cases checked
      | run pid choice =>
          simp only [checkedRun, Bool.and_eq_true, decide_eq_true_eq, List.all_eq_true, List.mem_range] at checked
          obtain ⟨⟨small, spared⟩, later⟩ := checked
          refine (meshProcesses.system.allSteps_cons ..).mpr ⟨spares_of_sparesOne fun other => ?_, ih ?_ later⟩
          · by_cases inside : other < bound
            · exact spared other inside
            · unfold Operation.sparesOne
              rw [dead other (Nat.le_of_not_lt inside)]
              rfl
          · intro other beyond
            exact running_step (Nat.ne_of_gt (Nat.lt_of_lt_of_le small beyond)) (dead other beyond)

/-! ### Contention -/

/-- Two workers of the first generation want one directory. While the first of them holds it a second
`start_generation` writes its generation, and a worker of that wants the directory too. The old worker
is signalled and unlocks it. -/
def contendedTurns : List MeshTurn :=
  startTurns ++ .run 1 .exit ::
    .run 2 (.launchWorker none) :: proceeds 2 2 ++ .run 3 (.launchWorker none) :: proceeds 3 2 ++
    .run 2 (.lock 5) :: .run 3 (.lock 5) :: proceeds 2 1 ++ proceeds 3 1 ++ proceeds 2 1 ++ proceeds 3 1 ++
    proceeds 2 3 ++ .run 4 (.launchSetup .start) :: proceeds 4 2 ++ .run 5 (.launchWorker none) :: proceeds 5 2 ++
    .run 5 (.lock 5) :: proceeds 5 2 ++ proceeds 4 7 ++ .run 2 .signal :: proceeds 2 3 ++ proceeds 4 5

/-- The worker of the second generation tries again. -/
def retryTurns : List MeshTurn := .run 5 (.lock 5) :: proceeds 5 5

theorem workers_exclusive_contended :
    Exclusive (meshProcesses.system.final booted (contendedTurns ++ retryTurns)) ∧
      ∃ later rest, retryTurns = later ++ rest ∧
        (meshProcesses.system.final booted (contendedTurns ++ later)).shared.generation = some ⟨4, 100⟩ := by
  have undisturbed : meshProcesses.system.AllSteps Undisturbed booted (contendedTurns ++ retryTurns) :=
    undisturbed_of_checkedRun (fun _ _ => rfl) (show checkedRun 6 booted _ = true by decide +kernel)
  obtain ⟨exclusive, current⟩ := workers_exclusive _ undisturbed
  have started : Started (meshProcesses.system.final booted contendedTurns) :=
    ⟨4, by decide +kernel, by decide +kernel⟩
  exact ⟨exclusive, current contendedTurns retryTurns rfl started 5 ⟨4, 100⟩ 5 ⟨by decide +kernel, by decide +kernel⟩⟩

/-- A worker locks a directory of the generation just written before `rm -rf` has come to it, and
another one locks it afterwards. -/
theorem stop_removes_held_directory :
    ¬Exclusive (meshProcesses.system.final booted
      (startTurns.take 6 ++ lockTurns 2 5 ++ proceeds 1 5 ++ lockTurns 3 5)) := by
  intro exclusive
  cases exclusive 5 2 3 ⟨1, 100⟩ ⟨1, 100⟩ ⟨rfl, rfl⟩ ⟨rfl, rfl⟩

end XWrt.Fakemesh
