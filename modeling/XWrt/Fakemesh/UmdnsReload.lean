import Mathlib.Tactic.IntervalCases
import XWrt.Foundation.Interleaving

/-!
# Reloads of umdns

`schedule_umdns_reload` of `19-fakemesh`: each call starts a job that gives up
when another has the lock, and otherwise waits and reloads. The lock is kept
through the reload. So a call that comes while a reload runs is lost if its job
still finds that lock, unless a later job gets it.
-/

namespace XWrt.Fakemesh

open XWrt.Foundation

/-! ## The jobs -/

/-- Where a job stands. -/
inductive UmdnsJob where
  /-- not called -/
  | absent
  /-- `exec 8>` -/
  | opening
  /-- `flock -n 8` -/
  | trying
  /-- `sleep 60` -/
  | sleeping
  /-- `/etc/init.d/umdns enabled` -/
  | checking
  /-- `/etc/init.d/umdns reload` -/
  | reloading
  | ended
  deriving DecidableEq, Repr

inductive UmdnsChoice where
  | call
  /-- the command in progress comes back; `enabled` is what `umdns enabled` says -/
  | proceed (enabled : Bool)
  deriving DecidableEq, Repr

/-- The lock is freed when its holder exits. -/
def unlocked (pid : ℕ) (lock : Option ℕ) : Option ℕ := if lock = some pid then none else lock

/-- The next command of a job. -/
def stepUmdnsJob (pid : ℕ) : UmdnsChoice → Option ℕ → UmdnsJob → Option ℕ × UmdnsJob
  | .call, lock, .absent => (lock, .opening)
  | .proceed _, lock, .opening => (lock, .trying)
  | .proceed _, none, .trying => (some pid, .sleeping)
  | .proceed _, some holder, .trying => (some holder, .ended)
  | .proceed _, lock, .sleeping => (lock, .checking)
  | .proceed true, lock, .checking => (lock, .reloading)
  | .proceed false, lock, .checking => (unlocked pid lock, .ended)
  | .proceed _, lock, .reloading => (unlocked pid lock, .ended)
  | _, lock, job => (lock, job)

/-- The jobs over the lock `fakemesh-umdns-reload.lock`. -/
def umdnsJobs : Program (Option ℕ) UmdnsJob UmdnsChoice Unit Unit where
  step pid choice lock job :=
    let (lock, job) := stepUmdnsJob pid choice lock job
    (lock, job, [])
  outside _ lock := lock

/-- No job, and the lock is free. -/
def umdnsStart : Pool (Option ℕ) UmdnsJob := ⟨none, fun _ => .absent⟩

section Runs

variable (turns : ℕ → Turn UmdnsChoice Unit)

/-- The job after so many turns. -/
abbrev job (pid n : ℕ) : UmdnsJob := umdnsJobs.proc umdnsStart turns pid n

/-- Who has the lock after so many turns. -/
def lockAt (n : ℕ) : Option ℕ := (umdnsJobs.system.along umdnsStart turns n).shared

/-- `schedule_umdns_reload` is called. -/
def Calls (pid n : ℕ) : Prop := job turns pid n = .absent ∧ turns n = .run pid .call

/-- The job's reload starts. -/
def ReloadStarts (pid n : ℕ) : Prop := job turns pid n ≠ .reloading ∧ job turns pid (n + 1) = .reloading

/-- The job gets the lock. -/
def GetsLock (pid n : ℕ) : Prop := job turns pid n = .trying ∧ job turns pid (n + 1) = .sleeping

/-- The job finds that another has the lock. -/
def Refused (pid holder n : ℕ) : Prop :=
  job turns pid n = .trying ∧ job turns pid (n + 1) = .ended ∧ lockAt turns n = some holder

/-- `umdns` stays enabled, and every job comes to its end. -/
structure Regular : Prop where
  enabled : ∀ n pid answer, turns n = .run pid (.proceed answer) → answer = true
  ends : ∀ pid, (∃ n, job turns pid n ≠ .absent) → ∃ n, job turns pid n = .ended

/-- A reload starts after every call. -/
def CallsCovered : Prop := ∀ pid n, Calls turns pid n → ∃ other m, n ≤ m ∧ ReloadStarts turns other m

/-- No two reloads at a time. -/
def ReloadsApart : Prop := ∀ n first second, job turns first n = .reloading → job turns second n = .reloading → first = second

/-- Where a call comes while a reload runs, and its job still finds the lock of that reload, a later job gets the lock. -/
def LateCallsRelieved : Prop :=
  ∀ pid holder n m, Calls turns pid n → job turns holder n = .reloading → n ≤ m → Refused turns pid holder m →
    ∃ other l, m < l ∧ GetsLock turns other l

end Runs

/-! ## Steps -/

/-- How far a job is. -/
def UmdnsJob.rank : UmdnsJob → ℕ
  | .absent => 0
  | .opening => 1
  | .trying => 2
  | .sleeping => 3
  | .checking => 4
  | .reloading => 5
  | .ended => 6

/-- A job has the lock from `flock` to its end. -/
def UmdnsJob.holds (job : UmdnsJob) : Prop := 3 ≤ job.rank ∧ job.rank ≤ 5

instance : DecidablePred UmdnsJob.holds := fun job => inferInstanceAs (Decidable (3 ≤ job.rank ∧ job.rank ≤ 5))

theorem UmdnsJob.rank_eq_five {job : UmdnsJob} (rank : job.rank = 5) : job = .reloading := by
  cases job <;> first | rfl | cases rank

/-- What a step can be. -/
inductive UmdnsMove (pid : ℕ) (choice : UmdnsChoice) : Option ℕ → UmdnsJob → Option ℕ → UmdnsJob → Prop where
  | stays {lock : Option ℕ} {job : UmdnsJob} : UmdnsMove pid choice lock job lock job
  | called {lock : Option ℕ} : UmdnsMove pid choice lock .absent lock .opening
  | opened {lock : Option ℕ} : UmdnsMove pid choice lock .opening lock .trying
  | locks : UmdnsMove pid choice none .trying (some pid) .sleeping
  | refused {holder : ℕ} : UmdnsMove pid choice (some holder) .trying (some holder) .ended
  | slept {lock : Option ℕ} : UmdnsMove pid choice lock .sleeping lock .checking
  | reloads {lock : Option ℕ} : UmdnsMove pid choice lock .checking lock .reloading
  | disabled {lock : Option ℕ} (answer : choice = .proceed false) : UmdnsMove pid choice lock .checking (unlocked pid lock) .ended
  | reloaded {lock : Option ℕ} : UmdnsMove pid choice lock .reloading (unlocked pid lock) .ended

theorem stepUmdnsJob_moves (pid : ℕ) (choice : UmdnsChoice) (lock : Option ℕ) (job : UmdnsJob) :
    UmdnsMove pid choice lock job (stepUmdnsJob pid choice lock job).1 (stepUmdnsJob pid choice lock job).2 := by
  cases choice with
  | call =>
      cases job with
      | absent => exact .called
      | _ => exact .stays
  | proceed answer =>
      cases job with
      | absent => exact .stays
      | opening => exact .opened
      | trying =>
          cases lock with
          | none => exact .locks
          | some holder => exact .refused
      | sleeping => exact .slept
      | checking =>
          cases answer with
          | true => exact .reloads
          | false => exact .disabled rfl
      | reloading => exact .reloaded
      | ended => exact .stays

namespace UmdnsMove

variable {pid : ℕ} {choice : UmdnsChoice} {lock lock' : Option ℕ} {job job' : UmdnsJob}

theorem rises (move : UmdnsMove pid choice lock job lock' job') : job.rank ≤ job'.rank := by
  cases move with
  | stays => exact le_rfl
  | _ => exact Nat.le_of_ble_eq_true rfl

/-- Who gets past `flock` found the lock free, or was refused. -/
theorem enters (move : UmdnsMove pid choice lock job lock' job') (before : ¬3 ≤ job.rank) (after : 3 ≤ job'.rank) :
    job = .trying ∧ (lock = none ∧ job' = .sleeping ∨ (∃ holder, lock = some holder) ∧ job' = .ended) := by
  cases move with
  | stays => exact absurd after before
  | locks => exact ⟨rfl, .inl ⟨rfl, rfl⟩⟩
  | refused => exact ⟨rfl, .inr ⟨⟨_, rfl⟩, rfl⟩⟩
  | called => exact absurd after (by decide)
  | opened => exact absurd after (by decide)
  | _ => exact absurd (by decide) before

/-- A holder does not end before its reload, while `umdns` is enabled. -/
theorem starts (move : UmdnsMove pid choice lock job lock' job') (enabled : choice ≠ .proceed false) (holds : 3 ≤ job.rank)
    (before : ¬5 ≤ job.rank) (after : 5 ≤ job'.rank) : job' = .reloading := by
  cases move with
  | stays => exact absurd after before
  | reloads => rfl
  | disabled answer => exact absurd answer enabled
  | reloaded => exact absurd (by decide) before
  | slept => exact absurd after (by decide)
  | _ => exact absurd holds (by decide)

theorem others (move : UmdnsMove pid choice lock job lock' job') {other : ℕ} (apart : other ≠ pid) (note : job.holds ↔ lock = some pid) :
    lock' = some other ↔ lock = some other := by
  have freed : unlocked pid lock = some other ↔ lock = some other := by
    unfold unlocked
    split
    next own =>
      rw [own]
      exact ⟨nofun, fun same => absurd (Option.some.inj same).symm apart⟩
    next => exact Iff.rfl
  cases move with
  | locks => exact ⟨fun same => absurd (Option.some.inj same).symm apart, nofun⟩
  | disabled => exact freed
  | reloaded => exact freed
  | _ => exact Iff.rfl

theorem own (move : UmdnsMove pid choice lock job lock' job') (note : job.holds ↔ lock = some pid) :
    job'.holds ↔ lock' = some pid := by
  have freed : UmdnsJob.ended.holds ↔ unlocked pid lock = some pid := by
    refine iff_of_false (by decide) ?_
    unfold unlocked
    split
    next => nofun
    next other => exact other
  cases move with
  | stays => exact note
  | called => exact iff_of_false (by decide) (note.not.mp (by decide))
  | opened => exact iff_of_false (by decide) (note.not.mp (by decide))
  | locks => exact iff_of_true (by decide) rfl
  | refused => exact iff_of_false (by decide) (note.not.mp (by decide))
  | slept => exact iff_of_true (by decide) (note.mp (by decide))
  | reloads => exact iff_of_true (by decide) (note.mp (by decide))
  | disabled => exact freed
  | reloaded => exact freed

end UmdnsMove

/-! ## Runs -/

section Runs

variable {turns : ℕ → Turn UmdnsChoice Unit}

/-- A job that has come further got there by one of its moves. -/
theorem moves_of_run {pid n : ℕ} {choice : UmdnsChoice} (turn : turns n = .run pid choice) :
    ∃ lock', UmdnsMove pid choice (lockAt turns n) (job turns pid n) lock' (job turns pid (n + 1)) := by
  refine ⟨(stepUmdnsJob pid choice (lockAt turns n) (job turns pid n)).1, ?_⟩
  rw [show job turns pid (n + 1) = _ from Program.proc_succ_of_run turn]
  exact stepUmdnsJob_moves pid choice _ _

variable (turns) in
theorem rank_mono (pid : ℕ) {n m : ℕ} (later : n ≤ m) : (job turns pid n).rank ≤ (job turns pid m).rank :=
  Program.proc_mono UmdnsJob.rank (fun pid choice lock job => (stepUmdnsJob_moves pid choice lock job).rises) pid later

theorem umdnsJobs_keeps : umdnsJobs.Keeps (fun _ (_ : Turn UmdnsChoice Unit) => True) (fun _ => True)
    (fun pid job lock => job.holds ↔ lock = some pid) where
  own _ pid choice annotated _ := ⟨trivial, (stepUmdnsJob_moves pid choice _ _).own (annotated.procs pid)⟩
  others _ pid choice annotated _ other apart :=
    (annotated.procs other).trans ((stepUmdnsJob_moves pid choice _ _).others apart (annotated.procs pid)).symm
  outside _ _ annotated _ := ⟨trivial, annotated.procs⟩

/-- The lock is with the job that stands between `flock` and its end. -/
theorem holds_iff (turns : ℕ → Turn UmdnsChoice Unit) (pid n : ℕ) : (job turns pid n).holds ↔ lockAt turns n = some pid := by
  have start : Program.Annotated (fun _ => True) (fun pid (job : UmdnsJob) lock => job.holds ↔ lock = some pid) umdnsStart :=
    ⟨trivial, fun _ => iff_of_false (show ¬UmdnsJob.absent.holds by decide) nofun⟩
  have along : Program.Annotated _ _ (umdnsJobs.system.along umdnsStart turns n) :=
    @Transducer.along_invariant _ _ _ umdnsJobs.system _ _ (fun _ _ annotated permitted => umdnsJobs_keeps.step annotated permitted)
      umdnsStart turns 0 (fun _ _ => trivial) start n (Nat.zero_le n)
  exact along.procs pid

theorem reloadsApart (turns : ℕ → Turn UmdnsChoice Unit) : ReloadsApart turns := by
  intro n first second one other
  have holdsFirst := (holds_iff turns first n).mp (by rw [one]; decide)
  have holdsSecond := (holds_iff turns second n).mp (by rw [other]; decide)
  exact Option.some.inj (holdsFirst.symm.trans holdsSecond)

variable (turns) in
theorem reloading_of_rank (pid n : ℕ) (least : 5 ≤ (job turns pid n).rank) (most : (job turns pid n).rank ≤ 5) :
    job turns pid n = .reloading :=
  UmdnsJob.rank_eq_five (Nat.le_antisymm most least)

/-- A job reloads when it gets from before its reload into it. -/
theorem starts_between {pid n m : ℕ} (later : n ≤ m) (before : ¬5 ≤ (job turns pid n).rank) (reloading : job turns pid m = .reloading) :
    ∃ l, n ≤ l ∧ ReloadStarts turns pid l := by
  obtain ⟨l, choice, from_n, below, -, not_yet, now⟩ := Program.exists_change (p := fun job => 5 ≤ UmdnsJob.rank job) later before
    (show 5 ≤ (job turns pid m).rank by rw [reloading]; decide)
  have most : (job turns pid (l + 1)).rank ≤ (job turns pid m).rank := rank_mono turns pid below
  rw [reloading] at most
  exact ⟨l, from_n, fun already => not_yet (by rw [show umdnsJobs.proc umdnsStart turns pid l = _ from already]; decide),
    reloading_of_rank turns pid (l + 1) now most⟩

section Regular

variable (regular : Regular turns)
include regular

/-- A job that has the lock and does not reload yet will. -/
theorem starts_of_holds (pid n : ℕ) (holds : 3 ≤ (job turns pid n).rank) (before : ¬5 ≤ (job turns pid n).rank) :
    ∃ l, n ≤ l ∧ ReloadStarts turns pid l := by
  obtain ⟨m, ended⟩ := regular.ends pid ⟨n, fun absent => by rw [absent] at holds; exact absurd holds (by decide)⟩
  have later : n ≤ m := by
    by_contra earlier
    have := rank_mono turns pid (Nat.le_of_not_le earlier)
    rw [ended] at this
    exact before (le_trans (by decide) this)
  obtain ⟨l, choice, from_n, -, turn, not_yet, now⟩ := Program.exists_change (p := fun job => 5 ≤ UmdnsJob.rank job) later before
    (show 5 ≤ (job turns pid m).rank by rw [ended]; decide)
  obtain ⟨_, move⟩ := moves_of_run turn
  have enabled : choice ≠ .proceed false := by
    rintro rfl
    exact absurd (regular.enabled l pid false turn) (by decide)
  refine ⟨l, from_n, fun already => not_yet (by rw [show umdnsJobs.proc umdnsStart turns pid l = _ from already]; decide), ?_⟩
  exact move.starts enabled (holds.trans (rank_mono turns pid from_n)) not_yet now

theorem starts_of_getsLock {pid n : ℕ} (gets : GetsLock turns pid n) : ∃ l, n ≤ l ∧ ReloadStarts turns pid l := by
  obtain ⟨l, later, starts⟩ := starts_of_holds regular pid (n + 1) (by rw [gets.2]; decide) (by rw [gets.2]; decide)
  exact ⟨l, Nat.le_of_succ_le later, starts⟩

/-- A called job gets the lock, or is refused. -/
theorem tries_of_calls {pid n : ℕ} (calls : Calls turns pid n) :
    ∃ l, n ≤ l ∧ (GetsLock turns pid l ∨ ∃ holder, Refused turns pid holder l) := by
  have opening : job turns pid (n + 1) = .opening := by
    rw [job, Program.proc_succ_of_run calls.2, show umdnsJobs.proc umdnsStart turns pid n = _ from calls.1]
    rfl
  obtain ⟨m, ended⟩ := regular.ends pid ⟨n + 1, by rw [opening]; decide⟩
  have later : n ≤ m := by
    by_contra earlier
    have := rank_mono turns pid (Nat.le_of_not_le earlier)
    rw [ended, calls.1] at this
    exact absurd this (by decide)
  obtain ⟨l, choice, from_n, -, turn, not_yet, now⟩ := Program.exists_change (p := fun job => 3 ≤ UmdnsJob.rank job) later
    (show ¬3 ≤ (job turns pid n).rank by rw [calls.1]; decide) (show 3 ≤ (job turns pid m).rank by rw [ended]; decide)
  obtain ⟨_, move⟩ := moves_of_run turn
  obtain ⟨trying, ⟨-, sleeping⟩ | ⟨⟨holder, taken⟩, refused⟩⟩ := move.enters not_yet now
  · exact ⟨l, from_n, .inl ⟨trying, sleeping⟩⟩
  · exact ⟨l, from_n, .inr ⟨holder, trying, refused, taken⟩⟩

theorem covered_of_relieved (relieved : LateCallsRelieved turns) : CallsCovered turns := by
  intro pid n calls
  obtain ⟨l, later, gets | ⟨holder, refused⟩⟩ := tries_of_calls regular calls
  · obtain ⟨m, after, starts⟩ := starts_of_getsLock regular gets
    exact ⟨pid, m, later.trans after, starts⟩
  -- The job is refused: what counts is how far the holder was at the call.
  have holds := (holds_iff turns holder l).mpr refused.2.2
  by_cases late : job turns holder n = .reloading
  · obtain ⟨other, k, after, gets⟩ := relieved pid holder n l calls late later refused
    obtain ⟨m, onward, starts⟩ := starts_of_getsLock regular gets
    exact ⟨other, m, later.trans (after.le.trans onward), starts⟩
  · have before : ¬5 ≤ (job turns holder n).rank := fun already =>
      late (reloading_of_rank turns holder n already ((rank_mono turns holder later).trans holds.2))
    by_cases begun : 5 ≤ (job turns holder l).rank
    · obtain ⟨m, after, starts⟩ := starts_between later before (reloading_of_rank turns holder l begun holds.2)
      exact ⟨holder, m, after, starts⟩
    · obtain ⟨m, after, starts⟩ := starts_of_holds regular holder l holds.1 begun
      exact ⟨holder, m, later.trans after, starts⟩

end Regular

/-- A reload that starts after a call that came while another ran belongs to a job that got the lock after that. -/
theorem relieved_of_covered (covered : CallsCovered turns) : LateCallsRelieved turns := by
  intro pid holder n m calls reloading later refused
  obtain ⟨other, l, after, starts⟩ := covered pid n calls
  have sure := reloading_of_rank turns other (l + 1) (by rw [starts.2]; decide) (by rw [starts.2]; decide)
  have holds : (job turns holder n).holds := by rw [reloading]; decide
  -- The holder's own reload started before, and only one job has the lock.
  have before : ¬3 ≤ (job turns other n).rank := by
    intro past
    have most : (job turns other n).rank ≤ 5 := (rank_mono turns other (after.trans (Nat.le_succ l))).trans (by rw [sure]; decide)
    have same : holder = other := Option.some.inj
      (((holds_iff turns holder n).mp holds).symm.trans ((holds_iff turns other n).mp ⟨past, most⟩))
    subst same
    have least := rank_mono turns holder after
    have upper := rank_mono turns holder (Nat.le_succ l)
    rw [reloading] at least
    rw [sure] at upper
    exact starts.1 (reloading_of_rank turns holder l least upper)
  obtain ⟨k, choice, from_n, below, turn, not_yet, now⟩ := Program.exists_change (p := fun job => 3 ≤ UmdnsJob.rank job)
    (after.trans (Nat.le_succ l)) before (show 3 ≤ (job turns other (l + 1)).rank by rw [sure]; decide)
  obtain ⟨_, move⟩ := moves_of_run turn
  obtain ⟨trying, ⟨free, sleeping⟩ | ⟨-, ended⟩⟩ := move.enters not_yet now
  · refine ⟨other, k, ?_, trying, sleeping⟩
    -- Up to the refusal the lock is the holder's.
    by_contra early
    have least := rank_mono turns holder from_n
    have most := rank_mono turns holder (Nat.le_of_not_lt early)
    have until_then := (holds_iff turns holder m).mpr refused.2.2
    have held := (holds_iff turns holder k).mp ⟨holds.1.trans least, most.trans until_then.2⟩
    rw [free] at held
    cases held
  · have upper := rank_mono turns other (show k + 1 ≤ l + 1 from below)
    rw [show job turns other (k + 1) = _ from ended, sure] at upper
    exact absurd upper (by decide)

end Runs

/-- No two reloads overlap; and a reload starts after every call exactly when every call that comes while a reload runs, and
whose job still finds the lock of that reload, is followed by a job that gets the lock. -/
theorem umdnsReloads_follow_iff {turns : ℕ → Turn UmdnsChoice Unit} (regular : Regular turns) :
    ReloadsApart turns ∧ (CallsCovered turns ↔ LateCallsRelieved turns) :=
  ⟨reloadsApart turns, relieved_of_covered, covered_of_relieved regular⟩

/-! ## Two runs -/

/-- These turns, and nothing after them. -/
def listed (list : List (Turn UmdnsChoice Unit)) (n : ℕ) : Turn UmdnsChoice Unit := list[n]?.getD (.outside ())

section Listed

variable {list : List (Turn UmdnsChoice Unit)}

theorem mem_of_listed {n pid : ℕ} {choice : UmdnsChoice} (turn : listed list n = .run pid choice) :
    n < list.length ∧ .run pid choice ∈ list := by
  rw [listed] at turn
  cases found : list[n]? with
  | none =>
      rw [found] at turn
      cases turn
  | some here =>
      rw [found] at turn
      obtain ⟨below, -⟩ := List.getElem?_eq_some_iff.mp found
      exact ⟨below, turn ▸ List.mem_of_getElem? found⟩

/-- A list in which every job that has a turn ends is a regular run. -/
theorem regular_listed (enabled : ∀ pid, .run pid (.proceed false) ∉ list)
    (ends : ∀ pid choice, .run pid choice ∈ list → job (listed list) pid list.length = .ended) : Regular (listed list) where
  enabled n pid answer turn := by
    cases answer with
    | true => rfl
    | false => exact absurd (mem_of_listed turn).2 (enabled pid)
  ends pid := by
    rintro ⟨n, present⟩
    have absent : ¬umdnsJobs.proc umdnsStart (listed list) pid 0 ≠ .absent := not_not.mpr rfl
    obtain ⟨l, choice, -, -, turn, -⟩ := Program.exists_change (p := (· ≠ UmdnsJob.absent)) (Nat.zero_le n) absent present
    exact ⟨list.length, ends pid choice (mem_of_listed turn).2⟩

/-- A reload starts in a turn of its job. -/
theorem turn_of_starts {turns : ℕ → Turn UmdnsChoice Unit} {pid n : ℕ} (starts : ReloadStarts turns pid n) :
    ∃ choice, turns n = .run pid choice := by
  by_contra other
  exact starts.1 ((Program.proc_succ_of_ne fun choice turn => other ⟨choice, turn⟩).symm.trans starts.2)

end Listed

/-- Two calls at once: the second job finds the first waiting. -/
def twoCalls : List (Turn UmdnsChoice Unit) :=
  [.run 0 .call, .run 1 .call, .run 0 (.proceed true), .run 1 (.proceed true), .run 0 (.proceed true), .run 1 (.proceed true),
    .run 0 (.proceed true), .run 0 (.proceed true), .run 0 (.proceed true)]

/-- A call while the first job reloads. -/
def lateCall : List (Turn UmdnsChoice Unit) :=
  [.run 0 .call, .run 0 (.proceed true), .run 0 (.proceed true), .run 0 (.proceed true), .run 0 (.proceed true),
    .run 1 .call, .run 1 (.proceed true), .run 1 (.proceed true), .run 0 (.proceed true)]

theorem regular_twoCalls : Regular (listed twoCalls) := by
  refine regular_listed (by simp [twoCalls]) ?_
  intro pid choice member
  have pids : pid = 0 ∨ pid = 1 := by
    simp only [twoCalls, List.mem_cons, Turn.run.injEq, List.not_mem_nil, or_false] at member
    omega
  rcases pids with rfl | rfl <;> rfl

theorem umdnsReloads_follow_twoCalls : CallsCovered (listed twoCalls) := by
  refine (umdnsReloads_follow_iff regular_twoCalls).2.mpr fun pid holder n m calls reloading _ _ => ?_
  have held := (holds_iff (listed twoCalls) holder n).mp (by rw [reloading]; decide)
  have early : n < 2 := by
    have below := (mem_of_listed calls.2).1
    have turn := calls.2
    change n < 9 at below
    interval_cases n <;> first | omega | cases turn
  interval_cases n <;> cases held

/-- The late job ends, and no reload starts any more. -/
theorem lateCall_lost : ∃ turns, Regular turns ∧ ¬CallsCovered turns := by
  refine ⟨listed lateCall, regular_listed (by simp [lateCall]) ?_, fun covered => ?_⟩
  · intro pid choice member
    have pids : pid = 0 ∨ pid = 1 := by
      simp only [lateCall, List.mem_cons, Turn.run.injEq, List.not_mem_nil, or_false] at member
      omega
    rcases pids with rfl | rfl <;> rfl
  · obtain ⟨other, m, later, starts⟩ := covered 1 5 ⟨rfl, rfl⟩
    obtain ⟨choice, turn⟩ := turn_of_starts starts
    have below := (mem_of_listed turn).1
    change m < 9 at below
    interval_cases m <;> cases turn <;> exact absurd starts.2 (by decide)

end XWrt.Fakemesh
