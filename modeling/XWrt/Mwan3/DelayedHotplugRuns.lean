import Mathlib.Data.List.GetD
import Mathlib.Data.Nat.Pairing
import Mathlib.Data.Prod.Lex
import Mathlib.Order.Filter.AtTopBot.Basic
import Mathlib.Order.Filter.Finite
import XWrt.Mwan3.DelayedHotplug

/-!
# Runs of delayed hotplug events

The timers and their shared files are annotated with what is queued, taken and
executed. A line for which no restart is to come is in one place: executed,
queued, in the file a timer has moved, or among the lines a timer has yet to
read. All timers come to rest, and then it is executed.
-/

namespace XWrt.Mwan3

open XWrt.Foundation

/-! ## The log -/

section Log

variable {line : CmdLine} {log : List Report} {pid : ℕ} {report : Report}

@[simp]
theorem executions_append (line : CmdLine) (log : List Report) (report : Report) :
    executions line (log ++ [report]) = executions line log +
      match report with
      | .executed _ other => if other = line then 1 else 0
      | _ => 0 := by
  rw [executions, List.countP_append]
  cases report <;> simp [executions]

@[simp]
theorem queuedLines_append (log : List Report) (report : Report) :
    queuedLines (log ++ [report]) = queuedLines log ++
      match report with
      | .queued line => [line]
      | _ => [] := by
  rw [queuedLines, List.filterMap_append]
  cases report <;> simp [queuedLines]

@[simp]
theorem tookBy_append (pid : ℕ) (log : List Report) (report : Report) :
    tookBy pid (log ++ [report]) = tookBy pid log ++
      match report with
      | .took other lines => if other = pid then lines else []
      | _ => [] := by
  rw [tookBy, List.flatMap_append]
  cases report <;> simp [tookBy]

@[simp]
theorem ranBy_append (pid : ℕ) (log : List Report) (report : Report) :
    ranBy pid (log ++ [report]) = ranBy pid log ++
      match report with
      | .executed other line => if other = pid then [line] else []
      | _ => [] := by
  rw [ranBy, List.filterMap_append]
  cases report with
  | executed other line =>
      by_cases own : other = pid <;> simp [ranBy, own]
  | _ => simp [ranBy]

theorem mem_queuedLines : line ∈ queuedLines log ↔ .queued line ∈ log := by
  simp only [queuedLines, List.mem_filterMap]
  constructor
  · rintro ⟨report, inside, same⟩
    cases report <;> simp_all
  · exact fun inside => ⟨.queued line, inside, rfl⟩

theorem Covered.append (covered : Covered line log) (report : Report) : Covered line (log ++ [report]) :=
  covered.trans (List.sublist_append_left log [report])

/-- A restart covers every line queued before. -/
theorem covered_restarted (queued : line ∈ queuedLines log) : Covered line (log ++ [.restarted]) :=
  (List.singleton_sublist.mpr (mem_queuedLines.mp queued)).append (List.Sublist.refl _)

end Log

/-! ## The annotation -/

/-- The files hold only what was queued, and the command file what was queued last. -/
structure Spool.Tidy (s : Spool) : Prop where
  file : ∀ file, s.queue = some file → file.lines ≠ [] ∧ file.mtime ≤ s.clock
  queue : s.queueLines.Sublist (queuedLines s.log)
  batch : ∀ line ∈ s.batchLines, line ∈ queuedLines s.log
  executed : ∀ line, 0 < executions line s.log → line ∈ queuedLines s.log

/-- The timer will find a command file of this age old enough. -/
def TimerControl.Due (mtime clock : ℕ) : TimerControl → Prop
  | .sleeping wake => mtime + 11 ≤ wake
  | .dating => mtime + 11 ≤ clock
  | .clocking last => last ≤ mtime ∧ mtime + 11 ≤ clock
  | .moving => True
  | _ => False

/-- What a timer has taken and executed, by where it stands. -/
def TimerControl.Ordered (took ran : List CmdLine) (batch : Option (List CmdLine)) : TimerControl → Prop
  | .uncalled | .sleeping _ | .dating | .clocking _ | .moving => took = [] ∧ ran = []
  | .counting | .opening => ran = [] ∧ ∀ lines, batch = some lines → lines = took
  | .reading rest => ran ++ rest = took
  | _ => ran <+: took

theorem TimerControl.Ordered.begins {took ran : List CmdLine} {batch : Option (List CmdLine)} {c : TimerControl}
    (ordered : c.Ordered took ran batch) : ran <+: took := by
  cases c with
  | uncalled | sleeping _ | dating | clocking _ | moving =>
      rw [ordered.2]
      exact List.nil_prefix
  | counting | opening =>
      rw [ordered.1]
      exact List.nil_prefix
  | reading rest => exact ⟨rest, ordered⟩
  | removing | restarting | wiping | deleting | gone => exact ordered

/-- What is known of a call and its timer. -/
structure TimerNote (pid : ℕ) (c : TimerControl) (s : Spool) : Prop where
  called : c = .uncalled → ∀ line ∈ queuedLines s.log, line.caller ≠ pid
  /-- the timer of the last line -/
  due : ∀ file line, s.queue = some file → file.lines.getLast? = some line → line.caller = pid → c.Due file.mtime s.clock
  took : (tookBy pid s.log).Sublist (queuedLines s.log)
  ordered : c.Ordered (tookBy pid s.log) (ranBy pid s.log) s.batch

theorem unspooled_annotated : Program.Annotated Spool.Tidy TimerNote unspooled := by
  refine ⟨?_, fun pid => ?_⟩
  · constructor <;> simp [unspooled, Spool.queueLines, Spool.batchLines, executions]
  · constructor <;> simp [unspooled, queuedLines, tookBy, ranBy, TimerControl.Ordered]

section Effects

variable {s : Spool} {pid other : ℕ} {c : TimerControl} {line : CmdLine}

/-- Nothing is lost or added but by the clock. -/
theorem Spool.Tidy.surround (tidy : s.Tidy) (event : Surroundings) : (s.surround event).Tidy := by
  cases event with
  | remake => exact ⟨tidy.file, tidy.queue, tidy.batch, tidy.executed⟩
  | tick =>
      refine ⟨fun file here => ?_, tidy.queue, tidy.batch, tidy.executed⟩
      exact ⟨(tidy.file file here).1, Nat.le_succ_of_le (tidy.file file here).2⟩

theorem TimerControl.Due.later {mtime clock : ℕ} (due : c.Due mtime clock) : c.Due mtime (clock + 1) := by
  cases c with
  | dating => exact Nat.le_succ_of_le due
  | clocking last => exact ⟨due.1, Nat.le_succ_of_le due.2⟩
  | _ => exact due

theorem TimerNote.surround (note : TimerNote pid c s) (event : Surroundings) : TimerNote pid c (s.surround event) := by
  cases event with
  | remake => exact ⟨note.called, note.due, note.took, note.ordered⟩
  | tick =>
      refine ⟨note.called, fun file line here last own => ?_, note.took, note.ordered⟩
      exact (note.due file line here last own).later

theorem Spool.Tidy.append (tidy : s.Tidy) : (s.append line).Tidy := by
  unfold Spool.append
  split_ifs
  · refine ⟨fun file here => ?_, ?_, fun line' inside => ?_, fun line' ran => ?_⟩
    · cases here
      exact ⟨by simp, le_rfl⟩
    · have grown := tidy.queue.append (List.Sublist.refl [line])
      simpa [Spool.report, Spool.queueLines] using grown
    · simpa [Spool.report] using Or.inl (tidy.batch line' inside)
    · simpa [Spool.report] using Or.inl (tidy.executed line' (by simpa [Spool.report] using ran))
  · exact tidy

/-- The line of another call leaves a timer without a file to wait for. -/
theorem TimerNote.append (note : TimerNote pid c s) (apart : line.caller ≠ pid) : TimerNote pid c (s.append line) := by
  unfold Spool.append
  split_ifs
  · refine ⟨fun fresh line' inside => ?_, fun file line' here last own => ?_, ?_, ?_⟩
    · rw [Spool.report, queuedLines_append, List.mem_append, List.mem_singleton] at inside
      rcases inside with earlier | rfl
      · exact note.called fresh line' earlier
      · exact apart
    · cases here
      rw [List.getLast?_concat, Option.some.injEq] at last
      exact absurd (last ▸ own) apart
    · simpa [Spool.report] using note.took.trans (List.sublist_append_left _ [line])
    · simpa [Spool.report] using note.ordered
  · exact note

variable {s' : Spool}

/-- Where nothing is queued, the files can only lose lines. -/
theorem Spool.Tidy.of_effect (tidy : s.Tidy) (queued : queuedLines s'.log = queuedLines s.log) (clock : s'.clock = s.clock)
    (queue : s'.queue = s.queue ∨ s'.queue = none) (batch : ∀ line ∈ s'.batchLines, line ∈ queuedLines s.log)
    (executed : ∀ line, 0 < executions line s'.log → line ∈ queuedLines s.log) : s'.Tidy := by
  refine ⟨fun file here => ?_, ?_, ?_, ?_⟩
  · rcases queue with same | none
    · rw [clock]
      exact tidy.file file (same ▸ here)
    · rw [none] at here
      cases here
  · rw [queued]
    rcases queue with same | none
    · rw [Spool.queueLines, same]
      exact tidy.queue
    · rw [Spool.queueLines, none]
      exact List.nil_sublist _
  · rwa [queued]
  · rwa [queued]

theorem TimerControl.Ordered.change {took ran : List CmdLine} {batch batch' : Option (List CmdLine)}
    (ordered : c.Ordered took ran batch) (change : batch' = batch ∨ batch' = none ∨ c.holds = false) :
    c.Ordered took ran batch' := by
  rcases change with rfl | rfl | free
  · exact ordered
  · cases c with
    | counting | opening => exact ⟨ordered.1, by simp⟩
    | _ => exact ordered
  · cases c with
    | counting | opening => cases free
    | _ => exact ordered

/-- A step of another timer that queues nothing. -/
theorem TimerNote.of_effect (note : TimerNote pid c s) (queued : queuedLines s'.log = queuedLines s.log)
    (took : tookBy pid s'.log = tookBy pid s.log) (ran : ranBy pid s'.log = ranBy pid s.log) (clock : s'.clock = s.clock)
    (queue : s'.queue = s.queue ∨ s'.queue = none) (batch : s'.batch = s.batch ∨ s'.batch = none ∨ c.holds = false) :
    TimerNote pid c s' := by
  refine ⟨?_, fun file line here last own => ?_, ?_, ?_⟩
  · rw [queued]
    exact note.called
  · rcases queue with same | none
    · rw [clock]
      exact note.due file line (same ▸ here) last own
    · rw [none] at here
      cases here
  · rw [took, queued]
    exact note.took
  · rw [took, ran]
    exact note.ordered.change batch

end Effects

/-- A step of a timer keeps the files tidy. -/
theorem stepTimer_tidy (pid : ℕ) (call : Option HotplugEvent) {s : Spool} (c : TimerControl) (tidy : s.Tidy)
    (note : TimerNote pid c s) : (stepTimer pid call s c).1.Tidy := by
  cases c with
  | uncalled =>
      cases call with
      | none => exact tidy
      | some event => exact tidy.append
  | sleeping _ | dating | clocking _ | counting | gone => exact tidy
  | moving =>
      unfold stepTimer
      cases here : s.queue with
      | none => exact tidy
      | some file =>
          refine tidy.of_effect (by simp [Spool.report]) rfl (.inr rfl) (fun line inside => ?_) fun line ran => ?_
          · refine tidy.queue.subset ?_
            simpa [Spool.report, Spool.batchLines, Spool.queueLines, here] using inside
          · exact tidy.executed line (by simpa [Spool.report] using ran)
  | removing | wiping => exact tidy.of_effect rfl rfl (.inr rfl) (by simp [stepTimer, Spool.batchLines]) tidy.executed
  | restarting =>
      exact tidy.of_effect (by simp [stepTimer, Spool.report]) rfl (.inl rfl) tidy.batch
        fun line ran => tidy.executed line (by simpa [stepTimer, Spool.report] using ran)
  | opening =>
      unfold stepTimer
      cases s.batch <;> exact tidy
  | reading rest =>
      cases rest with
      | nil => exact tidy
      | cons line rest =>
          refine tidy.of_effect (by simp [stepTimer, Spool.report]) rfl (.inl rfl) tidy.batch fun line' ran => ?_
          by_cases own : line = line'
          · have taken : line ∈ tookBy pid s.log := by
              rw [← show ranBy pid s.log ++ line :: rest = tookBy pid s.log from note.ordered]
              simp
            exact own ▸ note.took.subset taken
          · exact tidy.executed line' (by simpa [stepTimer, Spool.report, own] using ran)
  | deleting => exact tidy.of_effect rfl rfl (.inl rfl) (by simp [stepTimer, Spool.batchLines]) tidy.executed

/-- A step of a timer leads from its note to its next. -/
theorem stepTimer_own (pid : ℕ) (call : Option HotplugEvent) {s : Spool} (c : TimerControl) (tidy : s.Tidy)
    (note : TimerNote pid c s) : TimerNote pid (stepTimer pid call s c).2.1 (stepTimer pid call s c).1 := by
  -- with the files as they are
  have stays (c' : TimerControl) (called : c' = .uncalled → c = .uncalled)
      (due : ∀ file line, s.queue = some file → file.lines.getLast? = some line → line.caller = pid →
        c.Due file.mtime s.clock → c'.Due file.mtime s.clock)
      (ordered : c.Ordered (tookBy pid s.log) (ranBy pid s.log) s.batch →
        c'.Ordered (tookBy pid s.log) (ranBy pid s.log) s.batch) : TimerNote pid c' s :=
    ⟨fun fresh => note.called (called fresh),
      fun file line here last own => due file line here last own (note.due file line here last own),
      note.took, ordered note.ordered⟩
  -- past the `mv`, where no command file waits for the timer
  have past (c' : TimerControl) (s' : Spool) (begun : c' ≠ .uncalled) (overdue : ∀ mtime clock, ¬c.Due mtime clock)
      (queued : queuedLines s'.log = queuedLines s.log) (took : tookBy pid s'.log = tookBy pid s.log)
      (queue : s'.queue = s.queue ∨ s'.queue = none)
      (ordered : c'.Ordered (tookBy pid s'.log) (ranBy pid s'.log) s'.batch) : TimerNote pid c' s' := by
    refine ⟨fun fresh => absurd fresh begun, fun file line here last own => ?_, ?_, ordered⟩
    · rcases queue with same | none
      · exact absurd (note.due file line (same ▸ here) last own) (overdue _ _)
      · rw [none] at here
        cases here
    · rw [took, queued]
      exact note.took
  cases c with
  | uncalled =>
      cases call with
      | none => exact note
      | some event =>
          show TimerNote pid (.sleeping (s.clock + 11)) (s.append ⟨pid, hotplugLine event⟩)
          unfold Spool.append
          split_ifs
          · refine ⟨by simp, fun file line here last own => ?_, ?_, ?_⟩
            · cases here
              exact le_rfl
            · simpa [Spool.report] using note.took.trans (List.sublist_append_left _ _)
            · have fresh : tookBy pid s.log = [] ∧ ranBy pid s.log = [] := note.ordered
              simpa [Spool.report, TimerControl.Ordered] using fresh
          · exact stays _ (by simp) (fun _ _ _ _ _ due => due.elim) id
  | sleeping wake =>
      show TimerNote pid (if wake ≤ s.clock then .dating else .sleeping wake) s
      split_ifs with woken
      · exact stays _ (by simp) (fun file line _ _ _ due => Nat.le_trans due woken) id
      · exact note
  | dating =>
      show TimerNote pid (.clocking ((s.queue.map CmdFile.mtime).getD 0)) s
      refine stays _ (by simp) (fun file line here _ _ due => ⟨?_, due⟩) id
      rw [here]
      exact le_rfl
  | clocking last =>
      show TimerNote pid (if 9 < s.clock - last then .moving else .gone) s
      split_ifs with old
      · exact stays _ (by simp) (fun _ _ _ _ _ _ => trivial) id
      · refine stays _ (by simp) (fun file line _ _ _ due => ?_) fun ordered => ?_
        · have aged : last ≤ file.mtime ∧ file.mtime + 11 ≤ s.clock := due
          omega
        · exact ordered.begins
  | moving =>
      have fresh : tookBy pid s.log = [] ∧ ranBy pid s.log = [] := note.ordered
      unfold stepTimer
      cases here : s.queue with
      | none => exact stays _ (by simp) (fun file line there => by simp [here] at there) TimerControl.Ordered.begins
      | some file =>
          refine ⟨by simp, by simp [Spool.report], ?_, ?_⟩
          · simpa [Spool.report, fresh.1, Spool.queueLines, here] using tidy.queue
          · simp [Spool.report, TimerControl.Ordered, fresh.1, fresh.2]
  | counting =>
      show TimerNote pid (if 8 ≤ s.batchLines.length then .removing else .opening) s
      split_ifs
      · exact past _ _ (by simp) (fun _ _ => id) rfl rfl (.inl rfl) note.ordered.begins
      · exact past _ _ (by simp) (fun _ _ => id) rfl rfl (.inl rfl) note.ordered
  | removing => exact past _ _ (by simp [stepTimer]) (fun _ _ => id) rfl rfl (.inr rfl) note.ordered
  | restarting =>
      refine past _ _ (by simp [stepTimer]) (fun _ _ => id) (by simp [stepTimer, Spool.report]) (by simp [stepTimer, Spool.report])
        (.inl rfl) ?_
      simpa [stepTimer, Spool.report, TimerControl.Ordered] using note.ordered.begins
  | wiping => exact past _ _ (by simp [stepTimer]) (fun _ _ => id) rfl rfl (.inr rfl) note.ordered
  | opening =>
      unfold stepTimer
      cases here : s.batch with
      | none => exact past _ _ (by simp) (fun _ _ => id) rfl rfl (.inl rfl) note.ordered.begins
      | some lines =>
          refine past _ _ (by simp) (fun _ _ => id) rfl rfl (.inl rfl) ?_
          show ranBy pid s.log ++ lines = tookBy pid s.log
          rw [note.ordered.1, List.nil_append]
          exact note.ordered.2 lines here
  | reading rest =>
      cases rest with
      | nil => exact past _ _ (by simp [stepTimer]) (fun _ _ => id) rfl rfl (.inl rfl) note.ordered.begins
      | cons line rest =>
          refine past _ _ (by simp [stepTimer]) (fun _ _ => id) (by simp [stepTimer, Spool.report])
            (by simp [stepTimer, Spool.report]) (.inl rfl) ?_
          have read : ranBy pid s.log ++ line :: rest = tookBy pid s.log := note.ordered
          simpa [stepTimer, Spool.report, TimerControl.Ordered] using read
  | deleting => exact past _ _ (by simp [stepTimer]) (fun _ _ => id) rfl rfl (.inl rfl) note.ordered
  | gone => exact note

/-- A step of a timer keeps the note of another, unless it replaces what that has moved. -/
theorem stepTimer_others {pid other : ℕ} (apart : other ≠ pid) (call : Option HotplugEvent) {s : Spool} (c : TimerControl)
    {c' : TimerControl} (free : c = .moving → s.queue.isSome → c'.holds = false) (note : TimerNote other c' s) :
    TimerNote other c' (stepTimer pid call s c).1 := by
  cases c with
  | uncalled =>
      cases call with
      | none => exact note
      | some event => exact note.append (Ne.symm apart)
  | sleeping _ | dating | clocking _ | counting | gone => exact note
  | moving =>
      unfold stepTimer
      cases here : s.queue with
      | none => exact note
      | some file =>
          refine note.of_effect (by simp [Spool.report]) ?_ (by simp [Spool.report]) rfl (.inr rfl)
            (.inr (.inr (free rfl (by simp [here]))))
          simp [Spool.report, Ne.symm apart]
  | removing | wiping => exact note.of_effect rfl rfl rfl rfl (.inr rfl) (.inr (.inl rfl))
  | restarting =>
      exact note.of_effect (by simp [stepTimer, Spool.report]) (by simp [stepTimer, Spool.report])
        (by simp [stepTimer, Spool.report]) rfl (.inl rfl) (.inl rfl)
  | opening =>
      unfold stepTimer
      cases s.batch <;> exact note
  | reading rest =>
      cases rest with
      | nil => exact note
      | cons line rest =>
          exact note.of_effect (by simp [stepTimer, Spool.report]) (by simp [stepTimer, Spool.report])
            (by simp [stepTimer, Spool.report, Ne.symm apart]) rfl (.inl rfl) (.inl rfl)
  | deleting => exact note.of_effect rfl rfl rfl rfl (.inl rfl) (.inr (.inl rfl))

/-- The annotation is kept by the turns of an uncrossed run. -/
theorem hotplugTimers_keeps : hotplugTimers.Keeps Uncrossed Spool.Tidy TimerNote where
  own := by
    intro pool pid call annotated _
    exact ⟨stepTimer_tidy pid call _ annotated.shared (annotated.procs pid), stepTimer_own pid call _ annotated.shared (annotated.procs pid)⟩
  others := by
    intro pool pid call annotated uncrossed other apart
    refine stepTimer_others apart call _ (fun moving queued => ?_) (annotated.procs other)
    have clear : pool.shared.queue.isSome → ∀ other, (pool.procs other).holds = false := by
      simpa only [Uncrossed, moving] using uncrossed
    exact clear queued other
  outside := by
    intro pool event annotated _
    exact ⟨annotated.shared.surround event, fun pid => (annotated.procs pid).surround event⟩

/-! ## Where a line is -/

/-- The lines a timer has yet to read. -/
def TimerControl.stake (batch : List CmdLine) : TimerControl → List CmdLine
  | .counting | .opening => batch
  | .reading rest => rest
  | _ => []

def stakeOf (pool : HotplugPool) (pid : ℕ) : List CmdLine := (pool.procs pid).stake pool.shared.batchLines

/-- The line is in one place. -/
def Placed (pool : HotplugPool) (line : CmdLine) : Prop :=
  Single (executions line pool.shared.log + pool.shared.queueLines.count line) fun pid => (stakeOf pool pid).count line

/-- At most one timer has a file it has not opened, and every line is in one place or safe. -/
structure Accounted (pool : HotplugPool) : Prop where
  alone : ∀ pid other, (pool.procs pid).holds = true → (pool.procs other).holds = true → pid = other
  lines : ∀ line ∈ queuedLines pool.shared.log, Safe pool line ∨ Placed pool line

/-- The pool after a step of one timer. -/
def stepPool (pool : HotplugPool) (pid : ℕ) (s : Spool) (c : TimerControl) : HotplugPool :=
  ⟨s, Function.update pool.procs pid c⟩

section Steps

variable {pool : HotplugPool} {pid : ℕ} {s : Spool} {c : TimerControl} {line : CmdLine}

@[simp]
theorem stepPool_shared : (stepPool pool pid s c).shared = s := rfl

@[simp]
theorem stepPool_self : (stepPool pool pid s c).procs pid = c := Function.update_self ..

theorem stepPool_of_ne {other : ℕ} (apart : other ≠ pid) : (stepPool pool pid s c).procs other = pool.procs other :=
  Function.update_of_ne apart ..

/-- What is safe stays safe while the log grows, except where a promise is taken back. -/
theorem Safe.step (safe : Safe pool line) (grows : ∀ line, Covered line pool.shared.log → Covered line s.log)
    (promises : (pool.procs pid).promises = true → c.promises = true ∨ Covered line s.log) :
    Safe (stepPool pool pid s c) line := by
  rcases safe with covered | ⟨other, promised⟩
  · exact .inl (grows line covered)
  · by_cases same : other = pid
    · subst same
      rcases promises promised with kept | covered
      · exact .inr ⟨other, by rwa [stepPool_self]⟩
      · exact .inl covered
    · exact .inr ⟨other, by rwa [stepPool_of_ne same]⟩

/-- A line moves between the common places and the timer whose step it is. -/
theorem Placed.step (placed : Placed pool line)
    (kept : executions line s.log + s.queueLines.count line + (c.stake s.batchLines).count line =
      executions line pool.shared.log + pool.shared.queueLines.count line + (stakeOf pool pid).count line)
    (others : ∀ other, other ≠ pid → ((pool.procs other).stake s.batchLines).count line = (stakeOf pool other).count line) :
    Placed (stepPool pool pid s c) line := by
  refine placed.exchange pid (by simpa [stakeOf] using kept) fun other apart => ?_
  rw [stakeOf, stepPool_of_ne apart, stepPool_shared]
  exact others other apart

/-- The stake of a timer that holds no file does not depend on the moved file. -/
theorem TimerControl.stake_of_free {batch batch' : List CmdLine} (free : c.holds = false) : c.stake batch = c.stake batch' := by
  cases c with
  | counting | opening => cases free
  | _ => rfl

/-- A step with which no timer takes a file. -/
theorem Accounted.alone_step (accounted : Accounted pool) (holds : c.holds = true → (pool.procs pid).holds = true) :
    ∀ first second, ((stepPool pool pid s c).procs first).holds = true → ((stepPool pool pid s c).procs second).holds = true →
      first = second := by
  have earlier {other : ℕ} (here : ((stepPool pool pid s c).procs other).holds = true) : (pool.procs other).holds = true := by
    by_cases same : other = pid
    · subst same
      rw [stepPool_self] at here
      exact holds here
    · rwa [stepPool_of_ne same] at here
  exact fun first second here there => accounted.alone first second (earlier here) (earlier there)

/-- A step that leaves the files and the log as they are. -/
theorem Accounted.quiet (accounted : Accounted pool) (holds : c.holds = true → (pool.procs pid).holds = true)
    (promises : (pool.procs pid).promises = true → c.promises = true)
    (stake : c.stake pool.shared.batchLines = stakeOf pool pid) : Accounted (stepPool pool pid pool.shared c) := by
  refine ⟨accounted.alone_step holds, fun line queued => ?_⟩
  rcases accounted.lines line queued with safe | placed
  · exact .inl (safe.step (fun _ => id) fun promised => .inl (promises promised))
  · exact .inr (placed.step (by rw [stake]) fun _ _ => rfl)

/-- A step of a timer on its way to a restart. -/
theorem Accounted.promised (accounted : Accounted pool) (holds : c.holds = true → (pool.procs pid).holds = true)
    (promises : c.promises = true) : Accounted (stepPool pool pid s c) :=
  ⟨accounted.alone_step holds, fun _ _ => .inl (.inr ⟨pid, by rwa [stepPool_self]⟩)⟩

/-- A deletion of lines that are safe. -/
theorem Accounted.delete (accounted : Accounted pool) (log : s.log = pool.shared.log) (batch : s.batch = none)
    (queue : s.queue = pool.shared.queue ∨ s.queue = none) (promises : (pool.procs pid).promises = false)
    (unstaked : stakeOf pool pid = []) (holds : c.holds = false) (stake : c.stake [] = [])
    (read : ∀ line, Unread pool line → Safe pool line)
    (queued : s.queue = none → ∀ line ∈ pool.shared.queueLines, Safe pool line) : Accounted (stepPool pool pid s c) := by
  refine ⟨accounted.alone_step (by simp [holds]), fun line inside => ?_⟩
  rw [stepPool_shared, log] at inside
  have none : s.batchLines = [] := by rw [Spool.batchLines, batch, Option.getD_none]
  by_cases safe : Safe pool line
  · exact .inl (safe.step (fun _ covered => log ▸ covered) (by simp [promises]))
  · refine .inr (((accounted.lines line inside).resolve_left safe).step ?_ fun other _ => ?_)
    · rw [log, none, stake, unstaked]
      rcases queue with same | gone
      · rw [Spool.queueLines, same, Spool.queueLines]
      · have unqueued : line ∉ pool.shared.queueLines := fun there => safe (queued gone line there)
        rw [Spool.queueLines, gone, List.count_eq_zero_of_not_mem unqueued]
        rfl
    · cases held : (pool.procs other).holds with
      | false => rw [stakeOf, TimerControl.stake_of_free held]
      | true =>
          have unread : line ∉ pool.shared.batchLines := fun there => safe (read line ⟨there, other, held⟩)
          cases control : pool.procs other with
          | counting | opening =>
              rw [stakeOf, control, none]
              exact (List.count_eq_zero_of_not_mem unread).symm
          | _ => simp [control, TimerControl.holds] at held

end Steps

/-- Nothing that was not queued is anywhere. -/
theorem unqueued_absent {pool : HotplugPool} {line : CmdLine} (annotated : Program.Annotated Spool.Tidy TimerNote pool)
    (unqueued : line ∉ queuedLines pool.shared.log) :
    executions line pool.shared.log + pool.shared.queueLines.count line = 0 ∧ ∀ pid, line ∉ stakeOf pool pid := by
  refine ⟨?_, fun pid staked => unqueued ?_⟩
  · have unexecuted : executions line pool.shared.log = 0 :=
      Nat.eq_zero_of_not_pos fun ran => unqueued (annotated.shared.executed line ran)
    have unwaiting : line ∉ pool.shared.queueLines := fun inside => unqueued (annotated.shared.queue.subset inside)
    rw [unexecuted, List.count_eq_zero_of_not_mem unwaiting]
  · have note := annotated.procs pid
    unfold stakeOf at staked
    cases control : pool.procs pid with
    | counting | opening =>
        rw [control] at staked
        exact annotated.shared.batch line staked
    | reading rest =>
        rw [control] at staked note
        have read : ranBy pid pool.shared.log ++ rest = tookBy pid pool.shared.log := note.ordered
        exact note.took.subset (read ▸ List.mem_append_right _ staked)
    | _ =>
        rw [control] at staked
        cases staked

section Steps

variable {pool : HotplugPool} {pid : ℕ} {c : TimerControl}

/-- A call writes its line. -/
theorem Accounted.append {event : HotplugEvent} (accounted : Accounted pool) (annotated : Program.Annotated Spool.Tidy TimerNote pool)
    (control : pool.procs pid = .uncalled) (wake : ℕ) :
    Accounted (stepPool pool pid
      (({ pool.shared with queue := some ⟨pool.shared.queueLines ++ [⟨pid, hotplugLine event⟩], pool.shared.clock⟩ } :
        Spool).report (.queued ⟨pid, hotplugLine event⟩)) (.sleeping wake)) := by
  have fresh := (annotated.procs pid).called control
  refine ⟨accounted.alone_step (by simp [TimerControl.holds]), fun line inside => ?_⟩
  rw [stepPool_shared, Spool.report, queuedLines_append, List.mem_append, List.mem_singleton] at inside
  by_cases here : line = ⟨pid, hotplugLine event⟩
  · subst here
    obtain ⟨uncounted, unstaked⟩ := unqueued_absent annotated
      (show ⟨pid, hotplugLine event⟩ ∉ queuedLines pool.shared.log from fun there => fresh _ there rfl)
    refine .inr (.inl ⟨?_, fun other => ?_⟩)
    · show executions _ (pool.shared.log ++ [.queued _]) + (pool.shared.queueLines ++ [_]).count _ = 1
      rw [executions_append, List.count_append, List.count_singleton_self]
      dsimp only
      omega
    · refine List.count_eq_zero_of_not_mem fun staked => ?_
      by_cases same : other = pid
      · subst same
        rw [stakeOf, stepPool_self] at staked
        cases staked
      · rw [stakeOf, stepPool_of_ne same] at staked
        exact unstaked other staked
  · rcases accounted.lines line (inside.resolve_right here) with safe | placed
    · exact .inl (safe.step (fun _ covered => covered.append _) (by simp [control, TimerControl.promises]))
    · refine .inr (placed.step ?_ fun _ _ => rfl)
      have elsewhere : [(⟨pid, hotplugLine event⟩ : CmdLine)].count line = 0 :=
        List.count_eq_zero_of_not_mem fun inside => here (List.mem_singleton.mp inside)
      show executions line (_ ++ [Report.queued _]) + (pool.shared.queueLines ++ [_]).count line + 0 = _ + _ + _
      rw [executions_append, List.count_append, elsewhere, stakeOf, control]
      rfl

/-- A timer moves the command file, while no other holds a moved file. -/
theorem Accounted.take {file : CmdFile} (accounted : Accounted pool) (control : pool.procs pid = .moving)
    (here : pool.shared.queue = some file) (clear : ∀ other, (pool.procs other).holds = false) :
    Accounted (stepPool pool pid
      (({ pool.shared with queue := none, batch := some file.lines } : Spool).report (.took pid file.lines)) .counting) := by
  have only {other : ℕ} (holds : ((stepPool pool pid (({ pool.shared with queue := none, batch := some file.lines } :
      Spool).report (.took pid file.lines)) .counting).procs other).holds = true) : other = pid := by
    by_contra apart
    rw [stepPool_of_ne apart, clear other] at holds
    cases holds
  refine ⟨fun first second holds holds' => (only holds).trans (only holds').symm, fun line inside => ?_⟩
  rw [stepPool_shared, Spool.report, queuedLines_append, List.append_nil] at inside
  rcases accounted.lines line inside with safe | placed
  · exact .inl (safe.step (fun _ covered => covered.append _) (by simp [control, TimerControl.promises]))
  · refine .inr (placed.step ?_ fun other apart => ?_)
    · show executions line (_ ++ [Report.took _ _]) + 0 + file.lines.count line = _ + pool.shared.queueLines.count line + _
      rw [executions_append, Spool.queueLines, here, stakeOf, control]
      rfl
    · rw [stakeOf, TimerControl.stake_of_free (clear other)]

/-- A timer runs a line. -/
theorem Accounted.execute {line : CmdLine} {rest : List CmdLine} (accounted : Accounted pool)
    (control : pool.procs pid = .reading (line :: rest)) :
    Accounted (stepPool pool pid (pool.shared.report (.executed pid line)) (.reading rest)) := by
  refine ⟨accounted.alone_step (by simp [TimerControl.holds]), fun line' inside => ?_⟩
  rw [stepPool_shared, Spool.report, queuedLines_append, List.append_nil] at inside
  rcases accounted.lines line' inside with safe | placed
  · exact .inl (safe.step (fun _ covered => covered.append _) (by simp [control, TimerControl.promises]))
  · refine .inr (placed.step ?_ fun _ _ => rfl)
    show executions line' (_ ++ [Report.executed pid line]) + pool.shared.queueLines.count line' + rest.count line' = _
    rw [executions_append, stakeOf, control, TimerControl.stake, List.count_cons]
    simp only [beq_iff_eq]
    omega

/-- A restart starts. -/
theorem Accounted.restart (accounted : Accounted pool) :
    Accounted (stepPool pool pid (({ pool.shared with dir := true } : Spool).report .restarted) .wiping) := by
  refine ⟨accounted.alone_step (by simp [TimerControl.holds]), fun line inside => ?_⟩
  rw [stepPool_shared, Spool.report, queuedLines_append, List.append_nil] at inside
  exact .inl (.inl (covered_restarted inside))

/-- The step of a timer in an uncrossed run. -/
theorem Accounted.run {call : Option HotplugEvent} (accounted : Accounted pool)
    (annotated : Program.Annotated Spool.Tidy TimerNote pool) (uncrossed : Uncrossed pool (.run pid call)) :
    Accounted (stepPool pool pid (stepTimer pid call pool.shared (pool.procs pid)).1
      (stepTimer pid call pool.shared (pool.procs pid)).2.1) := by
  simp only [Uncrossed] at uncrossed
  -- between two steps that touch neither the files nor the log
  have quiet (c : TimerControl) (promises : (pool.procs pid).promises = false) (stake : stakeOf pool pid = [])
      (holds : c.holds = false) (empty : c.stake pool.shared.batchLines = []) : Accounted (stepPool pool pid pool.shared c) :=
    accounted.quiet (by simp [holds]) (by simp [promises]) (by rw [empty, stake])
  cases control : pool.procs pid with
  | uncalled =>
      have unstaked : stakeOf pool pid = [] := by rw [stakeOf, control]; rfl
      cases call with
      | none => exact quiet _ (by rw [control]; rfl) unstaked rfl rfl
      | some event =>
          show Accounted (stepPool pool pid (pool.shared.append ⟨pid, hotplugLine event⟩) (.sleeping (pool.shared.clock + 11)))
          unfold Spool.append
          split_ifs
          · exact accounted.append annotated control _
          · exact quiet _ (by rw [control]; rfl) unstaked rfl rfl
  | sleeping wake =>
      have unstaked : stakeOf pool pid = [] := by rw [stakeOf, control]; rfl
      show Accounted (stepPool pool pid pool.shared (if wake ≤ pool.shared.clock then .dating else .sleeping wake))
      split_ifs <;> exact quiet _ (by rw [control]; rfl) unstaked rfl rfl
  | dating =>
      have unstaked : stakeOf pool pid = [] := by rw [stakeOf, control]; rfl
      exact quiet _ (by rw [control]; rfl) unstaked rfl rfl
  | clocking last =>
      have unstaked : stakeOf pool pid = [] := by rw [stakeOf, control]; rfl
      show Accounted (stepPool pool pid pool.shared (if 9 < pool.shared.clock - last then .moving else .gone))
      split_ifs <;> exact quiet _ (by rw [control]; rfl) unstaked rfl rfl
  | moving =>
      have unstaked : stakeOf pool pid = [] := by rw [stakeOf, control]; rfl
      rw [control] at uncrossed
      unfold stepTimer
      cases here : pool.shared.queue with
      | none => exact quiet _ (by rw [control]; rfl) unstaked rfl rfl
      | some file => exact accounted.take control here (uncrossed (by rw [here]; rfl))
  | counting =>
      show Accounted (stepPool pool pid pool.shared (if 8 ≤ pool.shared.batchLines.length then .removing else .opening))
      split_ifs
      · exact accounted.promised (by simp [TimerControl.holds]) rfl
      · exact accounted.quiet (by simp [control, TimerControl.holds]) (by simp [control, TimerControl.promises])
          (by rw [stakeOf, control]; rfl)
  | removing => exact accounted.promised (by simp [stepTimer, TimerControl.holds]) rfl
  | restarting => exact accounted.restart
  | wiping =>
      rw [control] at uncrossed
      exact accounted.delete rfl rfl (.inr rfl) (by rw [control]; rfl) (by rw [stakeOf, control]; rfl) rfl rfl
        (fun line unread => uncrossed line (.inl unread)) fun _ line inside => uncrossed line (.inr inside)
  | opening =>
      unfold stepTimer
      cases here : pool.shared.batch with
      | none =>
          refine accounted.quiet (by simp [TimerControl.holds]) (by simp [control, TimerControl.promises]) ?_
          simp [stakeOf, control, TimerControl.stake, Spool.batchLines, here]
      | some lines =>
          refine accounted.quiet (by simp [TimerControl.holds]) (by simp [control, TimerControl.promises]) ?_
          simp [stakeOf, control, TimerControl.stake, Spool.batchLines, here]
  | reading rest =>
      cases rest with
      | nil => exact quiet _ (by rw [control]; rfl) (by rw [stakeOf, control]; rfl) rfl rfl
      | cons line rest => exact accounted.execute control
  | deleting =>
      rw [control] at uncrossed
      refine accounted.delete rfl rfl (.inl rfl) (by rw [control]; rfl) (by rw [stakeOf, control]; rfl) rfl rfl uncrossed
        fun gone line inside => ?_
      rw [Spool.queueLines, show pool.shared.queue = none from gone] at inside
      cases inside
  | gone => exact quiet _ (by rw [control]; rfl) (by rw [stakeOf, control]; rfl) rfl rfl

end Steps

theorem unspooled_accounted : Accounted unspooled := by
  refine ⟨fun pid other holds => ?_, by simp [unspooled, queuedLines]⟩
  cases holds

/-- What an uncrossed run keeps. -/
def Kept (pool : HotplugPool) : Prop := Program.Annotated Spool.Tidy TimerNote pool ∧ Accounted pool

theorem Kept.step {pool : HotplugPool} {turn : HotplugTurn} (kept : Kept pool) (uncrossed : Uncrossed pool turn) :
    Kept (hotplugTimers.system.step pool turn).1 := by
  refine ⟨hotplugTimers_keeps.step kept.1 uncrossed, ?_⟩
  cases turn with
  | run pid call => exact kept.2.run kept.1 uncrossed
  | outside event =>
      cases event with
      | tick => exact ⟨kept.2.alone, kept.2.lines⟩
      | remake => exact ⟨kept.2.alone, kept.2.lines⟩

/-! ## All timers come to rest -/

/-- Not called, or finished. -/
def TimerControl.Resting (c : TimerControl) : Prop := c = .uncalled ∨ c = .gone

/-- At rest nothing is left to do. -/
theorem Kept.delivered {pool : HotplugPool} (kept : Kept pool) (resting : ∀ pid, (pool.procs pid).Resting) :
    Delivered pool.shared.log := by
  obtain ⟨annotated, accounted⟩ := kept
  have unstaked : ∀ pid, stakeOf pool pid = [] := by
    intro pid
    rcases resting pid with rests | rests <;> (rw [stakeOf, rests]; rfl)
  have taken : pool.shared.queue = none := by
    cases here : pool.shared.queue with
    | none => rfl
    | some file =>
        obtain ⟨nonempty, -⟩ := annotated.shared.file file here
        have due := (annotated.procs (file.lines.getLast nonempty).caller).due file _ here (List.getLast?_eq_getLast_of_ne_nil nonempty) rfl
        rcases resting (file.lines.getLast nonempty).caller with rests | rests <;> (rw [rests] at due; exact due.elim)
  refine ⟨fun line queued => ?_, fun pid => ⟨(annotated.procs pid).ordered.begins, (annotated.procs pid).took⟩⟩
  rcases accounted.lines line (mem_queuedLines.mpr queued) with (covered | ⟨pid, promised⟩) | placed
  · exact .inl covered
  · rcases resting pid with rests | rests <;> (rw [rests] at promised; cases promised)
  · right
    rcases placed with ⟨common, -⟩ | ⟨-, pid, held, -⟩
    · rwa [Spool.queueLines, taken] at common
    · dsimp only at held
      rw [unstaked pid] at held
      cases held

/-- The steps a timer has before it, a batch counted as one. -/
def TimerControl.phase : TimerControl → ℕ
  | .uncalled => 12
  | .sleeping _ => 11
  | .dating => 10
  | .clocking _ => 9
  | .moving => 8
  | .counting => 7
  | .removing => 6
  | .restarting => 5
  | .wiping => 4
  | .opening => 3
  | .reading _ => 2
  | .deleting => 1
  | .gone => 0

/-- How far a timer is from its end: its phase, and the lines it has to read. -/
def TimerControl.remaining (c : TimerControl) : ℕ ×ₗ ℕ := toLex (c.phase, (c.stake []).length)

theorem remaining_lt_of_phase {c c' : TimerControl} (lower : c'.phase < c.phase) : c'.remaining < c.remaining :=
  Prod.Lex.toLex_lt_toLex.mpr (.inl lower)

/-- Every step takes a timer further, once its sleep is over. -/
theorem stepTimer_remaining (pid : ℕ) (call : Option HotplugEvent) (s : Spool) {c : TimerControl} (active : ¬c.Resting)
    (awake : ∀ wake, c = .sleeping wake → wake ≤ s.clock) : (stepTimer pid call s c).2.1.remaining < c.remaining := by
  cases c with
  | uncalled => exact absurd (.inl rfl) active
  | gone => exact absurd (.inr rfl) active
  | sleeping wake =>
      show (if wake ≤ s.clock then TimerControl.dating else .sleeping wake).remaining < _
      rw [if_pos (awake wake rfl)]
      exact remaining_lt_of_phase (Nat.lt_succ_self _)
  | clocking last =>
      show (if 9 < s.clock - last then TimerControl.moving else .gone).remaining < _
      split_ifs <;> exact remaining_lt_of_phase (by simp [TimerControl.phase])
  | counting =>
      show (if 8 ≤ s.batchLines.length then TimerControl.removing else .opening).remaining < _
      split_ifs <;> exact remaining_lt_of_phase (by simp [TimerControl.phase])
  | moving =>
      unfold stepTimer
      cases s.queue <;> exact remaining_lt_of_phase (by simp [TimerControl.phase])
  | opening =>
      unfold stepTimer
      cases s.batch <;> exact remaining_lt_of_phase (by simp [TimerControl.phase])
  | reading rest =>
      cases rest with
      | nil => exact remaining_lt_of_phase (by simp [stepTimer, TimerControl.phase])
      | cons line rest => exact Prod.Lex.toLex_lt_toLex.mpr (.inr ⟨rfl, Nat.lt_succ_self _⟩)
  | dating | removing | restarting | wiping | deleting => exact remaining_lt_of_phase (by simp [stepTimer, TimerControl.phase])

theorem stepTimer_resting (pid : ℕ) (s : Spool) {c : TimerControl} (resting : c.Resting) :
    (stepTimer pid none s c).2.1 = c := by
  rcases resting with rfl | rfl <;> rfl

/-- Only a call puts a timer to sleep. -/
theorem stepTimer_sleeping {pid wake : ℕ} {s : Spool} {c : TimerControl}
    (sleeps : (stepTimer pid none s c).2.1 = .sleeping wake) : c = .sleeping wake := by
  cases c with
  | sleeping other =>
      simp only [stepTimer] at sleeps
      split_ifs at sleeps
      exact sleeps
  | clocking last =>
      simp only [stepTimer] at sleeps
      split_ifs at sleeps
  | counting =>
      simp only [stepTimer] at sleeps
      split_ifs at sleeps
  | moving =>
      simp only [stepTimer] at sleeps
      split at sleeps <;> cases sleeps
  | opening =>
      simp only [stepTimer] at sleeps
      split at sleeps <;> cases sleeps
  | reading rest => cases rest <;> cases sleeps
  | uncalled | dating | removing | restarting | wiping | deleting | gone => cases sleeps

theorem stepTimer_clock (pid : ℕ) (call : Option HotplugEvent) (s : Spool) (c : TimerControl) :
    (stepTimer pid call s c).1.clock = s.clock := by
  cases c with
  | uncalled =>
      cases call with
      | none => rfl
      | some event =>
          simp only [stepTimer, Spool.append]
          split_ifs <;> rfl
  | moving =>
      unfold stepTimer
      cases s.queue <;> rfl
  | opening =>
      unfold stepTimer
      cases s.batch <;> rfl
  | reading rest => cases rest <;> rfl
  | _ => rfl

section Fair

variable {turns : ℕ → HotplugTurn}

/-- The clock after the first turns of a run. -/
def clockAt (turns : ℕ → HotplugTurn) (n : ℕ) : ℕ := (hotplugTimers.system.along unspooled turns n).shared.clock

/-- Where a timer stands after the first turns of a run. -/
abbrev timerAt (turns : ℕ → HotplugTurn) (pid n : ℕ) : TimerControl := hotplugTimers.proc unspooled turns pid n

theorem clockAt_succ (n : ℕ) : clockAt turns n ≤ clockAt turns (n + 1) := by
  rw [clockAt, clockAt, Transducer.along_succ]
  cases turns n with
  | run pid call => exact (stepTimer_clock _ _ _ _).ge
  | outside event =>
      cases event with
      | tick => exact Nat.le_succ _
      | remake => exact le_rfl

theorem clockAt_mono : Monotone (clockAt turns) := monotone_nat_of_le_succ clockAt_succ

theorem FairRun.clock_reaches (fair : FairRun turns) (time : ℕ) : ∃ n, time ≤ clockAt turns n := by
  induction time with
  | zero => exact ⟨0, Nat.zero_le _⟩
  | succ time ih =>
      obtain ⟨n, reached⟩ := ih
      obtain ⟨m, later, tick⟩ := fair.time n
      refine ⟨m + 1, ?_⟩
      have ticked : clockAt turns (m + 1) = clockAt turns m + 1 := by
        rw [clockAt, Transducer.along_succ, tick]
        rfl
      rw [ticked]
      exact Nat.succ_le_succ (reached.trans (clockAt_mono later))

/-- A timer that sleeps after the last call slept then. -/
theorem timerAt_sleeping {pid first wake : ℕ} (quiet : ∀ n, first ≤ n → ∀ pid event, turns n ≠ .run pid (some event))
    {n : ℕ} (later : first ≤ n) (sleeps : timerAt turns pid n = .sleeping wake) : timerAt turns pid first = .sleeping wake := by
  induction n, later using Nat.le_induction with
  | base => exact sleeps
  | succ n later ih =>
      refine ih ?_
      by_cases own : ∃ call, turns n = .run pid call
      · obtain ⟨call, turn⟩ := own
        cases call with
        | some event => exact absurd turn (quiet n later pid event)
        | none =>
            rw [timerAt, Program.proc_succ_of_run turn] at sleeps
            exact stepTimer_sleeping sleeps
      · rwa [timerAt, Program.proc_succ_of_ne fun call turn => own ⟨call, turn⟩] at sleeps

/-- Every timer finishes. -/
theorem FairRun.rests (fair : FairRun turns) (pid : ℕ) : ∃ last, ∀ n, last ≤ n → (timerAt turns pid n).Resting := by
  obtain ⟨first, quiet⟩ := fair.calls
  obtain ⟨late, reached⟩ : ∃ late, ∀ wake, timerAt turns pid first = .sleeping wake → wake ≤ clockAt turns late := by
    cases timerAt turns pid first with
    | sleeping wake =>
        obtain ⟨late, reached⟩ := fair.clock_reaches wake
        exact ⟨late, fun other same => by cases same; exact reached⟩
    | _ => exact ⟨0, by simp⟩
  refine Program.eventually_rests TimerControl.remaining (max first late) (fun n => fair.procs pid n) ?_ ?_
  · intro n later call turn resting
    cases call with
    | some event => exact absurd turn (quiet n (le_of_max_le_left later) pid event)
    | none =>
        rw [Program.proc_succ_of_run turn]
        show TimerControl.Resting (stepTimer pid none _ _).2.1
        rwa [stepTimer_resting pid _ resting]
  · intro n later call turn active
    rw [Program.proc_succ_of_run turn]
    refine stepTimer_remaining pid call _ active fun wake sleeps => ?_
    have woken := reached wake (timerAt_sleeping quiet (le_of_max_le_left later) sleeps)
    exact woken.trans (clockAt_mono (le_of_max_le_right later))

/-- A process that is never called stays uncalled. -/
theorem timerAt_uncalled {pid : ℕ} (uncalled : ∀ n event, turns n ≠ .run pid (some event)) (n : ℕ) :
    timerAt turns pid n = .uncalled := by
  induction n with
  | zero => rfl
  | succ n ih =>
      by_cases own : ∃ call, turns n = .run pid call
      · obtain ⟨call, turn⟩ := own
        cases call with
        | some event => exact absurd turn (uncalled n event)
        | none =>
            rw [timerAt, Program.proc_succ_of_run turn, show hotplugTimers.proc unspooled turns pid n = .uncalled from ih]
            rfl
      · rwa [timerAt, Program.proc_succ_of_ne fun call turn => own ⟨call, turn⟩]

/-- All timers finish. -/
theorem FairRun.all_rest (fair : FairRun turns) : ∃ last, ∀ n, last ≤ n → ∀ pid, (timerAt turns pid n).Resting := by
  obtain ⟨first, quiet⟩ := fair.calls
  -- every call comes from a process below the bound
  let bound := (Finset.range first).sup fun n =>
    match turns n with
    | .run pid _ => pid + 1
    | .outside _ => 0
  have called : ∀ n pid event, turns n = .run pid (some event) → pid < bound := by
    intro n pid event turn
    have early : n < first := Nat.lt_of_not_le fun later => quiet n later pid event turn
    have below := Finset.le_sup (f := fun n => match turns n with | .run pid _ => pid + 1 | .outside _ => 0) (Finset.mem_range.mpr early)
    rw [turn] at below
    exact below
  have rests : ∀ᶠ n in Filter.atTop, ∀ pid ∈ Finset.range bound, (timerAt turns pid n).Resting :=
    (Filter.eventually_all_finset _).mpr fun pid _ => Filter.eventually_atTop.mpr (fair.rests pid)
  obtain ⟨last, rests⟩ := Filter.eventually_atTop.mp rests
  refine ⟨last, fun n later pid => ?_⟩
  by_cases below : pid < bound
  · exact rests n later pid (Finset.mem_range.mpr below)
  · exact .inl (timerAt_uncalled (fun n event turn => below (called n pid event turn)) n)

/-- In an uncrossed run every queued line is at last executed once, in the order of its batch, or
covered by a restart. -/
theorem hotplug_delivers (fair : FairRun turns)
    (uncrossed : ∀ n, Uncrossed (hotplugTimers.system.along unspooled turns n) (turns n)) :
    ∃ last, ∀ n, last ≤ n → Delivered (hotplugTimers.system.along unspooled turns n).shared.log := by
  obtain ⟨last, rests⟩ := fair.all_rest
  refine ⟨last, fun n later => ?_⟩
  have kept : Kept (hotplugTimers.system.along unspooled turns n) :=
    hotplugTimers.system.along_invariant (fun _ _ kept uncrossed => kept.step uncrossed) (fun n _ => uncrossed n)
      ⟨unspooled_annotated, unspooled_accounted⟩ (Nat.zero_le n)
  exact kept.delivered (rests n later)

/-! ## Runs from a script -/

/-- At rest, turns without a call change nothing but the clock and the directory. -/
theorem along_rests {first : ℕ} (quiet : ∀ n, first ≤ n → ∀ pid event, turns n ≠ .run pid (some event))
    (rests : ∀ pid, (timerAt turns pid first).Resting) {n : ℕ} (later : first ≤ n) :
    (∀ pid, (timerAt turns pid n).Resting) ∧
      (hotplugTimers.system.along unspooled turns n).shared.log = (hotplugTimers.system.along unspooled turns first).shared.log := by
  induction n, later using Nat.le_induction with
  | base => exact ⟨rests, rfl⟩
  | succ n later ih =>
      obtain ⟨resting, same⟩ := ih
      refine ⟨fun pid => ?_, ?_⟩
      · by_cases own : ∃ call, turns n = .run pid call
        · obtain ⟨call, turn⟩ := own
          cases call with
          | some event => exact absurd turn (quiet n later pid event)
          | none =>
              rw [timerAt, Program.proc_succ_of_run turn]
              show TimerControl.Resting (stepTimer pid none _ _).2.1
              rw [stepTimer_resting pid _ (resting pid)]
              exact resting pid
        · rw [timerAt, Program.proc_succ_of_ne fun call turn => own ⟨call, turn⟩]
          exact resting pid
      · rw [← same, Transducer.along_succ]
        cases turn : turns n with
        | outside event => cases event <;> rfl
        | run runner call =>
            cases call with
            | some event => exact absurd turn (quiet n later runner event)
            | none =>
                show (stepTimer runner none _ _).1.log = _
                rcases resting runner with rests | rests <;>
                  (rw [show (hotplugTimers.system.along unspooled turns n).procs runner = _ from rests]; rfl)

end Fair

/-- The turns of a script, and from then on the clock and every process again and again. -/
def thenAll (script : List HotplugTurn) (n : ℕ) : HotplugTurn :=
  script.getD n (if n % 2 = 0 then .outside .tick else .run (Nat.unpair (n / 2)).1 none)

section Script

variable (script : List HotplugTurn)

theorem thenAll_quiet (n : ℕ) (later : script.length ≤ n) (pid : ℕ) (event : HotplugEvent) :
    thenAll script n ≠ .run pid (some event) := by
  rw [thenAll, List.getD_eq_default _ _ later]
  split_ifs <;> simp

theorem thenAll_fair : FairRun (thenAll script) where
  calls := ⟨script.length, thenAll_quiet script⟩
  time := by
    intro n
    refine ⟨2 * max n script.length, by omega, ?_⟩
    rw [thenAll, List.getD_eq_default _ _ (by omega), if_pos (by omega)]
  procs := by
    intro pid n
    have below := Nat.right_le_pair pid (max n script.length)
    refine ⟨2 * Nat.pair pid (max n script.length) + 1, by omega, none, ?_⟩
    have half : (2 * Nat.pair pid (max n script.length) + 1) / 2 = Nat.pair pid (max n script.length) := by omega
    rw [thenAll, List.getD_eq_default _ _ (by omega), if_neg (by omega), half, Nat.unpair_pair]

theorem along_thenAll :
    hotplugTimers.system.along unspooled (thenAll script) script.length = hotplugTimers.system.final unspooled script := by
  rw [Transducer.along_eq_final]
  congr 1
  refine List.ext_getElem (by simp) fun n inside inside' => ?_
  rw [List.getElem_map, List.getElem_range, thenAll, List.getD_eq_getElem _ _ inside']

end Script

/-- An event of an interface. -/
def ifupEvent (interface device : String) : HotplugEvent :=
  { delay := "1", startup := "2", action := "ifup", interface := interface, device := device, family := "" }

/-- Two calls. The second timer moves and opens its batch while the first one still reads its own,
and the first deletes the file before the second has run a line of it. -/
def overlappingCalls : List HotplugTurn :=
  .run 0 (some (ifupEvent "wan" "eth1")) :: (List.replicate 11 (.outside .tick) ++ List.replicate 6 (.run 0 none)) ++
    .run 1 (some (ifupEvent "wan2" "eth2")) :: (List.replicate 11 (.outside .tick) ++ List.replicate 6 (.run 1 none) ++
      List.replicate 3 (.run 0 none) ++ List.replicate 3 (.run 1 none))

theorem overlappingCalls_pids {pid : ℕ} {call : Option HotplugEvent} (member : .run pid call ∈ overlappingCalls) : pid < 2 := by
  simp only [overlappingCalls, List.cons_append, List.mem_cons, List.mem_append, List.mem_replicate, Turn.run.injEq,
    reduceCtorEq, and_false, false_or] at member
  omega

theorem overlappingCalls_uncalled {pid : ℕ} (other : 2 ≤ pid) (n : ℕ) :
    timerAt (thenAll overlappingCalls) pid n = .uncalled := by
  refine timerAt_uncalled (fun n event turn => ?_) n
  rcases Nat.lt_or_ge n overlappingCalls.length with early | late
  · have member : thenAll overlappingCalls n ∈ overlappingCalls := by
      rw [thenAll, List.getD_eq_getElem _ _ early]
      exact List.getElem_mem early
    rw [turn] at member
    exact absurd (overlappingCalls_pids member) (Nat.not_lt.mpr other)
  · exact thenAll_quiet overlappingCalls n late pid event turn

/-- The turn restarts nothing, and its `mv` or `rm` meets no timer between its `mv` and the opening. -/
def passesApart (bound : ℕ) (pool : HotplugPool) : HotplugTurn → Bool
  | .outside _ => true
  | .run pid _ =>
      match pool.procs pid with
      | .wiping => false
      | .moving | .deleting => (List.range bound).all fun other => !(pool.procs other).holds
      | _ => true

theorem uncrossed_of_passesApart {bound : ℕ} {pool : HotplugPool} (others : ∀ pid, bound ≤ pid → pool.procs pid = .uncalled)
    {turn : HotplugTurn} (free : passesApart bound pool turn = true) : Uncrossed pool turn := by
  cases turn with
  | outside event => trivial
  | run pid call =>
      have nobody : ((List.range bound).all fun other => !(pool.procs other).holds) = true →
          ∀ other, (pool.procs other).holds = false := by
        intro all other
        rcases Nat.lt_or_ge other bound with small | large
        · simpa using List.all_eq_true.mp all other (List.mem_range.mpr small)
        · rw [others other large]
          rfl
      simp only [Uncrossed, passesApart] at free ⊢
      cases control : pool.procs pid with
      | wiping => simp [control] at free
      | moving =>
          simp only [control] at free
          exact fun _ => nobody free
      | deleting =>
          simp only [control] at free
          rintro line ⟨-, holder, holds⟩
          rw [nobody free holder] at holds
          cases holds
      | _ => trivial

theorem uncrossed_of_rests {pool : HotplugPool} (rests : ∀ pid, (pool.procs pid).Resting) (turn : HotplugTurn) :
    Uncrossed pool turn := by
  cases turn with
  | outside event => trivial
  | run pid call =>
      rcases rests pid with resting | resting <;> simp [Uncrossed, resting]

theorem overlappingCalls_rests (pid : ℕ) : (timerAt (thenAll overlappingCalls) pid overlappingCalls.length).Resting := by
  rcases Nat.lt_or_ge pid 2 with small | other
  · have ended : ∀ pid < 2, timerAt (thenAll overlappingCalls) pid overlappingCalls.length = .gone := by decide +kernel
    exact .inr (ended pid small)
  · exact .inl (overlappingCalls_uncalled other _)

theorem hotplug_delivers_overlapping :
    ∃ last, ∀ n, last ≤ n →
      Delivered (hotplugTimers.system.along unspooled (thenAll overlappingCalls) n).shared.log := by
  have free : ∀ n < overlappingCalls.length,
      passesApart 2 (hotplugTimers.system.along unspooled (thenAll overlappingCalls) n) (thenAll overlappingCalls n) = true := by
    decide +kernel
  refine hotplug_delivers (thenAll_fair overlappingCalls) fun n => ?_
  rcases Nat.lt_or_ge n overlappingCalls.length with early | late
  · exact uncrossed_of_passesApart (fun pid other => overlappingCalls_uncalled other n) (free n early)
  · exact uncrossed_of_rests (along_rests (thenAll_quiet overlappingCalls) overlappingCalls_rests late).1 _

/-- The first batch is still run when the second is moved: the first timer deletes it before the
second has opened it. -/
def deletedBatch : List HotplugTurn :=
  .run 0 (some (ifupEvent "wan" "eth1")) :: (List.replicate 11 (.outside .tick) ++ List.replicate 6 (.run 0 none)) ++
    .run 1 (some (ifupEvent "wan2" "eth2")) :: (List.replicate 11 (.outside .tick) ++ List.replicate 4 (.run 1 none) ++
      List.replicate 3 (.run 0 none) ++ List.replicate 3 (.run 1 none))

theorem deletedBatch_loses_line :
    ¬∀ turns : ℕ → HotplugTurn, FairRun turns →
      ∃ last, ∀ n, last ≤ n → Delivered (hotplugTimers.system.along unspooled turns n).shared.log := by
  intro claim
  obtain ⟨last, delivered⟩ := claim (thenAll deletedBatch) (thenAll_fair deletedBatch)
  have final := along_thenAll deletedBatch
  have rests : ∀ pid, (timerAt (thenAll deletedBatch) pid deletedBatch.length).Resting := by
    intro pid
    unfold timerAt Program.proc
    rw [final]
    match pid with
    | 0 => exact .inr (by decide)
    | 1 => exact .inr (by decide)
    | pid + 2 => exact .inl rfl
  have same := (along_rests (thenAll_quiet deletedBatch) rests (le_max_right last deletedBatch.length)).2
  have lines := (delivered _ (le_max_left last deletedBatch.length)).lines ⟨1, hotplugLine (ifupEvent "wan2" "eth2")⟩
  rw [same, final] at lines
  refine absurd (lines (by decide)) ?_
  unfold Covered
  decide

end XWrt.Mwan3
