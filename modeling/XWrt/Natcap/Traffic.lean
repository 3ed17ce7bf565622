import Mathlib.Algebra.BigOperators.Group.List.Basic
import Mathlib.Algebra.GroupWithZero.Nat
import Mathlib.Algebra.Order.Group.Nat
import Mathlib.Algebra.Order.Monoid.Prod
import Mathlib.Algebra.Order.Sub.Basic
import Mathlib.Algebra.Order.Sub.Prod
import XWrt.Foundation.Transducer

/-!
# Traffic reports of natcap

`txrx_vals` and the reporting rounds of `main_trigger` in `natcapd.sh`. The
baseline is advanced before the report is sent, and taken back from a second
file when no server took it. A report counts what the counters grew by since
the baseline, and nothing where one of them is below it. The counters are taken
to stay below `2 ^ 63` bytes, which the arithmetic of the shell can hold.
-/

namespace XWrt.Natcap

open Foundation

/-! ## The script -/

/-- Bytes sent and received. -/
abbrev TxRx := ℕ × ℕ

/-- The files with the baseline. -/
structure TrafficFiles where
  /-- `/tmp/natcapd.txrx` -/
  txrx : Option TxRx
  /-- `/tmp/natcapd.txrx.old` -/
  old : Option TxRx
  deriving DecidableEq, Repr

/-- `tx2` and `rx2`, for the values of the lines `flow_total_` of the control device -/
def flowTotal (device : List ℕ) : TxRx := (device[0]?.getD 0, device[1]?.getD 0)

/-- What is printed for a baseline and the counters. -/
def grown (baseline counters : TxRx) : TxRx :=
  if counters.1 < baseline.1 ∨ counters.2 < baseline.2 then 0 else counters - baseline

/-- What a missing file stands for; it is written as `0 0`. -/
def TrafficFiles.recorded (files : TrafficFiles) : TxRx := files.txrx.getD 0

/-- `txrx_vals` -/
def txrxVals (device : List ℕ) (files : TrafficFiles) : TrafficFiles × TxRx :=
  let counters := flowTotal device
  (⟨some counters, some files.recorded⟩, grown files.recorded counters)

/-- Whether `wget` succeeds, in the order of the attempts. -/
structure Attempts where
  byName : Bool
  byAddress : Bool
  builtIn : Bool
  deriving DecidableEq, Repr

def Attempts.delivered (attempts : Attempts) : Bool := attempts.byName || attempts.byAddress || attempts.builtIn

/-- `cp /tmp/natcapd.txrx.old /tmp/natcapd.txrx` -/
def TrafficFiles.restored (files : TrafficFiles) : TrafficFiles :=
  match files.old with
  | some old => { files with txrx := some old }
  | none => files

/-- A round of `main_trigger`, with the report that was delivered. -/
def mainTrigger (device : List ℕ) (files : TrafficFiles) (attempts : Attempts) : TrafficFiles × List TxRx :=
  let (files, report) := txrxVals device files
  if attempts.delivered then (files, [report]) else (files.restored, [])

/-! ## Runs -/

structure Router where
  kernel : TxRx
  files : TrafficFiles
  deriving DecidableEq, Repr

inductive RouterEvent where
  | passes (traffic : TxRx)
  /-- the counters start again from zero -/
  | restarts
  | round (attempts : Attempts)
  deriving DecidableEq, Repr

/-- The router, which emits the delivered reports. -/
def router : Transducer Router RouterEvent TxRx where
  step host
    | .passes traffic => ({ host with kernel := host.kernel + traffic }, [])
    | .restarts => ({ host with kernel := 0 }, [])
    | .round attempts =>
        let (files, reports) := mainTrigger [host.kernel.1, host.kernel.2] host.files attempts
        ({ host with files := files }, reports)

/-- What passes in an event. -/
def RouterEvent.traffic : RouterEvent → TxRx
  | .passes traffic => traffic
  | _ => 0

/-- The counters in a round that delivers its report. -/
def deliveredAt (entry : Entry Router RouterEvent TxRx) : Option TxRx :=
  match entry.input with
  | .round attempts => if attempts.delivered then some entry.before.kernel else none
  | _ => none

/-- The counters in the last round that delivered its report. -/
def lastDelivered (past : List (Entry Router RouterEvent TxRx)) : Option TxRx := (past.filterMap deliveredAt).getLast?

/-- What passed since the baseline was recorded, as far as the counters show: all that they show,
if they have started again since. -/
def Router.unreported (host : Router) : TxRx :=
  if host.files.recorded ≤ host.kernel then host.kernel - host.files.recorded else host.kernel

/-! ## One round -/

theorem grown_of_le {baseline counters : TxRx} (below : baseline ≤ counters) : grown baseline counters = counters - baseline :=
  if_neg (not_or.mpr ⟨Nat.not_lt.mpr below.1, Nat.not_lt.mpr below.2⟩)

theorem grown_le (baseline counters : TxRx) : grown baseline counters ≤ counters - baseline := by
  unfold grown
  split
  next => exact ⟨Nat.zero_le _, Nat.zero_le _⟩
  next => exact le_rfl

/-- A delivered round reports what the counters grew by, and makes them the baseline. -/
theorem step_delivered (host : Router) {attempts : Attempts} (delivered : attempts.delivered = true) :
    (router.step host (.round attempts)).2 = [grown host.files.recorded host.kernel] ∧
      (router.step host (.round attempts)).1.files.recorded = host.kernel := by
  have round : mainTrigger [host.kernel.1, host.kernel.2] host.files attempts =
      (⟨some host.kernel, some host.files.recorded⟩, [grown host.files.recorded host.kernel]) := if_pos delivered
  simp only [router, round]
  exact ⟨trivial, rfl⟩

/-- A round that fails reports nothing, and the baseline is the one before. -/
theorem step_failed (host : Router) {attempts : Attempts} (failed : attempts.delivered = false) :
    (router.step host (.round attempts)).2 = [] ∧
      (router.step host (.round attempts)).1.files.recorded = host.files.recorded := by
  have round : mainTrigger [host.kernel.1, host.kernel.2] host.files attempts =
      (⟨some host.files.recorded, some host.files.recorded⟩, []) := if_neg (by rw [failed]; decide)
  simp only [router, round]
  exact ⟨trivial, rfl⟩

theorem step_kernel_round (host : Router) (attempts : Attempts) :
    (router.step host (.round attempts)).1.kernel = host.kernel := rfl

theorem deliveredAt_round (host : Router) (attempts : Attempts) :
    deliveredAt (router.entry host (.round attempts)) = if attempts.delivered then some host.kernel else none := rfl

/-! ## What was reported -/

/-- What a run reported so far. -/
def reported (past : List (Entry Router RouterEvent TxRx)) : TxRx := (past.flatMap Entry.emitted).sum

def passed (past : List (Entry Router RouterEvent TxRx)) : TxRx := (past.map fun entry => entry.input.traffic).sum

theorem reported_concat (past : List (Entry Router RouterEvent TxRx)) (entry : Entry Router RouterEvent TxRx) :
    reported (past ++ [entry]) = reported past + entry.emitted.sum := by
  rw [reported, List.flatMap_append, List.sum_append, List.flatMap_singleton]
  rfl

theorem passed_concat (past : List (Entry Router RouterEvent TxRx)) (entry : Entry Router RouterEvent TxRx) :
    passed (past ++ [entry]) = passed past + entry.input.traffic := by
  rw [passed, List.map_append, List.sum_append, List.map_singleton, List.sum_singleton]
  rfl

theorem lastDelivered_concat (past : List (Entry Router RouterEvent TxRx)) (entry : Entry Router RouterEvent TxRx) :
    lastDelivered (past ++ [entry]) = (deliveredAt entry).or (lastDelivered past) := by
  rw [lastDelivered, List.filterMap_append, List.getLast?_append]
  cases here : deliveredAt entry <;> simp [here, lastDelivered]

theorem passed_trace (host : Router) (events : List RouterEvent) :
    passed (router.trace host events) = (events.map RouterEvent.traffic).sum := by
  conv_rhs => rw [← router.map_input_trace host events, List.map_map]
  rfl

/-- The baseline and the reports so far. -/
structure Booked (start : TxRx) (past : List (Entry Router RouterEvent TxRx)) (host : Router) : Prop where
  below : host.files.recorded ≤ host.kernel
  sum : reported past + start = host.files.recorded
  last : host.files.recorded = (lastDelivered past).getD start

theorem Booked.step {start : TxRx} {past : List (Entry Router RouterEvent TxRx)} {host : Router} {event : RouterEvent}
    (booked : Booked start past host) (grows : event ≠ .restarts) :
    Booked start (past ++ [router.entry host event]) (router.step host event).1 := by
  cases event with
  | passes traffic =>
      refine ⟨booked.below.trans le_self_add, ?_, ?_⟩
      · rw [reported_concat]
        exact booked.sum
      · rw [lastDelivered_concat]
        exact booked.last
  | restarts => exact absurd rfl grows
  | round attempts =>
      cases taken : attempts.delivered with
      | true =>
          obtain ⟨report, baseline⟩ := step_delivered host taken
          refine ⟨baseline.le, ?_, ?_⟩
          · -- The baseline and its growth are the counters.
            rw [reported_concat, baseline, show (router.entry host (.round attempts)).emitted = _ from report,
              List.sum_singleton, grown_of_le booked.below, add_right_comm, booked.sum, add_tsub_cancel_of_le booked.below]
          · rw [lastDelivered_concat, deliveredAt_round, if_pos taken, baseline]
            rfl
      | false =>
          obtain ⟨report, baseline⟩ := step_failed host taken
          refine ⟨baseline.le.trans booked.below, ?_, ?_⟩
          · rw [reported_concat, baseline, show (router.entry host (.round attempts)).emitted = _ from report,
              List.sum_nil, add_zero, booked.sum]
          · rw [lastDelivered_concat, deliveredAt_round, taken, baseline]
            exact booked.last

/-- What was reported, and what the counters show beyond the baseline, has passed. -/
def Covered (before : TxRx) (past : List (Entry Router RouterEvent TxRx)) (host : Router) : Prop :=
  reported past + (host.kernel - host.files.recorded) ≤ before + passed past

theorem Covered.step {before : TxRx} {past : List (Entry Router RouterEvent TxRx)} {host : Router}
    (covered : Covered before past host) (event : RouterEvent) :
    Covered before (past ++ [router.entry host event]) (router.step host event).1 := by
  rw [Covered, reported_concat, passed_concat]
  cases event with
  | passes traffic =>
      calc
        reported past + 0 + (host.kernel + traffic - host.files.recorded)
            ≤ reported past + ((host.kernel - host.files.recorded) + traffic) := by
              rw [add_zero]
              exact add_le_add_right add_tsub_le_tsub_add _
        _ ≤ before + passed past + traffic := by
              rw [← add_assoc]
              exact add_le_add_left covered _
        _ = before + (passed past + traffic) := add_assoc _ _ _
  | restarts =>
      -- Nothing is above the baseline any more.
      calc
        reported past + 0 + (0 - host.files.recorded) = reported past := by rw [add_zero, zero_tsub, add_zero]
        _ ≤ before + passed past := le_self_add.trans covered
        _ = before + (passed past + 0) := by rw [add_zero]
  | round attempts =>
      have same : before + (passed past + (router.entry host (.round attempts)).input.traffic) = before + passed past := by
        rw [show (router.entry host (.round attempts)).input.traffic = 0 from rfl, add_zero]
      rw [same, step_kernel_round]
      cases taken : attempts.delivered with
      | true =>
          obtain ⟨report, baseline⟩ := step_delivered host taken
          rw [baseline, tsub_self, add_zero, show (router.entry host (.round attempts)).emitted = _ from report,
            List.sum_singleton]
          exact (add_le_add_right (grown_le _ _) _).trans covered
      | false =>
          obtain ⟨report, baseline⟩ := step_failed host taken
          rw [baseline, show (router.entry host (.round attempts)).emitted = _ from report, List.sum_nil, add_zero]
          exact covered

theorem covered_start (host : Router) : Covered host.unreported [] host := by
  rw [Covered, show reported [] = 0 from rfl, show passed [] = 0 from rfl, zero_add, add_zero, Router.unreported]
  split
  next => exact le_rfl
  next => exact tsub_le_self

/-- While the counters only grow, the delivered reports add up to their growth up to the last delivered round; and if they
start again, the reports add up to no more than what has passed. -/
theorem router_reports_once (host : Router) (events : List RouterEvent) :
    (host.files.recorded ≤ host.kernel → (∀ event ∈ events, event ≠ .restarts) →
      (router.emitted host events).sum + host.files.recorded =
        (lastDelivered (router.trace host events)).getD host.files.recorded) ∧
    (router.emitted host events).sum ≤ host.unreported + (events.map RouterEvent.traffic).sum := by
  constructor
  · intro below grow
    have permitted : router.AllSteps (fun _ event => event ≠ .restarts) host events := by
      intro entry member
      have input : entry.input ∈ events := by
        rw [← router.map_input_trace host events]
        exact List.mem_map_of_mem member
      exact grow _ input
    have booked := router.history_invariant (fun _ event => event ≠ .restarts) (Booked host.files.recorded)
      ⟨below, zero_add _, rfl⟩ (fun _ _ _ booked grows => booked.step grows) events permitted
    exact booked.sum.trans booked.last
  · have covered := router.history_invariant (fun _ _ => True) (Covered host.unreported) (covered_start host)
      (fun _ _ event covered _ => covered.step event) events fun _ _ => trivial
    rw [Covered, passed_trace] at covered
    exact le_self_add.trans covered

/-- A round that fails, and one that delivers what passed before both. -/
def retriedRounds : List RouterEvent :=
  [.passes (6, 3), .round ⟨false, false, false⟩, .passes (2, 2), .round ⟨false, true, false⟩, .passes (1, 1)]

theorem router_reports_once_retried :
    (router.emitted ⟨(10, 4), ⟨some (4, 2), none⟩⟩ retriedRounds).sum + (4, 2) = (18, 9) :=
  (router_reports_once ⟨(10, 4), ⟨some (4, 2), none⟩⟩ retriedRounds).1 (by decide) (by decide)

end XWrt.Natcap
