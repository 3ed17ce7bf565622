import Mathlib.Data.List.DropRight
import XWrt.Foundation.Transducer

/-!
# Logs in which the past decides

A log is allowed when every event in it is allowed after the events before it.
Some events end an episode; what has happened since the last of them is the
current episode. The rule for machines carries an invariant of the log so far and
the state along, and with it what each step may add to the log.
-/

namespace XWrt.Foundation

/-- After the past, the events are allowed one after the other. -/
def Follows {ω : Type*} (allows : List ω → ω → Prop) : List ω → List ω → Prop
  | _, [] => True
  | past, event :: events => allows past event ∧ Follows allows (past ++ [event]) events

/-- Every event is allowed after those before it. -/
def Chronicle {ω : Type*} (allows : List ω → ω → Prop) (log : List ω) : Prop := Follows allows [] log

/-- The events since the last one that ends an episode. -/
def since {ω : Type*} (ends : ω → Bool) (log : List ω) : List ω := log.rtakeWhile fun event => !ends event

section Logs

variable {ω : Type*} {allows : List ω → ω → Prop} {past events log : List ω}

@[simp]
theorem follows_nil : Follows allows past [] := trivial

@[simp]
theorem follows_cons {event : ω} : Follows allows past (event :: events) ↔ allows past event ∧ Follows allows (past ++ [event]) events := Iff.rfl

theorem follows_append {more : List ω} : Follows allows past (events ++ more) ↔ Follows allows past events ∧ Follows allows (past ++ events) more := by
  induction events generalizing past with
  | nil => rw [List.nil_append, List.append_nil, and_iff_right follows_nil]
  | cons event events ih =>
      rw [List.cons_append, follows_cons, follows_cons, ih, and_assoc, List.append_assoc, List.singleton_append]

theorem chronicle_append {more : List ω} : Chronicle allows (log ++ more) ↔ Chronicle allows log ∧ Follows allows log more := follows_append

/-- Events that are allowed after any past. -/
theorem follows_of_forall (always : ∀ event ∈ events, ∀ past, allows past event) : Follows allows past events := by
  induction events generalizing past with
  | nil => exact follows_nil
  | cons event events ih =>
      rw [List.forall_mem_cons] at always
      exact follows_cons.mpr ⟨always.1 past, ih always.2⟩

/-- What an allowed log says about any of its events. -/
theorem Chronicle.allowed (chronicle : Chronicle allows log) {before after : List ω} {event : ω} (split : log = before ++ event :: after) :
    allows before event := by
  rw [split, chronicle_append, follows_cons] at chronicle
  exact chronicle.2.1

theorem Chronicle.of_mem {fact : ω → Prop} (chronicle : Chronicle (fun _ => fact) log) : ∀ event ∈ log, fact event := by
  intro event member
  obtain ⟨before, after, split⟩ := List.append_of_mem member
  exact chronicle.allowed split

variable {ends : ω → Bool}

@[simp]
theorem since_nil : since ends ([] : List ω) = [] := rfl

theorem since_concat_of_ends {event : ω} (last : ends event = true) : since ends (log ++ [event]) = [] :=
  List.rtakeWhile_concat_neg _ _ _ (by simp [last])

theorem since_concat_of_not {event : ω} (other : ends event = false) : since ends (log ++ [event]) = since ends log ++ [event] :=
  List.rtakeWhile_concat_pos _ _ _ (by simp [other])

/-- Events that end no episode belong to the current one. -/
theorem since_append (others : ∀ event ∈ events, ends event = false) : since ends (log ++ events) = since ends log ++ events := by
  induction events using List.reverseRecOn with
  | nil => rw [List.append_nil, List.append_nil]
  | append_singleton events event ih =>
      rw [List.forall_mem_append, List.forall_mem_singleton] at others
      rw [← List.append_assoc, since_concat_of_not others.2, ih others.1, List.append_assoc]

/-- Events of which one ends an episode hold all of the current one. -/
theorem since_append_of_mem {event : ω} (member : event ∈ events) (last : ends event = true) : since ends (log ++ events) = since ends events := by
  induction events using List.reverseRecOn with
  | nil => cases member
  | append_singleton events newest ih =>
      rw [← List.append_assoc]
      cases here : ends newest with
      | true => rw [since_concat_of_ends here, since_concat_of_ends here]
      | false =>
          have before : event ∈ events := (List.mem_append.mp member).resolve_right fun same => by
            rw [List.mem_singleton.mp same, here] at last
            cases last
          rw [since_concat_of_not here, since_concat_of_not here, ih before]

theorem mem_of_mem_since {event : ω} (member : event ∈ since ends log) : event ∈ log := (List.rtakeWhile_suffix _ log).subset member

/-- An event that ends an episode leaves nothing of it. -/
theorem since_append_concat {event : ω} (last : ends event = true) : since ends (log ++ (events ++ [event])) = [] := by
  rw [← List.append_assoc, since_concat_of_ends last]

end Logs

namespace Transducer

variable {σ ι ω : Type*} (machine : Transducer σ ι ω)

/-- An invariant of the log and the state, which allows each step's events, makes the log of every run allowed. -/
theorem chronicle_run {inv : List ω → σ → Prop} {allows : List ω → ω → Prop} {s : σ} (start : inv [] s)
    (keeps : ∀ log s input, inv log s → Follows allows log (machine.step s input).2 ∧ inv (log ++ (machine.step s input).2) (machine.step s input).1)
    (inputs : List ι) : Chronicle allows (machine.emitted s inputs) ∧ inv (machine.emitted s inputs) (machine.final s inputs) := by
  induction inputs using List.reverseRecOn with
  | nil => exact ⟨trivial, start⟩
  | append_singleton inputs input ih =>
      obtain ⟨follows, next⟩ := keeps _ _ input ih.2
      rw [emitted_append, final_append, emitted_cons, emitted_nil, List.append_nil, chronicle_append]
      exact ⟨⟨ih.1, follows⟩, next⟩

end Transducer

end XWrt.Foundation
