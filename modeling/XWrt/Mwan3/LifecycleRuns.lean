import XWrt.Mwan3.Lifecycle

/-!
# Runs of concurrent commands

An annotation of the processes says for every place under the lock what holds of
the tables, the sets and the route monitors there. Orderly runs keep it, and
when all commands have finished it says what the last critical section has left.
-/

namespace XWrt.Mwan3

open XWrt.Foundation

/-! ## The annotation -/

section Notes

variable (c : MaskConfig) (spelling : Spelling)

/-- No family has two monitors. -/
def Single (s : Lifecycle) : Prop := ∀ family, s.running family ≤ 1

def Quiet (s : Lifecycle) : Prop := ∀ family, s.running family = 0

/-- Where mwan3 is disabled, it is stopped. -/
def Rest (s : Lifecycle) : Prop := s.sys.enabled = false → Stopped spelling s

/-- Both passes over the sets have been made. -/
def Swept (s : Lifecycle) : Prop := ∃ before : SetState, before.Sound ∧ s.sets = destroySets before

/-- What holds of the shared state while a process stands somewhere under the lock. -/
def Control.Here : Control → Lifecycle → Prop
  | .checking, s => Rest spelling s ∧ Single s
  | .comparing, s => s.sys.enabled = true ∧ Single s
  | .clearing _, s => s.sys.enabled = false ∧ (s.killer = none → Quiet s)
  | .ending _, s => s.sys.enabled = false ∧ Bare spelling s ∧ Swept s ∧ (s.killer = none → Quiet s)
  | .waiting _, s => s.sys.enabled = false ∧ Bare spelling s ∧ Swept s ∧ (s.killer = none → Quiet s)
  | .removing _, s => s.sys.enabled = false ∧ Bare spelling s ∧ Swept s ∧ Quiet s
  | .reinitialising, s => Stopped spelling s
  | .enabling _, s => Rest spelling s ∧ Single s
  | .installing _, s => s.sys.enabled = true ∧ Single s
  | .releasing _ kind, s =>
      Rest spelling s ∧ Single s ∧ (kind = .stop → s.sys.enabled = false) ∧
        (kind = .start ∨ kind = .reload → s.sys.enabled = true ∧ Hooked c spelling s)
  | .looking origin _, s => origin = .reload → s.sys.enabled = true ∧ Hooked c spelling s ∧ Single s
  | .launching origin _, s => origin = .reload → s.sys.enabled = true ∧ Hooked c spelling s ∧ Single s
  | _, _ => True

/-- A stop section whose killer may be under way. -/
def Control.kills : Control → Bool
  | .clearing _ | .ending _ | .waiting _ => true
  | _ => false

/-- The process has read the mask. -/
def Control.initialised : Control → Bool
  | .gone | .initialising _ | .checking | .comparing => false
  | .locking origin => origin ≠ .reload
  | .releasing origin _ => origin ≠ .reload
  | _ => true

/-- The mask and the flags of the process are those of the configuration. -/
structure Process.Knows (p : Process) : Prop where
  mask : p.spelling.mask = spelling.mask
  need : p.need = (c.withMask spelling).need

/-- What holds of a process. -/
structure Note (pid : Nat) (p : Process) (s : Lifecycle) : Prop where
  lock : p.control.holds = true ↔ s.lock = some pid
  knows : p.control.initialised = true → p.Knows c spelling
  calm : p.control.holds = true → p.control.kills = false → s.killer = none
  here : p.control.Here c spelling s

/-- What holds of the shared state. -/
structure Inv (s : Lifecycle) : Prop where
  config : s.sys.config = spelling
  mask : s.sys.mmxMask.mask = spelling.mask
  based : ∀ family, (s.sys.tables family).Based
  sound : s.sets.Sound
  routes : ∀ family, ∀ tid ∈ s.routes family, (tid : Int) ≤ interfaceMax spelling.mask
  free : s.lock = none → Rest spelling s ∧ Single s ∧ s.killer = none
  killer : s.killer.isSome = true → s.sys.enabled = false
  stopped : s.last = some .stop → s.lock = none ∧ s.sys.enabled = false
  serving : s.last = some .start ∨ s.last = some .reload →
    s.lock = none ∧ s.sys.enabled = true ∧ Hooked c spelling s

end Notes

section Steps

variable {c : MaskConfig} {spelling : Spelling} {pid : Nat} {p : Process} {s s' : Lifecycle}

theorem here_of_not_holds {control : Control} (outside : control.holds = false) (s : Lifecycle) :
    control.Here c spelling s := by
  cases control with
  | looking origin family => exact fun reload => absurd (decide_eq_true reload) (Bool.eq_false_iff.mp outside)
  | launching origin family => exact fun reload => absurd (decide_eq_true reload) (Bool.eq_false_iff.mp outside)
  | gone => trivial
  | initialising origin => trivial
  | touching origin => trivial
  | locking origin => trivial
  | _ => cases outside

/-- Going on, a process keeps the mask that it has read. -/
theorem Process.Knows.goto (knows : p.Knows c spelling) (control : Control) : (p.goto control).Knows c spelling :=
  ⟨knows.mask, knows.need⟩

theorem Stopped.single (stopped : Stopped spelling s) : Single s :=
  fun family => (stopped.quiet family).trans_le (Nat.zero_le 1)

/-- A step that leaves alone what the lock protects. -/
structure Same (s s' : Lifecycle) : Prop where
  enabled : s'.sys.enabled = s.sys.enabled
  tables : s'.sys.tables = s.sys.tables
  sets : s'.sets = s.sets
  routes : s'.routes = s.routes

/-- A step that leaves alone the lock and the killer too. -/
structure Apart (s s' : Lifecycle) : Prop extends Same s s' where
  config : s'.sys.config = s.sys.config
  mask : s'.sys.mmxMask.mask = s.sys.mmxMask.mask
  lock : s'.lock = s.lock
  killer : s'.killer = s.killer
  last : s'.last = s.last

/-- As many monitors run as before, or one was launched where none ran and mwan3 is enabled. -/
def FewMonitors (s s' : Lifecycle) : Prop :=
  s'.running = s.running ∨
    ∃ family, s.running family = 0 ∧ s.sys.enabled = true ∧
      s'.running = Function.update s.running family (s.running family + 1)

namespace Same

theorem single (few : FewMonitors s s') (single : Single s) : Single s' := by
  rcases few with equal | ⟨family, none, -, launched⟩
  · exact fun family => equal ▸ single family
  · intro other
    rw [launched]
    by_cases own : other = family
    · rw [own, Function.update_self, none]
    · rw [Function.update_of_ne own]
      exact single other

theorem hooked (same : Same s s') (hooked : Hooked c spelling s) : Hooked c spelling s' := by
  intro family needed
  rw [same.tables]
  exact hooked family needed

theorem bare (same : Same s s') (bare : Bare spelling s) : Bare spelling s' :=
  ⟨fun family => by rw [same.tables]; exact bare.tables family,
    fun family => by rw [same.routes]; exact bare.routes family⟩

theorem swept (same : Same s s') (swept : Swept s) : Swept s' := by
  obtain ⟨before, sound, destroyed⟩ := swept
  exact ⟨before, sound, same.sets.trans destroyed⟩

theorem quiet (few : FewMonitors s s') (disabled : s.sys.enabled = false) (quiet : Quiet s) : Quiet s' := by
  intro family
  rcases few with equal | ⟨_, _, enabled, _⟩
  · rw [equal]
    exact quiet family
  · rw [disabled] at enabled
    cases enabled

theorem stopped (same : Same s s') (few : FewMonitors s s') (stopped : Stopped spelling s) :
    Stopped spelling s' :=
  ⟨same.enabled.trans stopped.disabled, same.bare stopped.bare, same.sets.trans stopped.sets,
    quiet few stopped.disabled stopped.quiet⟩

theorem rest (same : Same s s') (few : FewMonitors s s') (rest : Rest spelling s) : Rest spelling s' :=
  fun disabled => same.stopped few (rest (same.enabled ▸ disabled))

end Same

namespace Apart

/-- What a process relies on under the lock stays. -/
theorem here (apart : Apart s s') (few : FewMonitors s s') {control : Control}
    (here : control.Here c spelling s) : control.Here c spelling s' := by
  have same := apart.toSame
  have enabled := same.enabled
  have hushed : s.sys.enabled = false → (s.killer = none → Quiet s) → s'.killer = none → Quiet s' :=
    fun disabled quiet none => Same.quiet few disabled (quiet (apart.killer.symm.trans none))
  cases control with
  | checking => exact ⟨same.rest few here.1, Same.single few here.2⟩
  | comparing => exact ⟨enabled.trans here.1, Same.single few here.2⟩
  | clearing origin => exact ⟨enabled.trans here.1, hushed here.1 here.2⟩
  | ending origin =>
      exact ⟨enabled.trans here.1, same.bare here.2.1, same.swept here.2.2.1, hushed here.1 here.2.2.2⟩
  | waiting origin =>
      exact ⟨enabled.trans here.1, same.bare here.2.1, same.swept here.2.2.1, hushed here.1 here.2.2.2⟩
  | removing origin =>
      exact ⟨enabled.trans here.1, same.bare here.2.1, same.swept here.2.2.1,
        Same.quiet few here.1 here.2.2.2⟩
  | reinitialising => exact same.stopped few here
  | enabling origin => exact ⟨same.rest few here.1, Same.single few here.2⟩
  | installing origin => exact ⟨enabled.trans here.1, Same.single few here.2⟩
  | releasing origin kind =>
      obtain ⟨rest, one, stop, serve⟩ := here
      exact ⟨same.rest few rest, Same.single few one, fun kind => enabled.trans (stop kind),
        fun kind => ⟨enabled.trans (serve kind).1, same.hooked (serve kind).2⟩⟩
  | looking origin family =>
      intro reload
      obtain ⟨on, hooked, one⟩ := here reload
      exact ⟨enabled.trans on, same.hooked hooked, Same.single few one⟩
  | launching origin family =>
      intro reload
      obtain ⟨on, hooked, one⟩ := here reload
      exact ⟨enabled.trans on, same.hooked hooked, Same.single few one⟩
  | _ => trivial

theorem inv (apart : Apart s s') (few : FewMonitors s s') (inv : Inv c spelling s) : Inv c spelling s' := by
  refine ⟨apart.config.trans inv.config, apart.mask.trans inv.mask, ?_, ?_, ?_, ?_, ?_, ?_, ?_⟩
  · rw [apart.tables]
    exact inv.based
  · rw [apart.sets]
    exact inv.sound
  · rw [apart.routes]
    exact inv.routes
  · rw [apart.lock, apart.killer]
    exact fun free => ⟨apart.rest few (inv.free free).1, Same.single few (inv.free free).2.1, (inv.free free).2.2⟩
  · rw [apart.killer, apart.enabled]
    exact inv.killer
  · rw [apart.last, apart.lock, apart.enabled]
    exact inv.stopped
  · rw [apart.last, apart.lock, apart.enabled]
    exact fun last => ⟨(inv.serving last).1, (inv.serving last).2.1, apart.hooked (inv.serving last).2.2⟩

/-- A process that stays where it is. -/
theorem note (apart : Apart s s') (few : FewMonitors s s') (note : Note c spelling pid p s) :
    Note c spelling pid p s' :=
  ⟨by rw [apart.lock]; exact note.lock, note.knows, by rw [apart.killer]; exact note.calm,
    apart.here few note.here⟩

end Apart

/-- A process that does not hold the lock and is not to hold it. -/
theorem Note.outside (holds : p.control.holds = false) (free : s.lock ≠ some pid)
    (knows : p.control.initialised = true → p.Knows c spelling) : Note c spelling pid p s :=
  ⟨⟨fun held => absurd held (Bool.eq_false_iff.mp holds), fun same => absurd same free⟩, knows,
    fun held => absurd held (Bool.eq_false_iff.mp holds), here_of_not_holds holds s⟩

/-- A process that holds the lock and keeps it. -/
theorem Note.inside (holds : p.control.holds = true) (locked : s.lock = some pid)
    (knows : p.control.initialised = true → p.Knows c spelling)
    (calm : p.control.kills = false → s.killer = none) (here : p.control.Here c spelling s) :
    Note c spelling pid p s :=
  ⟨⟨fun _ => locked, fun _ => holds⟩, knows, fun _ => calm, here⟩

end Steps

/-! ## Whole runs -/

section Runs

variable {c : MaskConfig} {spelling : Spelling}

/-- What a route monitor leaves alone when it works on the sets and the routes. -/
structure Works (s s' : Lifecycle) : Prop where
  sys : s'.sys = s.sys
  lock : s'.lock = s.lock
  killer : s'.killer = s.killer
  last : s'.last = s.last
  running : s'.running = s.running
  sound : s.sets.Sound → s'.sets.Sound
  routes : ∀ family, ∀ tid ∈ s'.routes family, tid ∈ s.routes family

section Works

variable {s s' : Lifecycle} {pid : Nat} {p : Process}

theorem Works.bounded (works : Works s s') (inv : Inv c spelling s) :
    ∀ family, ∀ tid ∈ s'.routes family, (tid : Int) ≤ interfaceMax spelling.mask :=
  fun family tid inside => inv.routes family tid (works.routes family tid inside)

end Works

end Runs

/-! ## A late launch -/

/-- A step that a process takes with nothing special about it. -/
def plainChance : Chance := ⟨none, wanUplink, true, false⟩

/-- A process takes a number of steps. -/
def steps (pid n : Nat) : List (Turn Chance Background) := List.replicate n (.run pid plainChance)

end XWrt.Mwan3
