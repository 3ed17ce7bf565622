import XWrt.Foundation.Transducer
import XWrt.P910nd.FirmwareModel

/-!
# The firmware job

The background job of `25-usb-printer-helper.hotplug` as a machine. A step is
one command that looks at the device tree or at the open descriptor, and finds
the world as it is at that moment: between any two steps nodes may be replaced,
printers exchanged and unplugged. A descriptor is the device it was opened on.
-/

namespace XWrt.P910nd

open XWrt.Foundation

/-- What the commands of the job find at a moment; `δ` are the devices. -/
structure World (δ : Type*) where
  lock : Bool
  /-- the lines of `$INTERFACE/uevent`, none if it cannot be read -/
  uevent : List (List Char)
  /-- the names of `$INTERFACE/usbmisc/lp*` -/
  printers : List (List Char)
  present : List Char → Bool
  charDevice : List Char → Bool
  opens : List Char → Option δ
  /-- `readlink -f` -/
  readlink : List Char → List Char
  /-- the ID that `usb_printerid -` gets from the open device -/
  printerId : δ → Option (List Char)
  /-- `test -s` -/
  filled : List Char → Bool
  /-- `cat "$FIRMWARE" >&3` -/
  writes : δ → List Char → Bool

/-- The event the script is called for. -/
structure HotplugEvent where
  action : List Char
  devtype : List Char
  product : List Char
  devpath : List Char

def HotplugEvent.interface (event : HotplugEvent) : List Char := "/sys".toList ++ event.devpath

/-- Where the job stands: the next command, with the number of the attempt and what the attempt has so far. -/
inductive JobState (δ : Type*) where
  | locking
  | attempt (n : ℕ)
  | listing (n : ℕ)
  | probing (n : ℕ) (printers : List (List Char))
  | checking (n : ℕ) (printer : List Char)
  | opening (n : ℕ) (printer : List Char)
  | linking (n : ℕ) (printer : List Char) (device : δ)
  | rechecking (n : ℕ) (device : δ)
  | querying (n : ℕ) (device : δ)
  | testing (n : ℕ) (device : δ) (file : List Char)
  | writing (n : ℕ) (device : δ) (file : List Char)
  | sleeping (n : ℕ)
  | ended

/-- What the job does with devices, and in which attempt. -/
inductive DeviceEvent (δ : Type*) where
  | opened (n : ℕ) (device : δ)
  | queried (n : ℕ) (device : δ) (id : List Char)
  | wrote (n : ℕ) (device : δ) (file : List Char) (ok : Bool)
  deriving DecidableEq

variable {δ : Type*}

def DeviceEvent.attempt : DeviceEvent δ → ℕ
  | .opened n _ => n
  | .queried n _ _ => n
  | .wrote n _ _ _ => n

/-- `for attempt in $(seq 30)` -/
def attempts : ℕ := 30

def devicePath (printer : List Char) : List Char := "/dev/usb/".toList ++ printer

/-- `grep -Fqx "PRODUCT=$PRODUCT" "$INTERFACE/uevent"` -/
def sameProduct (event : HotplugEvent) (world : World δ) : Bool := "PRODUCT=".toList ++ event.product ∈ world.uevent

/-- After the ID: whether the firmware is there, and which file it would be. -/
def examine (event : HotplugEvent) (n : ℕ) (device : δ) (id : List Char) : JobState δ :=
  if hasFwver (deviceId id) then .ended
  else
    match selectFirmware (firmware event.product) (normalizedModel (printedModel (deviceId id))) with
    | some file => .testing n device file
    | none => .ended

/-- One command. -/
def stepJob (event : HotplugEvent) (state : JobState δ) (world : World δ) : JobState δ × List (DeviceEvent δ) :=
  match state with
  | .locking => (if world.lock then .attempt 1 else .ended, [])
  | .attempt n => (if sameProduct event world then .listing n else .ended, [])
  | .listing n => (.probing n world.printers, [])
  | .probing n [] => (.sleeping n, [])
  | .probing n (printer :: rest) =>
      (if world.present (event.interface ++ "/usbmisc/".toList ++ printer) then .checking n printer else .probing n rest, [])
  | .checking n printer => (if world.charDevice (devicePath printer) then .opening n printer else .sleeping n, [])
  | .opening n printer =>
      match world.opens (devicePath printer) with
      | some device => (.linking n printer device, [.opened n device])
      | none => (.sleeping n, [])
  | .linking n printer device =>
      (if world.readlink ("/sys/class/usbmisc/".toList ++ printer ++ "/device".toList) = event.interface then .rechecking n device
        else .sleeping n, [])
  | .rechecking n device => (if sameProduct event world then .querying n device else .sleeping n, [])
  | .querying n device =>
      match world.printerId device with
      | some id => (examine event n device id, [.queried n device id])
      | none => (.sleeping n, [])
  | .testing n device file => (if world.filled file then .writing n device file else .sleeping n, [])
  | .writing n device file =>
      (if world.writes device file then .ended else .sleeping n, [.wrote n device file (world.writes device file)])
  | .sleeping n => (if n < attempts then .attempt (n + 1) else .ended, [])
  | .ended => (.ended, [])

def firmwareJob (event : HotplugEvent) : Transducer (JobState δ) (World δ) (DeviceEvent δ) := ⟨stepJob event⟩

/-- The script up to the job; `interfaceClass` is the first line of `bInterfaceClass`. -/
def startHelper (event : HotplugEvent) (present : List Char → Bool) (interfaceClass : Option (List Char)) : JobState δ :=
  if (event.action = "add".toList ∨ event.action = "bind".toList) ∧ event.devtype = "usb_interface".toList ∧
      firmware event.product ≠ [] ∧ present (firmware event.product) ∧ event.devpath ≠ [] ∧ interfaceClass = some "07".toList
  then .locking else .ended

/-! ## What a write needs -/

/-- The last two things before are the opening of the device and the query of its ID, in this attempt. -/
structure Prepared (n : ℕ) (device : δ) (file : List Char) (before : List (DeviceEvent δ)) : Prop where
  queried : ∃ earlier id, before = earlier ++ [.opened n device, .queried n device id] ∧
    (∀ event ∈ earlier, event.attempt < n) ∧ NeedsFirmware id file
  number : 1 ≤ n ∧ n ≤ attempts

def Unwritten (past : List (DeviceEvent δ)) : Prop := ∀ n device file, .wrote n device file true ∉ past

/-- Every write so far was prepared and came before any success. -/
def WritesFit (past : List (DeviceEvent δ)) : Prop :=
  ∀ before n device file ok after, past = before ++ .wrote n device file ok :: after → Prepared n device file before ∧ Unwritten before

theorem WritesFit.concat {past : List (DeviceEvent δ)} {event : DeviceEvent δ} (fit : WritesFit past)
    (last : ∀ n device file ok, event = .wrote n device file ok → Prepared n device file past ∧ Unwritten past) :
    WritesFit (past ++ [event]) := by
  intro before n device file ok after split
  rcases List.eq_nil_or_concat after with rfl | ⟨after, final, rfl⟩
  · obtain ⟨same, event_eq⟩ := List.append_inj' split rfl
    rw [← same]
    exact last n device file ok (List.singleton_inj.mp event_eq)
  · rw [List.concat_eq_append, ← List.cons_append, ← List.append_assoc] at split
    exact fit before n device file ok after (List.append_inj' split rfl).1

/-- What the past of an attempt is, where the job stands. -/
def Stands (past : List (DeviceEvent δ)) : JobState δ → Prop
  | .locking => past = []
  | .attempt n | .listing n | .probing n _ | .checking n _ | .opening n _ =>
      (1 ≤ n ∧ n ≤ attempts) ∧ ∀ event ∈ past, event.attempt < n
  | .linking n _ device | .rechecking n device | .querying n device =>
      (1 ≤ n ∧ n ≤ attempts) ∧ ∃ earlier, past = earlier ++ [.opened n device] ∧ ∀ event ∈ earlier, event.attempt < n
  | .testing n device file | .writing n device file => Prepared n device file past
  | .sleeping n => (1 ≤ n ∧ n ≤ attempts) ∧ ∀ event ∈ past, event.attempt ≤ n
  | .ended => True

/-- What holds of the events so far and the state. -/
structure Sound (past : List (DeviceEvent δ)) (state : JobState δ) : Prop where
  fit : WritesFit past
  unwritten : state ≠ .ended → Unwritten past
  stands : Stands past state

namespace Sound

variable {past : List (DeviceEvent δ)} {state next : JobState δ}

theorem start : Sound ([] : List (DeviceEvent δ)) .locking := by
  refine ⟨fun before n device file ok after split => ?_, fun _ _ _ _ => List.not_mem_nil, rfl⟩
  exact absurd split (by simp)

/-- A step without an event. -/
theorem silent (sound : Sound past state) (running : state ≠ .ended) (stands : Stands past next) : Sound (past ++ []) next := by
  rw [List.append_nil]
  exact ⟨sound.fit, fun _ => sound.unwritten running, stands⟩

/-- A step with an event that is no write. -/
theorem spoken (sound : Sound past state) (running : state ≠ .ended) {event : DeviceEvent δ}
    (harmless : ∀ n device file ok, event ≠ .wrote n device file ok) (stands : Stands (past ++ [event]) next) :
    Sound (past ++ [event]) next := by
  refine ⟨sound.fit.concat fun n device file ok same => absurd same (harmless n device file ok), fun _ n device file member => ?_, stands⟩
  rcases List.mem_append.mp member with early | here
  · exact sound.unwritten running n device file early
  · exact harmless n device file true (List.mem_singleton.mp here).symm

theorem of_ended (sound : Sound past .ended) : Sound (past ++ []) .ended := by
  rw [List.append_nil]
  exact sound

end Sound

section Step

variable {event : HotplugEvent} {past : List (DeviceEvent δ)}

theorem attempt_le_concat {n : ℕ} {last : DeviceEvent δ} (below : ∀ e ∈ past, e.attempt < n) (here : last.attempt ≤ n) :
    ∀ e ∈ past ++ [last], e.attempt ≤ n := by
  intro e member
  rcases List.mem_append.mp member with early | late
  · exact (below e early).le
  · rw [List.mem_singleton.mp late]
    exact here

theorem Stands.either {condition : Prop} [Decidable condition] {first second : JobState δ} (yes : condition → Stands past first)
    (no : Stands past second) : Stands past (if condition then first else second) := by
  split
  next holds => exact yes holds
  next => exact no

theorem Prepared.le {n : ℕ} {device : δ} {file : List Char} (prepared : Prepared n device file past) : ∀ e ∈ past, e.attempt ≤ n := by
  obtain ⟨earlier, id, rfl, below, -⟩ := prepared.queried
  intro e member
  rcases List.mem_append.mp member with early | late
  · exact (below e early).le
  · rcases List.mem_pair.mp late with rfl | rfl <;> exact le_rfl

/-- What the job does with the ID it gets. -/
theorem examine_stands (supported : firmware event.product ≠ []) {n : ℕ} (number : 1 ≤ n ∧ n ≤ attempts) {device : δ} (id : List Char)
    {earlier : List (DeviceEvent δ)} (below : ∀ e ∈ earlier, e.attempt < n) :
    Stands (earlier ++ [.opened n device] ++ [.queried n device id]) (examine event n device id) := by
  rw [examine]
  split
  next => trivial
  next absent =>
    cases selected : selectFirmware (firmware event.product) (normalizedModel (printedModel (deviceId id))) with
    | none => trivial
    | some file =>
        refine ⟨⟨earlier, id, by rw [List.append_assoc]; rfl, below, ?_⟩, number⟩
        exact needsFirmware_of_selected supported (Bool.eq_false_iff.mpr absent) selected

/-- One command keeps what holds. -/
theorem stepJob_sound (supported : firmware event.product ≠ []) {state : JobState δ} (sound : Sound past state) (world : World δ) :
    Sound (past ++ (stepJob event state world).2) (stepJob event state world).1 := by
  have stands := sound.stands
  cases state with
  | locking =>
      have nothing : past = [] := stands
      refine sound.silent (by simp) (Stands.either (fun _ => ⟨by decide, ?_⟩) trivial)
      simp [nothing]
  | attempt n => exact sound.silent (by simp) (Stands.either (fun _ => stands) trivial)
  | listing n => exact sound.silent (by simp) stands
  | probing n printers =>
      cases printers with
      | nil => exact sound.silent (by simp) ⟨stands.1, fun e member => (stands.2 e member).le⟩
      | cons printer rest => exact sound.silent (by simp) (Stands.either (fun _ => stands) stands)
  | checking n printer =>
      exact sound.silent (by simp) (Stands.either (fun _ => stands) ⟨stands.1, fun e member => (stands.2 e member).le⟩)
  | opening n printer =>
      rw [stepJob]
      split
      next => exact sound.spoken (by simp) (by simp) ⟨stands.1, past, rfl, stands.2⟩
      next => exact sound.silent (by simp) ⟨stands.1, fun e member => (stands.2 e member).le⟩
  | linking n printer device =>
      obtain ⟨number, earlier, rfl, below⟩ := stands
      exact sound.silent (by simp) (Stands.either (fun _ => ⟨number, earlier, rfl, below⟩) ⟨number, attempt_le_concat below le_rfl⟩)
  | rechecking n device =>
      obtain ⟨number, earlier, rfl, below⟩ := stands
      exact sound.silent (by simp) (Stands.either (fun _ => ⟨number, earlier, rfl, below⟩) ⟨number, attempt_le_concat below le_rfl⟩)
  | querying n device =>
      obtain ⟨number, earlier, rfl, below⟩ := stands
      rw [stepJob]
      split
      next id _ => exact sound.spoken (by simp) (by simp) (examine_stands supported number id below)
      next => exact sound.silent (by simp) ⟨number, attempt_le_concat below le_rfl⟩
  | testing n device file => exact sound.silent (by simp) (Stands.either (fun _ => stands) ⟨stands.number, stands.le⟩)
  | writing n device file =>
      refine ⟨sound.fit.concat ?_, fun running m other otherFile member => ?_, Stands.either (fun _ => trivial) ⟨stands.number, ?_⟩⟩
      · rintro _ _ _ _ ⟨⟩
        exact ⟨stands, sound.unwritten (by simp)⟩
      · rcases List.mem_append.mp member with early | here
        · exact sound.unwritten (by simp) m other otherFile early
        · -- After a write that succeeds the job is over.
          have ok := (DeviceEvent.wrote.inj (List.mem_singleton.mp here)).2.2.2
          exact absurd (if_pos ok.symm) running
      · intro e member
        rcases List.mem_append.mp member with early | late
        · exact stands.le e early
        · rw [List.mem_singleton.mp late]
          exact le_rfl
  | sleeping n =>
      refine sound.silent (by simp) (Stands.either (fun more => ⟨⟨Nat.le_add_left 1 n, more⟩, fun e member => ?_⟩) trivial)
      exact Nat.lt_succ_of_le (stands.2 e member)
  | ended => exact sound.of_ended

end Step

/-! ## Runs -/

theorem firmwareJob_sound {event : HotplugEvent} (supported : firmware event.product ≠ []) (worlds : List (World δ)) :
    Sound ((firmwareJob event).emitted .locking worlds) ((firmwareJob event).final .locking worlds) := by
  refine Transducer.history_invariant (firmwareJob event) (fun _ _ => True)
    (fun past now => Sound (past.flatMap Entry.emitted) now) Sound.start (fun past now world sound _ => ?_) worlds fun _ _ => trivial
  rw [List.flatMap_append, List.flatMap_singleton]
  exact stepJob_sound supported sound world

theorem emitted_ended (event : HotplugEvent) (worlds : List (World δ)) : (firmwareJob event).emitted .ended worlds = [] := by
  induction worlds with
  | nil => rfl
  | cons world worlds ih => exact ih

/-- Whatever happens to the devices between the commands, a write goes to the device that was opened and asked for its ID just before in
the same attempt, the ID has no firmware and the model of the file, and no write succeeded before. -/
theorem firmware_reaches_its_printer (event : HotplugEvent) (present : List Char → Bool) (interfaceClass : Option (List Char))
    (worlds : List (World δ)) {before after : List (DeviceEvent δ)} {n : ℕ} {device : δ} {file : List Char} {ok : Bool}
    (write : (firmwareJob event).emitted (startHelper event present interfaceClass) worlds = before ++ .wrote n device file ok :: after) :
    Prepared n device file before ∧ Unwritten before := by
  rw [startHelper] at write
  split at write
  next started => exact (firmwareJob_sound started.2.2.1 worlds).fit before n device file ok after write
  next =>
    rw [emitted_ended] at write
    exact absurd write (by simp)

/-- A printer P1009 on the port of the P1006, whose ID cannot be read yet. -/
def silentPrinter : World ℕ where
  lock := true
  uevent := ["PRODUCT=3f0/3e17/100".toList]
  printers := ["lp0".toList]
  present _ := true
  charDevice _ := true
  opens _ := some 0
  readlink _ := "/sys/1-1:1.0".toList
  printerId _ := none
  filled _ := true
  writes _ _ := true

/-- Another one in its place, on the same node. -/
def nextPrinter : World ℕ := { silentPrinter with opens := fun _ => some 1, printerId := fun _ => some "MFG:HP; mdl: HP LaserJet P1009 ;".toList }

def p1009Event : HotplugEvent := ⟨"bind".toList, "usb_interface".toList, "3f0/3e17/100".toList, "/1-1:1.0".toList⟩

theorem firmware_reaches_nextPrinter :
    Prepared 2 1 sharedFirmware [.opened 1 0, .opened 2 1, .queried 2 1 "MFG:HP; mdl: HP LaserJet P1009 ;".toList] ∧
      Unwritten [.opened 1 0, .opened 2 1, .queried 2 1 "MFG:HP; mdl: HP LaserJet P1009 ;".toList] :=
  have write : (firmwareJob p1009Event).emitted (startHelper p1009Event (fun _ => true) (some "07".toList))
      (List.replicate 9 silentPrinter ++ List.replicate 12 nextPrinter) =
        [.opened 1 0, .opened 2 1, .queried 2 1 "MFG:HP; mdl: HP LaserJet P1009 ;".toList] ++ [.wrote 2 1 sharedFirmware true] := by
    decide +kernel
  firmware_reaches_its_printer p1009Event (fun _ => true) (some "07".toList) _ write

end XWrt.P910nd
