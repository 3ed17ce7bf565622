import XWrt.Foundation.Chronicle
import XWrt.Fakemesh.SyncedWireless

/-!
# The worker that follows the controller

`agent_sync_config` fetches the controller's file again and again, takes it over
when it passes `validate_ac_config`, and counts in `lost_ac` the fetches that
fail. From three on it hands over to `agent_lost_ac`, which once sets up a
temporary LAN and starts the other worker again. A turn is one round of the loop,
or the start of a worker; a run is a chain of workers that start one another.
-/

namespace XWrt.Fakemesh

open XWrt.Foundation
open Text Shell Uci

/-! ## The device -/

/-- What the worker reads and does not change: `read` is what `uci` reads of a file, and `md5` what `md5sum` prints of a text. -/
structure SyncSetting where
  role : List Char
  devices : WifiDevices
  basicWpad : Bool
  md5 : List Char → List Char
  read : List Char → Option AcConfig

/-- What a turn may change. -/
structure SyncDevice where
  /-- `/tmp/fakemesh.ac.config` -/
  acConfig : List Char
  /-- `fakemesh.default.wifim_md5` -/
  wifimMd5 : List Char
  /-- `fakemesh.default.band_steer_helper` -/
  helper : Option (List Char)
  /-- `usteer.@usteer[0]` -/
  usteer : Option Uci.Section
  wireless : Config
  /-- the network is up with the settings of `agent_lost_ac` -/
  temporaryLan : Bool
  /-- the tables `brmeshfilters_…` -/
  meshFilters : Bool

/-- The commands for the workers. -/
inductive SyncWorker where
  | agentSyncConfig
  | agentLostAc
  deriving DecidableEq, Repr

/-- Where the chain stands. -/
inductive SyncPhase where
  | launched (worker : SyncWorker)
  /-- in the loop, with `validated_config` -/
  | syncing (validated : Bool)
  | ended
  deriving DecidableEq, Repr

/-- The chain of workers, with `lost_ac`. -/
structure SyncChain where
  phase : SyncPhase
  lostAc : ℕ
  device : SyncDevice

/-- What a turn meets. A file is what `cp` or `wget` leaves, if it succeeds. -/
structure SyncTurn where
  /-- the command passes the checks at its start, and gets its lock -/
  starts : Bool
  /-- `cp /etc/config/fakemesh` -/
  copied : Option (List Char)
  /-- the first `wget` -/
  downloaded : Option (List Char)
  /-- a gateway is there, and `wget` from it -/
  gateway : Option (List Char)
  /-- `wget` from `$achost` again -/
  retried : Option (List Char)
  /-- `worker_current` before and after the check of the file -/
  current : Bool
  stillCurrent : Bool
  /-- `mv` succeeds -/
  moved : Bool
  /-- the marker is there after a failure, after the settings, and at the end of the round -/
  markedFailed : Bool
  markedSet : Bool
  markedEnd : Bool
  /-- the address of the gateway is one of `br-lan` -/
  onBrLan : Bool

inductive SyncEvent where
  /-- `lost_ac=$((lost_ac+1))` -/
  | failed
  /-- `acip=$acip is setup on br-lan`: the interface is taken down and the network reloaded -/
  | reloaded
  /-- `invalid controller config, keeping current config` -/
  | refused
  | installed (file : List Char)
  /-- `uci commit usteer` and its reload -/
  | steered
  /-- `band_steer_helper_switch` -/
  | switched
  /-- `config change!`, with a reload of the network in the background -/
  | regenerated
  | setUpLan
  | recovered
  /-- `lost_ac=0` -/
  | completed
  deriving DecidableEq, Repr

/-- `LOST_AC_CNT` -/
def lostAcCnt : ℕ := 3

/-! ## A round -/

def controllerRole : List Char := "controller".toList

/-- The first attempt. -/
def SyncTurn.first (turn : SyncTurn) (role : List Char) : Option (List Char) :=
  if role = controllerRole then turn.copied <|> turn.downloaded else turn.downloaded

/-- The attempts after `lost_ac` is counted. -/
def SyncTurn.second (turn : SyncTurn) (role : List Char) : Option (List Char) :=
  if role = controllerRole then none else turn.gateway <|> turn.retried

/-- A reload brings the network up with the committed settings, without those of `agent_lost_ac`. -/
def SyncEvent.reloads (event : SyncEvent) : Bool := event = .reloaded || event = .regenerated

/-- What is done between the attempts. -/
def SyncTurn.lost (turn : SyncTurn) : List SyncEvent := if turn.onBrLan then [.failed, .reloaded] else [.failed]

def SyncTurn.afterLost (turn : SyncTurn) (device : SyncDevice) : SyncDevice :=
  { device with temporaryLan := device.temporaryLan && !turn.onBrLan }

def defaultName : List Char := "default".toList

/-- The options of usteer that follow the controller. -/
def steeringOptions : List String :=
  ["min_snr", "roam_trigger_snr", "roam_scan_snr", "min_connect_snr", "signal_diff_threshold", "load_kick_enabled"]

/-- `$(uci -q get usteer.@usteer[0].<option>)` -/
def usteerGet (usteer : Option Uci.Section) (option : String) : List Char := (usteer.map fun s => s.options.got option).getD []

/-- The commands that change usteer run. -/
def steers (config : AcConfig) (usteer : Option Uci.Section) : Bool :=
  config.acGet defaultName "min_snr" ≠ [] && steeringOptions.any fun option => usteerGet usteer option ≠ config.acGet defaultName option

/-- `#Dynamic usteer parameters synchronization` -/
def steer (config : AcConfig) (usteer : Option Uci.Section) : Option Uci.Section :=
  usteer.map fun s => s.setAll ((steeringOptions.map fun option => (option, config.acGet defaultName option)).filter fun entry => entry.2 ≠ [])

/-- `$oldbsh`, and `$newbsh` for the option of the controller -/
def shownHelper (helper : Option (List Char)) : List Char := (helper.map substitution).getD "none".toList

namespace SyncSetting

variable (setting : SyncSetting)

/-- `validate_ac_config` -/
def accepts (file : List Char) : Bool := (setting.read file).any AcConfig.validateAcConfig

def radios : Radios := setting.devices.radios setting.basicWpad

/-- `wireless_config_md5 "$role"` -/
def digest (config : AcConfig) : List Char := wirelessConfigMd5 setting.md5 setting.role config

/-- The settings that follow a file that is taken over. -/
def follow (config : AcConfig) (device : SyncDevice) : SyncDevice × List SyncEvent :=
  let steered := steers config device.usteer
  let newbsh := shownHelper (config.get defaultName "band_steer_helper")
  let switched : Bool := shownHelper device.helper ≠ newbsh
  let newcfgmd5 := setting.digest config
  let changed : Bool := device.wifimMd5 ≠ newcfgmd5
  ({ device with
      usteer := if steered then steer config device.usteer else device.usteer
      helper := if switched then (if newbsh = [] then none else some newbsh) else device.helper
      wireless := if changed then generate setting.role setting.radios config device.wireless else device.wireless
      wifimMd5 := if changed then newcfgmd5 else device.wifimMd5
      temporaryLan := device.temporaryLan && !changed },
    (if steered then [.steered] else []) ++ (if switched then [.switched] else []) ++ if changed then [.regenerated] else [])

/-- The round after the file is taken over. -/
def finishRound (turn : SyncTurn) (file : List Char) (lostAc : ℕ) (device : SyncDevice) : SyncChain × List SyncEvent :=
  let config := (setting.read file).getD ⟨[], List.nodup_nil⟩
  let (device, events) := setting.follow config { device with acConfig := file }
  if !turn.markedSet then (⟨.ended, lostAc, device⟩, .installed file :: events)
  else
    let recovers : Bool := lostAcCnt ≤ lostAc
    let device := if recovers then { device with temporaryLan := false, meshFilters := false } else device
    (⟨if turn.markedEnd then .syncing true else .ended, 0, device⟩,
      .installed file :: events ++ (if recovers then [.recovered] else []) ++ [.completed])

/-- The round once a file is fetched. -/
def takeOver (turn : SyncTurn) (validated : Bool) (file : List Char) (lostAc : ℕ) (device : SyncDevice) : SyncChain × List SyncEvent :=
  if !turn.current then (⟨.ended, lostAc, device⟩, [])
  else if (!validated || file ≠ device.acConfig) && !setting.accepts file then
    (⟨if turn.markedFailed then .syncing validated else .ended, lostAc, device⟩, [.refused])
  else if !turn.stillCurrent || !turn.moved then (⟨.ended, lostAc, device⟩, [])
  else setting.finishRound turn file lostAc device

/-- One round of the loop of `agent_sync_config`. -/
def round (turn : SyncTurn) (validated : Bool) (lostAc : ℕ) (device : SyncDevice) : SyncChain × List SyncEvent :=
  match turn.first setting.role with
  | some file => setting.takeOver turn validated file lostAc device
  | none =>
      let lostAc := lostAc + 1
      let device := turn.afterLost device
      match turn.second setting.role with
      | some file =>
          let (chain, events) := setting.takeOver turn validated file lostAc device
          (chain, turn.lost ++ events)
      | none =>
          if lostAcCnt ≤ lostAc then (⟨.launched .agentLostAc, lostAc, device⟩, turn.lost)
          else (⟨if turn.markedFailed then .syncing validated else .ended, lostAc, device⟩, turn.lost)

/-- `agent_lost_ac` -/
def lostTurn (lostAc : ℕ) (device : SyncDevice) : SyncChain × List SyncEvent :=
  if setting.role ≠ "agent".toList ∧ setting.role ≠ "wap".toList then (⟨.ended, lostAc, device⟩, [])
  else if lostAcCnt < lostAc then (⟨.launched .agentSyncConfig, lostAc, device⟩, [])
  else (⟨.launched .agentSyncConfig, lostAc, { device with temporaryLan := true, meshFilters := true }⟩, [.setUpLan])

/-- One turn of the chain. -/
def turn (chain : SyncChain) (turn : SyncTurn) : SyncChain × List SyncEvent :=
  match chain.phase with
  | .launched worker =>
      if !turn.starts then ({ chain with phase := .ended }, [])
      else
        match worker with
        | .agentSyncConfig => ({ chain with phase := .syncing false }, [])
        | .agentLostAc => setting.lostTurn chain.lostAc chain.device
  | .syncing validated => setting.round turn validated chain.lostAc chain.device
  | .ended => (chain, [])

def machine : Transducer SyncChain SyncTurn SyncEvent := ⟨setting.turn⟩

/-- The file that the chain has checked is one that it may take over. -/
def Checked (chain : SyncChain) : Prop := chain.phase = .syncing true → setting.accepts chain.device.acConfig = true

/-! ## What a turn can do -/

/-- A file that the turn has fetched, after so many failures and what is done then. -/
inductive Fetched (turn : SyncTurn) (file : List Char) (device : SyncDevice) : List SyncEvent → ℕ → SyncDevice → Prop where
  | first (here : turn.first setting.role = some file) : Fetched turn file device [] 0 device
  | second (here : turn.second setting.role = some file) : Fetched turn file device turn.lost 1 (turn.afterLost device)

/-- The outcomes of a turn: nothing is taken over, the temporary LAN is set up, or a file that is accepted is followed. -/
inductive Outcome (chain : SyncChain) (turn : SyncTurn) : SyncChain × List SyncEvent → Prop where
  | waits {phase : SyncPhase} {events : List SyncEvent} (kept : phase = .syncing true → chain.phase = .syncing true)
      (stays : phase ≠ .launched .agentLostAc) (known : events ∈ [[], [.refused]])
      (bad : .refused ∈ events → ∃ file, turn.first setting.role = some file ∧ setting.accepts file = false) :
      Outcome chain turn (⟨phase, chain.lostAc, chain.device⟩, events)
  | fails {phase : SyncPhase} {events : List SyncEvent} (kept : phase = .syncing true → chain.phase = .syncing true)
      (lost : phase = .launched .agentLostAc → lostAcCnt ≤ chain.lostAc + 1) (known : events ∈ [turn.lost, turn.lost ++ [.refused]])
      (bad : .refused ∈ events → ∃ file, turn.second setting.role = some file ∧ setting.accepts file = false) :
      Outcome chain turn (⟨phase, chain.lostAc + 1, turn.afterLost chain.device⟩, events)
  | setsUp (launched : chain.phase = .launched .agentLostAc) (few : chain.lostAc ≤ lostAcCnt) :
      Outcome chain turn (⟨.launched .agentSyncConfig, chain.lostAc, { chain.device with temporaryLan := true, meshFilters := true }⟩, [.setUpLan])
  | follows {file : List Char} {events : List SyncEvent} {failures : ℕ} {device : SyncDevice}
      (fetched : setting.Fetched turn file chain.device events failures device) (accepted : setting.accepts file = true) :
      Outcome chain turn ((setting.finishRound turn file (chain.lostAc + failures) device).1,
        events ++ (setting.finishRound turn file (chain.lostAc + failures) device).2)

end SyncSetting

section Turns

variable {setting : SyncSetting} {chain : SyncChain} {t : SyncTurn}

theorem eq_of_mem_lost {event : SyncEvent} (member : event ∈ t.lost) : event = .failed ∨ event = .reloaded := by
  rw [SyncTurn.lost] at member
  split at member
  next => simpa using member
  next => exact .inl (List.mem_singleton.mp member)

/-- What comes of a fetched file. -/
theorem takeOver_cases (validated : Bool) (file : List Char) (lostAc : ℕ) (device : SyncDevice)
    (checked : validated = true → setting.accepts device.acConfig = true) :
    (∃ phase events, (phase = .syncing true → validated = true) ∧ phase ≠ .launched .agentLostAc ∧ events ∈ [[], [SyncEvent.refused]] ∧
      (.refused ∈ events → setting.accepts file = false) ∧ setting.takeOver t validated file lostAc device = (⟨phase, lostAc, device⟩, events)) ∨
    setting.accepts file = true ∧ setting.takeOver t validated file lostAc device = setting.finishRound t file lostAc device := by
  rw [SyncSetting.takeOver]
  split
  next => exact .inl ⟨.ended, [], nofun, nofun, List.mem_cons_self, nofun, rfl⟩
  next =>
    split
    next refused =>
      rw [Bool.and_eq_true, Bool.not_eq_true'] at refused
      refine .inl ⟨_, _, ?_, ?_, List.mem_cons_of_mem _ List.mem_cons_self, fun _ => refused.2, rfl⟩
      · cases t.markedFailed with
        | true => exact fun same => SyncPhase.syncing.inj same
        | false => exact nofun
      · cases t.markedFailed with
        | true => exact nofun
        | false => exact nofun
    next passes =>
      split
      next => exact .inl ⟨.ended, [], nofun, nofun, List.mem_cons_self, nofun, rfl⟩
      next =>
        refine .inr ⟨?_, rfl⟩
        cases accepted : setting.accepts file with
        | true => rfl
        | false =>
            -- A file that is not checked is the one that was checked before.
            rw [accepted, Bool.not_false, Bool.and_true, Bool.or_eq_true, not_or, Bool.not_eq_true', Bool.not_eq_false, decide_eq_true_eq,
              not_not] at passes
            have before := checked passes.1
            rw [← passes.2, accepted] at before
            cases before

/-- A turn has one of the outcomes. -/
theorem turn_outcome (t : SyncTurn) (checked : setting.Checked chain) : setting.Outcome chain t (setting.turn chain t) := by
  rw [SyncSetting.turn]
  cases phase : chain.phase with
  | launched worker =>
      cases t.starts with
      | false => exact .waits nofun nofun List.mem_cons_self nofun
      | true =>
          cases worker with
          | agentSyncConfig => exact .waits nofun nofun List.mem_cons_self nofun
          | agentLostAc =>
              change setting.Outcome chain t (setting.lostTurn chain.lostAc chain.device)
              rw [SyncSetting.lostTurn]
              split
              next => exact .waits nofun nofun List.mem_cons_self nofun
              next =>
                split
                next => exact .waits nofun nofun List.mem_cons_self nofun
                next few => exact .setsUp phase (Nat.le_of_not_lt few)
  | syncing validated =>
      have own : validated = true → setting.accepts chain.device.acConfig = true := fun valid => checked (by rw [phase, valid])
      change setting.Outcome chain t (setting.round t validated chain.lostAc chain.device)
      rw [SyncSetting.round]
      cases first : t.first setting.role with
      | some file =>
          rcases takeOver_cases (t := t) validated file chain.lostAc chain.device own with ⟨next, events, kept, stays, known, bad, same⟩ | ⟨accepted, same⟩
          · simp only [same]
            exact .waits (fun valid => by rw [phase, kept valid]) stays known fun refused => ⟨file, first, bad refused⟩
          · simp only [same]
            exact .follows (.first first) accepted
      | none =>
          cases second : t.second setting.role with
          | some file =>
              rcases takeOver_cases (t := t) validated file (chain.lostAc + 1) (t.afterLost chain.device) own with
                ⟨next, events, kept, stays, known, bad, same⟩ | ⟨accepted, same⟩
              · simp only [same]
                refine .fails (fun valid => by rw [phase, kept valid]) (fun lost => absurd lost stays) ?_ fun refused => ?_
                · rcases List.mem_pair.mp known with rfl | rfl
                  · rw [List.append_nil]
                    exact List.mem_cons_self
                  · exact List.mem_cons_of_mem _ List.mem_cons_self
                · refine ⟨file, second, bad ((List.mem_append.mp refused).resolve_left fun lost => ?_)⟩
                  rcases eq_of_mem_lost lost with same | same <;> cases same
              · simp only [same]
                exact .follows (.second second) accepted
          | none =>
              have notRefused : SyncEvent.refused ∉ t.lost := fun refused => by
                rcases eq_of_mem_lost refused with same | same <;> cases same
              simp only
              split
              next many => exact .fails nofun (fun _ => many) List.mem_cons_self fun refused => absurd refused notRefused
              next =>
                cases t.markedFailed with
                | true =>
                    exact .fails (fun valid => by rw [phase, ← SyncPhase.syncing.inj valid]) nofun List.mem_cons_self
                      fun refused => absurd refused notRefused
                | false => exact .fails nofun nofun List.mem_cons_self fun refused => absurd refused notRefused
  | ended =>
      have same : (chain, ([] : List SyncEvent)) = (⟨.ended, chain.lostAc, chain.device⟩, []) := by rw [← phase]
      change setting.Outcome chain t (chain, [])
      rw [same]
      exact .waits nofun nofun List.mem_cons_self nofun

end Turns

/-! ## The round that follows a file -/

/-- The events that neither count nor end anything. -/
def SyncEvent.isPlain : SyncEvent → Bool
  | .reloaded | .refused | .installed _ | .steered | .switched | .regenerated => true
  | _ => false

section Follow

variable {setting : SyncSetting} (config : AcConfig) (device : SyncDevice)

/-- The digest is recorded in any case. -/
theorem follow_wifimMd5 : (setting.follow config device).1.wifimMd5 = setting.digest config := by
  rw [SyncSetting.follow]
  by_cases same : device.wifimMd5 = setting.digest config
  · simp only [same, ne_eq, not_true_eq_false, decide_false, Bool.false_eq_true, if_false]
  · simp only [same, ne_eq, not_false_eq_true, decide_true, if_true]

/-- The settings are generated again, or the digest was as it is. -/
theorem follow_wireless : (setting.follow config device).1.wireless = generate setting.role setting.radios config device.wireless ∨
    (setting.follow config device).1.wireless = device.wireless ∧ device.wifimMd5 = setting.digest config := by
  rw [SyncSetting.follow]
  by_cases same : device.wifimMd5 = setting.digest config
  · right
    simp only [same, ne_eq, not_true_eq_false, decide_false, Bool.false_eq_true, if_false, and_self]
  · left
    simp only [same, ne_eq, not_false_eq_true, decide_true, if_true]

/-- The LAN is given up when the settings are generated again. -/
theorem follow_temporaryLan : (setting.follow config device).1.temporaryLan =
    (device.temporaryLan && !(setting.follow config device).2.any SyncEvent.reloads) := by
  rw [SyncSetting.follow]
  simp only [List.any_append]
  have quiet (b : Bool) (event : SyncEvent) (other : event.reloads = false) : (if b then [event] else []).any SyncEvent.reloads = false := by
    cases b <;> simp [other]
  rw [quiet _ .steered rfl, quiet _ .switched rfl, Bool.false_or, Bool.false_or]
  cases decide (device.wifimMd5 ≠ setting.digest config) <;> rfl

theorem follow_events : ∀ event ∈ (setting.follow config device).2, event ∈ [SyncEvent.steered, .switched, .regenerated] := by
  intro event member
  rw [SyncSetting.follow, List.mem_append, List.mem_append] at member
  rcases member with (steered | switched) | changed
  · split at steered
    next => rw [List.mem_singleton.mp steered]; exact List.mem_cons_self
    next => cases steered
  · split at switched
    next => rw [List.mem_singleton.mp switched]; exact List.mem_cons_of_mem _ List.mem_cons_self
    next => cases switched
  · split at changed
    next => rw [List.mem_singleton.mp changed]; exact List.mem_cons_of_mem _ (List.mem_cons_of_mem _ List.mem_cons_self)
    next => cases changed

end Follow

section Rounds

variable {setting : SyncSetting} {file : List Char} {config : AcConfig} (t : SyncTurn) (lostAc : ℕ) (device : SyncDevice)

/-- The end of a round: the marker is gone, or the count starts again, after a recovery where the LAN was given up. -/
theorem finishRound_cases (here : setting.read file = some config) :
    setting.finishRound t file lostAc device =
        (⟨.ended, lostAc, (setting.follow config { device with acConfig := file }).1⟩,
          .installed file :: (setting.follow config { device with acConfig := file }).2) ∨
      ∃ phase ∈ [SyncPhase.syncing true, .ended],
        lostAcCnt ≤ lostAc ∧ setting.finishRound t file lostAc device =
            (⟨phase, 0, { (setting.follow config { device with acConfig := file }).1 with temporaryLan := false, meshFilters := false }⟩,
              .installed file :: (setting.follow config { device with acConfig := file }).2 ++ [.recovered] ++ [.completed]) ∨
          lostAc < lostAcCnt ∧ setting.finishRound t file lostAc device =
            (⟨phase, 0, (setting.follow config { device with acConfig := file }).1⟩,
              .installed file :: (setting.follow config { device with acConfig := file }).2 ++ [] ++ [.completed]) := by
  simp only [SyncSetting.finishRound, here, Option.getD_some]
  cases t.markedSet with
  | false => exact .inl rfl
  | true =>
      have phase : (if t.markedEnd then SyncPhase.syncing true else .ended) ∈ [SyncPhase.syncing true, .ended] := by
        split
        next => exact List.mem_cons_self
        next => exact List.mem_cons_of_mem _ List.mem_cons_self
      refine .inr ⟨_, phase, ?_⟩
      by_cases many : lostAcCnt ≤ lostAc
      · simp [many]
      · simp [many, Nat.lt_of_not_le many]

theorem exists_of_accepts (accepted : setting.accepts file = true) : ∃ config, setting.read file = some config ∧ config.validateAcConfig = true :=
  (Option.any_eq_true _ _).mp accepted

/-- The file that is installed is the one that was accepted. -/
theorem checked_finishRound (accepted : setting.accepts file = true) : setting.Checked (setting.finishRound t file lostAc device).1 := by
  obtain ⟨config, here, -⟩ := exists_of_accepts accepted
  intro _
  rcases finishRound_cases t lostAc device here with same | ⟨phase, -, ⟨-, same⟩ | ⟨-, same⟩⟩
  · rw [same]
    exact accepted
  · rw [same]
    exact accepted
  · rw [same]
    exact accepted

theorem checked_turn {chain : SyncChain} (t : SyncTurn) (checked : setting.Checked chain) : setting.Checked (setting.turn chain t).1 := by
  have outcome := turn_outcome t checked
  generalize setting.turn chain t = result at outcome
  cases outcome with
  | waits kept => exact fun valid => checked (kept valid)
  | fails kept => exact fun valid => checked (kept valid)
  | setsUp => exact nofun
  | follows fetched accepted => exact checked_finishRound t _ _ accepted

/-- What a round leaves of the settings. -/
theorem finishRound_device (here : setting.read file = some config) :
    (setting.finishRound t file lostAc device).1.device.wireless = (setting.follow config { device with acConfig := file }).1.wireless ∧
      (setting.finishRound t file lostAc device).1.device.wifimMd5 = setting.digest config ∧
      (setting.finishRound t file lostAc device).1.device.acConfig = file := by
  rcases finishRound_cases t lostAc device here with same | ⟨phase, -, ⟨-, same⟩ | ⟨-, same⟩⟩
  · rw [same]
    exact ⟨rfl, follow_wifimMd5 config _, rfl⟩
  · rw [same]
    exact ⟨rfl, follow_wifimMd5 config _, rfl⟩
  · rw [same]
    exact ⟨rfl, follow_wifimMd5 config _, rfl⟩

/-- A failure leaves the settings. -/
theorem SyncSetting.Fetched.settings {chain : SyncDevice} {events : List SyncEvent} {failures : ℕ} (fetched : setting.Fetched t file chain events failures device) :
    device.wireless = chain.wireless ∧ device.wifimMd5 = chain.wifimMd5 := by
  cases fetched with
  | first => exact ⟨rfl, rfl⟩
  | second => exact ⟨rfl, rfl⟩

/-- A round announces the file that it installs, and no other. -/
theorem installed_mem_finishRound (here : setting.read file = some config) (other : List Char) :
    .installed other ∈ (setting.finishRound t file lostAc device).2 ↔ other = file := by
  have settings : .installed other ∉ (setting.follow config { device with acConfig := file }).2 := by
    intro member
    have known := follow_events config _ _ member
    simp at known
  rcases finishRound_cases t lostAc device here with same | ⟨phase, -, ⟨-, same⟩ | ⟨-, same⟩⟩
  · rw [same, List.mem_cons, or_iff_left settings, SyncEvent.installed.injEq]
  · rw [same]
    simp [settings]
  · rw [same]
    simp [settings]

end Rounds

/-! ## Where the settings come from -/

/-- The access points are those of an accepted file that was installed, with its digest. -/
def SyncSetting.MadeFrom (setting : SyncSetting) (log : List SyncEvent) (device : SyncDevice) : Prop :=
  ∃ file config before, .installed file ∈ log ∧ setting.read file = some config ∧ config.validateAcConfig = true ∧
    device.wifimMd5 = setting.digest config ∧ device.wireless = generate setting.role setting.radios config before

/-- A chain after its log: what it has of the settings, and what it knows in the loop. -/
structure Sourced (setting : SyncSetting) (first : SyncDevice) (log : List SyncEvent) (chain : SyncChain) : Prop where
  checked : setting.Checked chain
  made : (chain.device.wireless = first.wireless ∧ chain.device.wifimMd5 = first.wifimMd5) ∨ setting.MadeFrom log chain.device
  digest : chain.phase = .syncing true → ∃ config, setting.read chain.device.acConfig = some config ∧ chain.device.wifimMd5 = setting.digest config

section Sources

variable {setting : SyncSetting} {first : SyncDevice} {log : List SyncEvent} {chain : SyncChain}

theorem SyncSetting.MadeFrom.append {device other : SyncDevice} (made : setting.MadeFrom log device) (events : List SyncEvent)
    (same : other.wireless = device.wireless ∧ other.wifimMd5 = device.wifimMd5) : setting.MadeFrom (log ++ events) other := by
  obtain ⟨file, config, before, installed, here, accepted, digest, wireless⟩ := made
  exact ⟨file, config, before, List.mem_append_left events installed, here, accepted, same.2.trans digest, same.1.trans wireless⟩

/-- A turn that leaves the settings. -/
theorem Sourced.keep (sourced : Sourced setting first log chain) {other : SyncChain} (events : List SyncEvent) (checked : setting.Checked other)
    (same : other.device.wireless = chain.device.wireless ∧ other.device.wifimMd5 = chain.device.wifimMd5)
    (digest : other.phase = .syncing true → ∃ config, setting.read other.device.acConfig = some config ∧ other.device.wifimMd5 = setting.digest config) :
    Sourced setting first (log ++ events) other where
  checked := checked
  made := sourced.made.imp (fun start => ⟨same.1.trans start.1, same.2.trans start.2⟩) fun made => made.append events same
  digest := digest

theorem sourced_turn (t : SyncTurn) (sourced : Sourced setting first log chain) :
    (∀ event ∈ (setting.turn chain t).2, ∀ file, event = .installed file → setting.accepts file = true) ∧
      Sourced setting first (log ++ (setting.turn chain t).2) (setting.turn chain t).1 := by
  have checked := checked_turn t sourced.checked
  have outcome := turn_outcome t sourced.checked
  generalize setting.turn chain t = result at outcome checked
  cases outcome with
  | waits kept stays known =>
      refine ⟨?_, sourced.keep _ checked ⟨rfl, rfl⟩ fun valid => sourced.digest (kept valid)⟩
      rintro event member file rfl
      rcases List.mem_pair.mp known with rfl | rfl
      · cases member
      · simp at member
  | fails kept lost known =>
      refine ⟨?_, sourced.keep _ checked ⟨rfl, rfl⟩ fun valid => sourced.digest (kept valid)⟩
      rintro event member file rfl
      have failure : SyncEvent.installed file ∈ t.lost := by
        rcases List.mem_pair.mp known with rfl | rfl
        · exact member
        · simpa using member
      rcases eq_of_mem_lost failure with same | same <;> cases same
  | setsUp launched few =>
      refine ⟨?_, sourced.keep _ checked ⟨rfl, rfl⟩ nofun⟩
      rintro event member file rfl
      simp at member
  | @follows file events failures device fetched accepted =>
      obtain ⟨config, here, valid⟩ := exists_of_accepts accepted
      obtain ⟨wireless, digest, installed⟩ := finishRound_device t (chain.lostAc + failures) device here
      have announced := installed_mem_finishRound t (chain.lostAc + failures) device here
      have before := fetched.settings
      constructor
      · rintro event member other rfl
        rcases List.mem_append.mp member with failure | round
        · cases fetched with
          | first => cases failure
          | second => rcases eq_of_mem_lost failure with same | same <;> cases same
        · rw [(announced other).mp round]
          exact accepted
      · rcases @follow_wireless setting config { device with acConfig := file } with made | ⟨same, unchanged⟩
        · refine ⟨checked, .inr ⟨file, config, device.wireless, ?_, here, valid, digest, wireless.trans made⟩, fun _ => ?_⟩
          · exact List.mem_append_right _ (List.mem_append_right _ ((announced file).mpr rfl))
          · exact ⟨config, by rw [installed, here], digest⟩
        · -- The digest is as before, and the settings with it.
          exact sourced.keep _ checked ⟨wireless.trans (same.trans before.1), digest.trans (unchanged.symm.trans before.2)⟩
            fun _ => ⟨config, by rw [installed, here], digest⟩

/-- Whatever the fetches bring: only accepted files are installed, the access points are those that the device had or those of such
a file, and in the loop the recorded digest is that of the file that is installed. -/
theorem settings_from_accepted (setting : SyncSetting) (lostAc : ℕ) (device : SyncDevice) (turns : List SyncTurn) :
    let start : SyncChain := ⟨.launched .agentSyncConfig, lostAc, device⟩
    let log := setting.machine.emitted start turns
    let chain := setting.machine.final start turns
    (∀ file, .installed file ∈ log → setting.accepts file = true) ∧
      ((chain.device.wireless = device.wireless ∧ chain.device.wifimMd5 = device.wifimMd5) ∨ setting.MadeFrom log chain.device) ∧
      (chain.phase = .syncing true → ∃ config, setting.read chain.device.acConfig = some config ∧ config.validateAcConfig = true ∧
        chain.device.wifimMd5 = setting.digest config) := by
  intro start log chain
  have first : Sourced setting device [] start := ⟨nofun, .inl ⟨rfl, rfl⟩, nofun⟩
  have keeps : ∀ log chain t, Sourced setting device log chain →
      Follows (fun _ event => ∀ file, event = .installed file → setting.accepts file = true) log (setting.turn chain t).2 ∧
        Sourced setting device (log ++ (setting.turn chain t).2) (setting.turn chain t).1 := by
    intro log chain t sourced
    have step := sourced_turn t sourced
    exact ⟨follows_of_forall fun event member _ => step.1 event member, step.2⟩
  obtain ⟨installed, sourced⟩ := setting.machine.chronicle_run first keeps turns
  refine ⟨fun file member => installed.of_mem _ member file rfl, sourced.made, fun valid => ?_⟩
  obtain ⟨config, here, digest⟩ := sourced.digest valid
  have accepted := sourced.checked valid
  rw [SyncSetting.accepts, here, Option.any_some] at accepted
  exact ⟨config, here, accepted, digest⟩

/-- Access points that are fit for their radios stay so, whatever the fetches bring. -/
theorem accessPoints_guarded (setting : SyncSetting) (lostAc : ℕ) (device : SyncDevice) (guarded : Guarded setting.devices device.wireless)
    (turns : List SyncTurn) :
    Guarded setting.devices (setting.machine.final ⟨.launched .agentSyncConfig, lostAc, device⟩ turns).device.wireless := by
  have keeps : ∀ (chain : SyncChain) (t : SyncTurn), setting.Checked chain ∧ Guarded setting.devices chain.device.wireless → True →
      setting.Checked (setting.turn chain t).1 ∧ Guarded setting.devices (setting.turn chain t).1.device.wireless := by
    intro chain t both _
    refine ⟨checked_turn t both.1, ?_⟩
    have outcome := turn_outcome t both.1
    generalize setting.turn chain t = result at outcome
    cases outcome with
    | waits => exact both.2
    | fails => exact both.2
    | setsUp => exact both.2
    | @follows file events failures device fetched accepted =>
        obtain ⟨config, here, valid⟩ := exists_of_accepts accepted
        have before : Guarded setting.devices device.wireless := by
          rw [fetched.settings.1]
          exact both.2
        rw [(finishRound_device t _ _ here).1]
        rcases @follow_wireless setting config { device with acConfig := file } with made | ⟨same, -⟩
        · rw [made]
          exact guarded_generate valid before
        · rw [same]
          exact before
  have first : setting.Checked ⟨.launched .agentSyncConfig, lostAc, device⟩ ∧ Guarded setting.devices device.wireless := ⟨nofun, guarded⟩
  have steps : setting.machine.AllSteps (fun _ _ => True) ⟨.launched .agentSyncConfig, lostAc, device⟩ turns := fun _ _ => trivial
  exact (setting.machine.final_invariant keeps first steps).2

end Sources

/-! ## An agent with a radio for 6 GHz -/

/-- The link of the mesh. -/
def meshLink : String × Uci.Section :=
  ("meshx0", ⟨wifiIfaceType, [("device", .option "radio0".toList), ("encryption", .option "owe".toList), ("ieee80211w", .option "2".toList)]⟩)

def sixGDevices : WifiDevices := ⟨[⟨"radio0".toList, "6g".toList, false⟩], List.nodup_singleton _⟩

/-- An agent for which `served` is the text of a good file, and any other text of none. -/
def agentSetting : SyncSetting where
  role := "agent".toList
  devices := sixGDevices
  basicWpad := true
  md5 text := text
  read file := if file = "served".toList then some (controllerFile "Test WiFi".toList "psk2".toList "test-password".toList) else none

def freshDevice : SyncDevice := ⟨[], [], none, none, [meshLink], false, false⟩

/-- A turn in which nothing is fetched. -/
def silentTurn : SyncTurn := ⟨true, none, none, none, none, true, true, true, true, true, true, false⟩

def servedTurn : SyncTurn := { silentTurn with downloaded := some "served".toList }

theorem accessPoints_guarded_served :
    Guarded sixGDevices (agentSetting.machine.final ⟨.launched .agentSyncConfig, 0, freshDevice⟩ [silentTurn, silentTurn, servedTurn]).device.wireless := by
  refine accessPoints_guarded agentSetting 0 freshDevice (List.forall_mem_singleton.mpr fun _ => ⟨?_, ?_⟩) _
  · intro _ _ _ _
    exact ⟨⟨"owe".toList, by decide, rfl⟩, rfl⟩
  · intro encryption keyed same
    have own : meshLink.2.options.lookup "encryption" = some (.option "owe".toList) := by rfl
    rw [own, Option.some.injEq, Value.option.injEq] at same
    rw [← same] at keyed
    exact absurd keyed (by decide)

end XWrt.Fakemesh
