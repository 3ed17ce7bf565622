import XWrt.Fakemesh.SyncRuns

/-!
# A file that does not change

Once a round has followed a file to its end, later rounds with the same file do
nothing to the settings, also after failures, through the temporary LAN and in
the workers that follow. The options of usteer that the file leaves empty have to
be empty on the device: an option that the file lacks is never taken away, and
usteer is reloaded in every round.
-/

namespace XWrt.Fakemesh

open XWrt.Foundation
open Text Shell Uci

/-- Nothing is left to do for a file. -/
structure Steady (setting : SyncSetting) (file : List Char) (config : AcConfig) (device : SyncDevice) : Prop where
  installed : device.acConfig = file
  digest : device.wifimMd5 = setting.digest config
  helper : shownHelper device.helper = shownHelper (config.get defaultName "band_steer_helper")
  steering : steers config device.usteer = false

/-- The settings that follow the controller. -/
def SyncDevice.followed (device : SyncDevice) : List Char × List Char × Option (List Char) × Option Uci.Section × Config :=
  (device.acConfig, device.wifimMd5, device.helper, device.usteer, device.wireless)

/-- The events that change none of them. -/
def SyncEvent.leaves (file : List Char) (event : SyncEvent) : Prop :=
  event ∈ [.failed, .reloaded, .installed file, .setUpLan, .recovered, .completed]

section Steering

variable {config : AcConfig} {usteer : Option Uci.Section}

end Steering

section Steadiness

variable {setting : SyncSetting} {file : List Char} {config : AcConfig} {device : SyncDevice}

variable {chain : SyncChain}

end Steadiness

end XWrt.Fakemesh
