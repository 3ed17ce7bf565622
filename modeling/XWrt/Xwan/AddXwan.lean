import XWrt.Xwan.Pptpxwan

/-!
# Several interfaces on one device

`add_xwan` of `xwan`. The interface `wan` is copied under numbers with two
digits, the copies get macvlan devices, join the wan zone, and with load
balancing each has an interface and a member of `mwan3`. Sections are made where
they are missing. A digest of the configuration tells whether the ones of `mwan3`
are of this configuration.
-/

namespace XWrt.Xwan.AddXwan

open Foundation
open Foundation.Shell
open Foundation.Uci
open Pptpxwan (Packages interfaceType memberType policyType ruleType memberName)

/-- The options of a section `xwan`; the number is zero where there is none. The shell can hold the metrics. -/
structure XwanConfig where
  enabled : Text
  number : ℕ
  balanced : Text
  family : Text
  trackIp : Text
  small : 40 + number < 2 ^ 63

/-- The packages, and `$change`. -/
structure Run extends Packages where
  change : Bool

def deviceType : SectionType := ⟨"device".toList, by decide⟩

/-- `test -n "$text" && uci set …` -/
def whenGiven (text : Text) (entry : String × Text) : List (String × Text) := if text = [] then [] else [entry]

/-! ## Load balancing -/

/-- The options of an interface in front of `track_ip`, and behind it. -/
def stateOptions (family : Text) : List (String × Text) :=
  [("enabled", "1".toList)] ++ whenGiven family ("family", family) ++ [("initial_state", "online".toList)]

def trackOptions : List (String × Text) :=
  [("track_method", "ping".toList), ("reliability", "1".toList), ("count", "1".toList), ("size", "56".toList), ("max_ttl", "60".toList),
    ("check_quality", "0".toList), ("timeout", "2".toList), ("interval", "20".toList), ("failure_interval", "5".toList),
    ("recovery_interval", "5".toList), ("down", "3".toList), ("up", "3".toList)]

def memberOptions (intf : Text) : List (String × Text) := [("interface", intf), ("metric", "100".toList), ("weight", "100".toList)]

/-- `mwan3_add_one` -/
def mwan3AddOne (family : Text) (trackIps : List Text) (intf : Text) (mwan3 : Config) : Config :=
  let mwan3 := mwan3.create (String.ofList intf) interfaceType fun s =>
    (((s.setAll (stateOptions family)).delete "track_ip").addAll "track_ip" trackIps).setAll trackOptions
  let mwan3 := mwan3.create (String.ofList (memberName intf)) memberType fun s => s.setAll (memberOptions intf)
  mwan3.edit "balanced" fun s => s.addList "use_member" (memberName intf)

/-- `uci get mwan3.$intf || { mwan3_add_one $intf; change=1; }` -/
def addMissing (family : Text) (trackIps : List Text) (intf : Text) (run : Run) : Run :=
  if run.mwan3.has (String.ofList intf) then run
  else { run with mwan3 := mwan3AddOne family trackIps intf run.mwan3, change := true }

def httpsOptions : List (String × Text) :=
  [("sticky", "1".toList), ("dest_port", "443".toList), ("proto", "tcp".toList), ("use_policy", "balanced".toList)]

def defaultOptions (destIp family : Text) : List (String × Text) :=
  [("dest_ip", destIp), ("use_policy", "balanced".toList), ("family", family)]

/-- The rules that are made when `https` is missing. -/
def addRules (mwan3 : Config) : Config :=
  let mwan3 := mwan3.create "https" ruleType fun s => s.setAll httpsOptions
  let mwan3 := mwan3.create "default_rule_v4" ruleType fun s => s.setAll (defaultOptions "0.0.0.0/0".toList "ipv4".toList)
  mwan3.create "default_rule_v6" ruleType fun s => s.setAll (defaultOptions "::/0".toList "ipv6".toList)

/-- The policy without members. -/
def newBalanced (mwan3 : Config) : Config :=
  (mwan3.deleteSection "balanced").create "balanced" policyType fun s => s.setAll [("last_resort", "unreachable".toList)]

/-- What is balanced before the loop. -/
def startBalanced (trackIps : List Text) (run : Run) : Run :=
  let run := addMissing [] trackIps "wan".toList { run with mwan3 := newBalanced run.mwan3 }
  if run.mwan3.has "https" then run else { run with mwan3 := addRules run.mwan3 }

/-! ## Copies of the interface -/

/-- A text as `uci show` prints it. -/
def quoted (text : Text) : Text := '\'' :: text.flatMap (fun char => if char = '\'' then "'\\''".toList else [char]) ++ ['\'']

def shown : Uci.Value → Text
  | .option text => quoted text
  | .list items => [' '].intercalate (items.map quoted)

/-- `uci show network.wan` -/
def showWan (wan : Section) : Text :=
  "network.wan=".toList ++ wan.type.text ++ '\n' ::
    wan.options.flatMap fun entry => "network.wan.".toList ++ entry.1.toList ++ '=' :: shown entry.2 ++ ['\n']

/-- `sed "s/^network\.wan\.//g;s/=/ /;s,',,g"` -/
def sedLine (line : Text) : Text :=
  let line := if "network.wan.".toList <+: line then line.drop 12 else line
  let line := line.takeWhile (· ≠ '=') ++ match line.dropWhile (· ≠ '=') with
    | [] => []
    | _ :: rest => ' ' :: rest
  line.filter (· ≠ '\'')

/-- `uci show network.wan | grep "network\.wan\." | sed …` -/
def wanLines (wan : Section) : Text :=
  (((showWan wan).splitOn '\n').filter fun line => "network.wan.".toList <:+: line).flatMap fun line => sedLine line ++ ['\n']

/-- The lines of `read`: a backslash takes the next character as it is, or goes on with the next line. -/
def readLines (line : List (Char × Bool)) : Text → List (List (Char × Bool))
  | [] => []
  | '\\' :: '\n' :: rest => readLines line rest
  | '\\' :: char :: rest => readLines (line ++ [(char, true)]) rest
  | '\n' :: rest => line :: readLines [] rest
  | char :: rest => readLines (line ++ [(char, false)]) rest

/-- `read _k _v` of one line -/
def readPair (line : List (Char × Bool)) : Text × Text :=
  let cuts : Char × Bool → Bool := fun char => !char.2 && isBlank char.1
  let line := line.dropWhile cuts
  let rest := (line.dropWhile fun char => !cuts char).dropWhile cuts
  ((line.takeWhile fun char => !cuts char).map Prod.fst, (rest.rdropWhile cuts).map Prod.fst)

instance (text : Text) : Decidable (IsName text) := inferInstanceAs (Decidable (_ ∧ _))

/-- `uci set network.xwan$idx.$_k="$_v"`, which fails where this names no option -/
def setPair (pair : Text × Text) (s : Section) : Section :=
  let argument := pair.1 ++ '=' :: pair.2
  let option := argument.takeWhile (· ≠ '=')
  if IsName option then s.set (String.ofList option) ((argument.dropWhile (· ≠ '=')).drop 1) else s

/-- The options of `network.wan` -/
def copyWan (wan : Option Section) (s : Section) : Section :=
  match wan with
  | some wan => (readLines [] (wanLines wan)).foldl (fun s line => setPair (readPair line) s) s
  | none => s

/-- `mvlan$idx` -/
def mvlanName (id : ℕ) : Text := "mvlan".toList ++ printf 2 id

def deviceOptions (device ifname : Text) (id : ℕ) : List (String × Text) :=
  whenGiven device ("ifname", device) ++ whenGiven ifname ("ifname", ifname) ++
    [("type", "macvlan".toList), ("mode", "vepa".toList), ("name", mvlanName id)]

def addDevice (device ifname : Text) (id : ℕ) (run : Run) : Run :=
  if run.network.has (deviceKey 2 id) then run
  else { run with
    network := run.network.create (deviceKey 2 id) deviceType fun s => s.setAll (deviceOptions device ifname id)
    change := true }

def interfaceOptions (device ifname proto : Text) (id : ℕ) : List (String × Text) :=
  whenGiven device ("device", mvlanName id) ++ whenGiven ifname ("ifname", mvlanName id) ++ [("metric", Nat.toDigits 10 (40 + id))] ++
    if proto = "static".toList then [("auto", "0".toList)] else []

def addInterface (device ifname : Text) (id : ℕ) (run : Run) : Run :=
  if run.network.has (xwanKey 2 id) then run
  else { run with
    network := run.network.create (xwanKey 2 id) interfaceType fun s =>
      (copyWan (run.network.lookup "wan") s).setAll (interfaceOptions device ifname ((run.network.options "wan").got "proto") id)
    change := true }

def setMetric (run : Run) : Run :=
  if ((run.network.options "wan").lookup "metric").isSome then run
  else { run with network := run.network.edit "wan" fun s => s.set "metric" "40".toList, change := true }

/-! ## A run -/

section Program

-- `glob` gives the names that a word stands for, and `digest` is that of `uci show xwan`.
variable (glob : Text → List Text) (digest : Text) (config : XwanConfig)

/-- `$track_ip` in a loop -/
def trackIps : List Text := (fields config.trackIp).flatMap glob

/-- One turn of the loop. -/
def turn (device ifname : Text) (run : Run) (id : ℕ) : Run :=
  let run := addInterface device ifname id (addDevice device ifname id run)
  let run := { run with firewall := run.firewall.editFirst isWanZone (addToZoneWan glob (xwanName 2 id)) }
  if config.balanced = "1".toList then addMissing config.family (trackIps glob config) (xwanName 2 id) run else run

def addAll (device ifname : Text) (run : Run) : Run :=
  let run := setMetric run
  let run := if config.balanced = "1".toList then startBalanced (trackIps glob config) run else run
  (List.range' 1 (config.number - 1)).foldl (turn glob config device ifname) run

/-- `#clean up firewall` and `#clean up`, where a turn that finds a section deletes it -/
def cleanUp (run : Run) : Run :=
  let network := cleanNetwork 2 config.number run.network
  { run with
    firewall := run.firewall.editFirst isWanZone (cleanZoneWan glob 2 config.number)
    network := network
    change := run.change || network ≠ run.network }

/-- `$xwan_old` -/
def storedDigest (mwan3 : Config) : Text := (mwan3.options "globals").got "xwan_md5"

/-- The sections of another configuration are deleted. -/
def renew (packages : Packages) : Run :=
  if digest = storedDigest packages.mwan3 then ⟨packages, false⟩
  else ⟨{ packages with mwan3 := ((packages.mwan3.deleteType interfaceType).deleteType memberType).deleteType policyType }, true⟩

/-- `add_xwan` -/
def addXwan (packages : Packages) : Packages :=
  if config.enabled ≠ "1".toList then packages
  else
    let run := renew digest packages
    let device := (run.network.options "wan").got "device"
    let ifname := (run.network.options "wan").got "ifname"
    let run := if 1 ≤ config.number ∧ device ++ ifname ≠ [] then addAll glob config device ifname run else run
    let run := cleanUp glob config run
    if run.change then { run.toPackages with mwan3 := run.mwan3.edit "globals" fun s => s.set "xwan_md5" digest } else run.toPackages

end Program

end XWrt.Xwan.AddXwan
