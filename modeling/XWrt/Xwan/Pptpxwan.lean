import XWrt.Ipops.NetForms
import XWrt.Xwan.CleanNetwork

/-!
# PPTP lines

`start` of `pptpxwan`. For every line of the configuration it makes an interface,
puts it into the wan zone, and gives it an interface, a member, a policy and a
rule of `mwan3`; the lines are numbered from zero with three digits. What an
earlier configuration left is deleted, recreated or filtered.
-/

namespace XWrt.Xwan.Pptpxwan

open Foundation
open Foundation.Shell
open Foundation.Uci

/-! ## Configurations -/

/-- `pptpxwan`: the options of `pptp` and of the sections `line`. -/
structure PptpxwanConfig where
  pptp : Options
  lines : List Options

/-- The packages that a start writes, with their changes. -/
structure Packages where
  network : Config
  firewall : Config
  mwan3 : Config

/-- `config_get` -/
def configGet (options : Options) (option : String) : Text := ((options.lookup option).map Value.printed).getD []

/-- `$(uci get … || echo 0)` -/
def gotOrZero (options : Options) (option : String) : Text := ((options.lookup option).map Value.got).getD ['0']

def interfaceType : SectionType := ⟨"interface".toList, by decide⟩

def memberType : SectionType := ⟨"member".toList, by decide⟩

def policyType : SectionType := ⟨"policy".toList, by decide⟩

def ruleType : SectionType := ⟨"rule".toList, by decide⟩

/-! ## The program -/

section Program

-- `glob` gives the names that a word stands for.
variable (glob : Text → List Text)

/-- What stands behind the name of an interface in the names of its member and its policy, and before it in that of its rule. -/
def memberName (intf : Text) : Text := intf ++ "_m100_w100".toList

def policyName (intf : Text) : Text := intf ++ "_only".toList

def ruleName (intf : Text) : Text := "line_".toList ++ intf

/-- The options of the interface in `mwan3`. -/
def interfaceOptions : List (String × Text) :=
  [("enabled", "1".toList), ("initial_state", "online".toList), ("family", "ipv4".toList), ("track_method", "ping".toList),
    ("reliability", "1".toList), ("count", "1".toList), ("size", "56".toList), ("max_ttl", "60".toList), ("check_quality", "0".toList),
    ("timeout", "2".toList), ("interval", "20".toList), ("failure_interval", "5".toList), ("recovery_interval", "5".toList),
    ("down", "3".toList), ("up", "3".toList)]

/-- `cache_mwan3_add_one` -/
def cacheMwan3AddOne (intf srcNet dstNet : Text) (trackIps : List Text) (mwan3 : Config) : Config :=
  let interface := String.ofList intf
  let member := String.ofList (memberName intf)
  let policy := String.ofList (policyName intf)
  let rule := String.ofList (ruleName intf)
  let mwan3 := (mwan3.deleteSection interface).create interface interfaceType fun s =>
    ((s.setAll interfaceOptions).delete "track_ip").addAll "track_ip" trackIps
  let mwan3 := mwan3.create member memberType fun s => s.setAll [("interface", intf), ("metric", "100".toList), ("weight", "100".toList)]
  let mwan3 := mwan3.create policy policyType fun s =>
    ((s.setAll [("last_resort", "unreachable".toList)]).delete "use_member").addAll "use_member" [memberName intf]
  mwan3.create rule ruleType fun s =>
    s.setAll ([("family", "ipv4".toList), ("src_ip", srcNet)] ++ (if dstNet = [] then [] else [("dest_ip", dstNet)]) ++
      [("proto", "all".toList), ("sticky", "0".toList), ("use_policy", policyName intf)])

/-- `$(lua /usr/lib/lua/ipops.lua netStrings2ipcidrStrings "$nets")`; it may not end. -/
def ipcidrs (fuel : ℕ) (nets : Text) : Option Text :=
  (Ipops.netStrings2ipcidrStrings fuel (String.ofList nets)).map fun line => substitution ([','].intercalate (line.map String.toList) ++ ['\n'])

/-- The options of the interface in `network`. -/
def networkOptions (pptp line : Options) (lineIdx : ℕ) : List (String × Text) :=
  [("proto", "pptp".toList), ("server", configGet line "pptp_server"), ("username", configGet line "username"),
    ("password", configGet line "password"), ("metric", Nat.toDigits 10 (900 + lineIdx)), ("auto", "1".toList), ("ipv6", "0".toList),
    ("keepalive", "5 10".toList)] ++
    if gotOrZero pptp "mtu" = ['0'] then [] else [("mtu", gotOrZero pptp "mtu")]

/-- `$track_ips` in a loop -/
def trackIps (pptp : Options) : List Text := (fields (pptp.got "track_ip")).flatMap glob

/-- `cache_add_pptpxwan_line`, with the networks as `ipops.lua` prints them -/
def addLine (pptp line : Options) (srcNet dstNet : Text) (lineIdx : ℕ) (packages : Packages) : Packages where
  network := (packages.network.deleteSection (xwanKey 3 lineIdx)).create (xwanKey 3 lineIdx) interfaceType fun s =>
    s.setAll (networkOptions pptp line lineIdx)
  firewall := packages.firewall.editFirst isWanZone (addToZoneWan glob (xwanName 3 lineIdx))
  mwan3 := cacheMwan3AddOne (xwanName 3 lineIdx) srcNet dstNet (trackIps glob pptp) packages.mwan3

/-- `config_foreach cache_add_pptpxwan_line line` -/
def addLines (fuel : ℕ) (pptp : Options) : ℕ → List Options → Packages → Option Packages
  | _, [], packages => some packages
  | lineIdx, line :: lines, packages => do
      let srcNet ← ipcidrs fuel (configGet line "src_net")
      let dstNet ← ipcidrs fuel (configGet line "dst_net")
      addLines fuel pptp (lineIdx + 1) lines (addLine glob pptp line srcNet dstNet lineIdx packages)

def greKey : String := "pptpxwan_gre"

def greOptions : List (String × Text) :=
  [("enabled", "1".toList), ("target", "ACCEPT".toList), ("src", "wan".toList), ("name", "gre".toList), ("proto", "gre".toList)]

/-- The loops that delete the first section of a type. -/
def deleteLines (mwan3 : Config) : Config := (((mwan3.deleteType interfaceType).deleteType memberType).deleteType policyType).deleteType ruleType

/-- `start` -/
def start (fuel : ℕ) (config : PptpxwanConfig) (packages : Packages) : Option Packages :=
  if gotOrZero config.pptp "enable" ≠ "1".toList then some packages
  else do
    let packages := { packages with mwan3 := deleteLines packages.mwan3, firewall := packages.firewall.deleteSection greKey }
    let packages ← addLines glob fuel config.pptp 0 config.lines packages
    let firewall := (packages.firewall.deleteSection greKey).create greKey ruleType fun s => s.setAll greOptions
    some { packages with
      firewall := firewall.editFirst isWanZone (cleanZoneWan glob 3 config.lines.length)
      network := cleanNetwork 3 config.lines.length packages.network }

/-- One start after another, each with its configuration. -/
def starts (fuel : ℕ) : List PptpxwanConfig → Packages → Option Packages
  | [], packages => some packages
  | config :: configs, packages => do
      let packages ← start glob fuel config packages
      starts fuel configs packages

end Program

end XWrt.Xwan.Pptpxwan
