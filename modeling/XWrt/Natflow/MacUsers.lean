import Mathlib.Data.Rat.Defs
import XWrt.Foundation.Double
import XWrt.Foundation.Grouping
import XWrt.Foundation.Text
import XWrt.Ipops.NetString

/-!
# Users by MAC

`get_mac_users` of `rpcd/luci.natflow`: the lines of the user list with the
fields they hold, and one entry for each MAC into which its lines are merged.
What comes from other files and services is given: host hints, the clients and
access points of the radios, and `luci.ip`, which may be missing. A Lua string is
a sequence of bytes, here one `Char` for each byte.
-/

namespace XWrt.Natflow.MacUsers

open XWrt.Foundation
open XWrt.Foundation.Grouping
open XWrt.Ipops (tonumber)

/-! ## Interfaces -/

def wirelessIfnamePrefixes : List String :=
  ["wlan", "wl", "phy", "ra", "rai", "rae", "apcli", "apclii", "apclie", "ath", "ap", "mon", "wds", "mesh", "sta", "bat"]

def vpnIfnamePrefixes : List String := ["tun", "tap", "wg", "pptp", "ppp", "tailscale", "zerotier", "zt", "natcap"]

/-- A name that starts with one of the texts, in any case. -/
def hasPrefix (prefixes : List String) (ifname : List Char) : Bool :=
  if ifname = [] then false else prefixes.any fun p => p.toList.isPrefixOf (ifname.map Char.toLower)

/-- `is_wireless_ifname` -/
def isWirelessIfname (ifname : List Char) : Bool := hasPrefix wirelessIfnamePrefixes ifname

/-- `is_mesh_ifname` -/
def isMeshIfname (ifname : List Char) : Bool := hasPrefix ["mesh"] ifname

/-- `is_vpn_ifname` -/
def isVpnIfname (ifname : List Char) : Bool := hasPrefix vpnIfnamePrefixes ifname

inductive AccessType where
  | wirelessMesh
  | wireless
  | vpn
  | wired
  deriving DecidableEq, Repr

/-- `get_access_type` -/
def getAccessType (ifname : List Char) : AccessType :=
  if isMeshIfname ifname then .wirelessMesh
  else if isWirelessIfname ifname then .wireless
  else if isVpnIfname ifname then .vpn
  else .wired

/-- The `wireless` table of an entry. -/
structure Wireless where
  ssid : List Char
  band : Option (List Char)
  signal : Option ℚ
  noise : Option ℚ
  quality : Option ℚ
  deriving DecidableEq

/-- A client that a radio reports. -/
structure WifiClient where
  ssid : List Char
  band : List Char
  signal : ℚ
  noise : ℚ
  quality : ℚ
  ifname : List Char

structure AccessPoint where
  ssid : List Char
  band : List Char

/-- What the lines are read with. The numbers of the two hexadecimal fields are whatever Lua reads from their texts. -/
structure Surroundings (Number : Type) where
  tonumber : List Char → Option Number
  luciIp : Option (List Char → Option (List Char))
  macToHost : List Char → Option (List Char)
  ipToHost : List Char → Option (List Char)
  wifiByIfnameMac : List Char → Option WifiClient
  wifiByMac : List Char → Option WifiClient
  wifiApsByIfname : List Char → Option AccessPoint

/-! ## Lines -/

inductive Counter where
  | rxPkts
  | rxBytes
  | txPkts
  | txBytes
  | rxSpeedPkts
  | rxSpeedBytes
  | txSpeedPkts
  | txSpeedBytes
  deriving DecidableEq, Repr

/-- The captures of the pattern. -/
structure Captures where
  ip : List Char
  mac : List Char
  authType : List Char
  authStatus : List Char
  ruleId : List Char
  idleTime : List Char
  counters : Counter → List Char
  ifname : List Char

/-- A capture `(x+)` before a character that is not an `x`: only the longest run can be followed by it. -/
def capture (single : Char → Bool) (close : Char) (text : List Char) : Option (List Char × List Char) :=
  match text.takeWhile single, text.dropWhile single with
  | first :: run, char :: rest => if char = close then some (first :: run, rest) else none
  | _, _ => none

/-- `line:match(...)` -/
def matchLine (line : List Char) : Option Captures := do
  let (ip, rest) ← capture (· ≠ ',') ',' line
  let (mac, rest) ← capture (· ≠ ',') ',' rest
  let (authType, rest) ← capture (· ≠ ',') ',' rest
  let (authStatus, rest) ← capture (· ≠ ',') ',' rest
  let (ruleId, rest) ← capture Char.isDigit ',' rest
  let (idleTime, rest) ← capture Char.isDigit ',' rest
  let (rxPkts, rest) ← capture Char.isDigit ':' rest
  let (rxBytes, rest) ← capture Char.isDigit ',' rest
  let (txPkts, rest) ← capture Char.isDigit ':' rest
  let (txBytes, rest) ← capture Char.isDigit ',' rest
  let (rxSpeedPkts, rest) ← capture Char.isDigit ':' rest
  let (rxSpeedBytes, rest) ← capture Char.isDigit ',' rest
  let (txSpeedPkts, rest) ← capture Char.isDigit ':' rest
  -- The last one may be followed by anything, and one comma is left out.
  let txSpeedBytes := rest.takeWhile Char.isDigit
  let rest := rest.dropWhile Char.isDigit
  let ifname := if rest.head? = some ',' then rest.tail else rest
  let counters : Counter → List Char := fun
    | .rxPkts => rxPkts
    | .rxBytes => rxBytes
    | .txPkts => txPkts
    | .txBytes => txBytes
    | .rxSpeedPkts => rxSpeedPkts
    | .rxSpeedBytes => rxSpeedBytes
    | .txSpeedPkts => txSpeedPkts
    | .txSpeedBytes => txSpeedBytes
  if txSpeedBytes = [] then none else some { ip, mac, authType, authStatus, ruleId, idleTime, counters, ifname }

variable {Number : Type} [DecidableEq Number] [OfNat Number 0] [OfNat Number 6]

/-- An accepted line. Its counters are kept as the numbers that their digits write. -/
structure UserLine (Number : Type) where
  ip : List Char
  isIpv6 : Bool
  mac : List Char
  authType : Number
  authStatus : Number
  ruleId : Double
  idleTime : Double
  count : Counter → ℕ
  ifname : List Char

/-- The number that Lua has for a counter. -/
def UserLine.counter (line : UserLine Number) (counter : Counter) : Double := .ofNat (line.count counter)

/-- `parse_hex` -/
def parseHex (env : Surroundings Number) (value : List Char) : Number := (env.tonumber value).getD 0

/-- An IPv6 address is rewritten where `luci.ip` is there and can read it. -/
def canonicalIp (env : Surroundings Number) (ip : List Char) : List Char :=
  if ':' ∈ ip then (env.luciIp.bind fun new => new ip).getD ip else ip

/-- What the loop reads from a line that it does not skip. -/
def acceptLine (env : Surroundings Number) (line : List Char) : Option (UserLine Number) :=
  match matchLine line with
  | none => none
  | some found =>
      if parseHex env found.authType = 0 then none
      else some
        { ip := canonicalIp env found.ip
          isIpv6 := ':' ∈ found.ip
          mac := found.mac
          authType := parseHex env found.authType
          authStatus := parseHex env found.authStatus
          ruleId := .ofNat (tonumber found.ruleId)
          idleTime := .ofNat (tonumber found.idleTime)
          count := fun counter => tonumber (found.counters counter)
          ifname := found.ifname }

/-! ## Entries -/

structure Entry (Number : Type) where
  mac : List Char
  ip : List (List Char)
  ip6 : List (List Char)
  hostname : List Char
  authType : Number
  status : Number
  hasBlocked : Bool
  ruleId : Double
  idleTime : Double
  counters : Counter → Double
  ifname : List Char

/-- The host name that is known for a line. -/
def hostHint (env : Surroundings Number) (line : UserLine Number) : List Char :=
  (env.macToHost (line.mac.map Char.toUpper) <|> env.ipToHost line.ip).getD []

/-- The entry of the first line of a MAC, without its address. -/
def newEntry (env : Surroundings Number) (line : UserLine Number) : Entry Number where
  mac := line.mac
  ip := []
  ip6 := []
  hostname := hostHint env line
  authType := line.authType
  status := line.authStatus
  hasBlocked := line.authStatus = 6
  ruleId := line.ruleId
  idleTime := line.idleTime
  counters := line.counter
  ifname := line.ifname

def Entry.takeHostname (entry : Entry Number) (hostname : List Char) : Entry Number :=
  if entry.hostname = [] then if hostname ≠ [] then { entry with hostname } else entry else entry

def Entry.takeIdle (entry : Entry Number) (line : UserLine Number) : Entry Number :=
  if line.idleTime < entry.idleTime then
    { entry with
      idleTime := line.idleTime
      authType := line.authType
      status := line.authStatus
      ruleId := line.ruleId
      ifname := if line.ifname ≠ [] then line.ifname else entry.ifname }
  else if entry.ifname = [] ∧ line.ifname ≠ [] then { entry with ifname := line.ifname }
  else entry

/-- A later line of the MAC, without its address. -/
def Entry.merge (env : Surroundings Number) (entry : Entry Number) (line : UserLine Number) : Entry Number :=
  let entry := (entry.takeHostname (hostHint env line)).takeIdle line
  { entry with
    hasBlocked := if line.authStatus = 6 then true else entry.hasBlocked
    counters := fun counter => (entry.counters counter).add (line.counter counter) }

/-- `target_ips` with an address. -/
def insertIp (ips : List (List Char)) (ip : List Char) : List (List Char) := if ip ∈ ips then ips else ips ++ [ip]

def Entry.addAddress (entry : Entry Number) (line : UserLine Number) : Entry Number :=
  if line.isIpv6 then { entry with ip6 := insertIp entry.ip6 line.ip } else { entry with ip := insertIp entry.ip line.ip }

/-- `users_map` after the lines, in the order of `users`. -/
def usersMap (env : Surroundings Number) (lines : List (UserLine Number)) : List (List Char × Entry Number) :=
  groups UserLine.mac (fun line => (newEntry env line).addAddress line)
    (fun entry line => (entry.merge env line).addAddress line) lines

/-- Where a client is: its interface, the `wireless` table and the access type. -/
structure Location where
  ifname : List Char
  wireless : Option Wireless
  accessType : AccessType
  deriving DecidableEq

/-- An entry as it is returned. -/
structure MacUser (Number : Type) extends Location where
  mac : List Char
  ip : List (List Char)
  ip6 : List (List Char)
  hostname : List Char
  authType : Number
  status : Number
  ruleId : Double
  idleTime : Double
  counters : Counter → Double

/-- The interface of an entry against what the radios report. -/
def locate (env : Surroundings Number) (mac ifname : List Char) : Location :=
  let macUpper := mac.map Char.toUpper
  let winfo := (if ifname ≠ [] then env.wifiByIfnameMac (ifname ++ ':' :: macUpper) else none) <|> env.wifiByMac macUpper
  match winfo with
  | some winfo =>
      let ifname := if ifname = [] ∨ ¬isWirelessIfname ifname then winfo.ifname else ifname
      ⟨ifname, some ⟨winfo.ssid, some winfo.band, some winfo.signal, some winfo.noise, some winfo.quality⟩, getAccessType ifname⟩
  | none =>
      let wireless := if isWirelessIfname ifname then
          match env.wifiApsByIfname ifname with
          | some ap => if ap.ssid ≠ [] then some ⟨ap.ssid, if ap.band ≠ [] then some ap.band else none, none, none, none⟩ else none
          | none => none
        else none
      ⟨ifname, wireless, getAccessType ifname⟩

/-- The last loop, for one entry. -/
def finish (env : Surroundings Number) (entry : Entry Number) : MacUser Number :=
  { locate env entry.mac entry.ifname with
    mac := entry.mac
    ip := entry.ip
    ip6 := entry.ip6
    hostname := entry.hostname
    authType := entry.authType
    status := if entry.hasBlocked then 6 else entry.status
    ruleId := entry.ruleId
    idleTime := entry.idleTime
    counters := entry.counters }

/-- `get_mac_users` on the lines that were read. -/
def getMacUsers (env : Surroundings Number) (lines : List (List Char)) : List (MacUser Number) :=
  (usersMap env (lines.filterMap (acceptLine env))).map fun (_, entry) => finish env entry

end XWrt.Natflow.MacUsers
