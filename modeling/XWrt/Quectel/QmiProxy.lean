import Mathlib.Data.List.Basic
import Mathlib.Data.List.Nodup
import XWrt.Foundation.Transducer

/-!
# The QMI proxy

The loop of `quectel-qmi-proxy.c`. Several programs talk to one modem over a
local socket. Control requests wait in `ctlMsg`, and the modem is given one at a
time. Answers that allot a client id are noted with the connection that asked,
and service messages go to the connections that hold the id they carry.

Every frame is read into one static buffer, so the fields behind the end of a
short frame are those of an earlier one.
-/

namespace XWrt.Quectel.QmiProxy

open XWrt.Foundation

/-! ## Frames -/

/-- The byte of the buffer at an offset. -/
def byteAt (qmi : List UInt8) (offset : ℕ) : UInt8 := qmi.getD offset 0

/-- `le16toh` of the two bytes at an offset. -/
def le16 (qmi : List UInt8) (offset : ℕ) : ℕ :=
  (byteAt qmi offset).toNat + 256 * (byteAt qmi (offset + 1)).toNat

def length (qmi : List UInt8) : ℕ := le16 qmi 1
def qmiType (qmi : List UInt8) : UInt8 := byteAt qmi 4
def clientId (qmi : List UInt8) : UInt8 := byteAt qmi 5
def ctlFlags (qmi : List UInt8) : UInt8 := byteAt qmi 6
def qmictlType (qmi : List UInt8) : ℕ := le16 qmi 8
def qmiResult (qmi : List UInt8) : ℕ := le16 qmi 15
def qmiError (qmi : List UInt8) : ℕ := le16 qmi 17

/-- The service of the client id in an answer to `QMICTL_GET_CLIENT_ID`. -/
def allottedType (qmi : List UInt8) : UInt8 := byteAt qmi 22
def allottedId (qmi : List UInt8) : UInt8 := byteAt qmi 23

def QMUX_TYPE_CTL : UInt8 := 0x00
def QMICTL_CTL_FLAG_RSP : UInt8 := 0x01
def QMICTL_GET_CLIENT_ID_RESP : ℕ := 0x0022
def QMICTL_RELEASE_CLIENT_ID_RESP : ℕ := 0x0023
def QMICTL_REVOKE_CLIENT_ID_IND : ℕ := 0x0024
def QMICTL_SYNC_REQ : ℕ := 0x0027

/-- What is to be written of the frame at the start of the buffer. -/
def frame (qmi : List UInt8) : List UInt8 := qmi.take (length qmi + 1)

/-! ## The state -/

/-- `QMI_PROXY_CLINET`: a client id of a service. -/
structure Client where
  qmiType : UInt8
  clientId : UInt8
deriving DecidableEq, Repr

/-- `QMI_PROXY_CONNECTION` -/
structure Connection where
  clientFd : ℤ
  clients : List Client
deriving DecidableEq, Repr

/-- `QMI_PROXY_MSG`: a control request and the connection it came from. -/
structure ProxyMsg where
  clientFd : ℤ
  qmi : List UInt8
deriving DecidableEq, Repr

structure Proxy where
  serverFd : ℤ
  connections : List Connection
  ctlMsg : List ProxyMsg
  modemResetFlag : Bool
  syncDone : Bool
  qmiBuf : List UInt8
  looping : Bool
deriving DecidableEq, Repr

/-- What the proxy sets out to do to its descriptors. A frame is skipped where the
descriptor takes nothing for five seconds, and a `write` may fail or be short; the
proxy does not look at it, so nothing that it does later depends on it. -/
inductive Sent where
  | toCdcWdm (qmi : List UInt8)
  | toClient (qmi : List UInt8) (clientFd : ℤ)
  | close (clientFd : ℤ)
deriving DecidableEq, Repr

/-- What one descriptor of a `poll` reports. An empty read is the end of the
connection or an error. -/
inductive Ready where
  | server (clientFd : ℤ)
  | device (data : List UInt8)
  | client (fd : ℤ) (data : List UInt8)
  | hangup (fd : ℤ)
  | deviceGone
deriving DecidableEq, Repr

/-! ## Connections -/

def acceptQmiConnection (s : Proxy) (clientFd : ℤ) : Proxy :=
  { s with connections := s.connections ++ [⟨clientFd, []⟩] }

/-- Only the first control request of the connection is taken out of the queue. -/
def cleanupQmiConnection (s : Proxy) (fd : ℤ) : Proxy × List Sent :=
  if s.connections.any (·.clientFd == fd) then
    ({ s with
        ctlMsg := s.ctlMsg.eraseP (·.clientFd == fd)
        connections := s.connections.eraseP (·.clientFd == fd) }, [.close fd])
  else (s, [])

def getClientId (con : Connection) (qmi : List UInt8) : Connection :=
  if qmiResult qmi = 0 ∧ qmiError qmi = 0 then
    { con with clients := con.clients ++ [⟨allottedType qmi, allottedId qmi⟩] }
  else con

def releaseClientId (con : Connection) (qmi : List UInt8) : Connection :=
  if qmiResult qmi = 0 ∧ qmiError qmi = 0 then
    { con with clients := con.clients.erase ⟨allottedType qmi, allottedId qmi⟩ }
  else con

/-- What an answer changes at the connection it is for. -/
def noteAnswer (qmi : List UInt8) (con : Connection) : Connection :=
  if qmictlType qmi = QMICTL_GET_CLIENT_ID_RESP then getClientId con qmi
  else if qmictlType qmi = QMICTL_RELEASE_CLIENT_ID_RESP ∨
      qmictlType qmi = QMICTL_REVOKE_CLIENT_ID_IND then releaseClientId con qmi
  else con

/-! ## Messages -/

/-- The modem answered: the request at the head of the queue is done. -/
def recvControlAnswer (s : Proxy) (qmi : List UInt8) : Proxy × List Sent :=
  match s.ctlMsg with
  | [] => (s, [])
  | msg :: rest =>
      ({ s with
          ctlMsg := rest
          connections := s.connections.map fun con =>
            if con.clientFd = msg.clientFd then noteAnswer qmi con else con
          modemResetFlag := s.modemResetFlag ||
            (s.connections.any (·.clientFd == msg.clientFd) &&
              qmictlType qmi == QMICTL_REVOKE_CLIENT_ID_IND) },
        (s.connections.filter (·.clientFd == msg.clientFd)).map fun con =>
          .toClient (frame qmi) con.clientFd)

/-- The request at the head of the queue goes to the modem. -/
def sendHead (s : Proxy) : List Sent :=
  match s.ctlMsg with
  | [] => []
  | msg :: _ =>
      (s.connections.filter (·.clientFd == msg.clientFd)).map fun _ => .toCdcWdm msg.qmi

/-- The messages of a service go to the connections with a client of it. -/
def passOn (s : Proxy) (qmi : List UInt8) : List Sent :=
  s.connections.flatMap fun con =>
    (con.clients.filter fun client =>
      qmiType qmi == client.qmiType &&
        (clientId qmi == 0 || clientId qmi == client.clientId)).map fun _ =>
      .toClient (frame qmi) con.clientFd

def recvQmiFromDev (s : Proxy) (qmi : List UInt8) : Proxy × List Sent :=
  if s.serverFd = -1 then ({ s with syncDone := true }, [])
  else if qmiType qmi = QMUX_TYPE_CTL then
    let answered := if ctlFlags qmi = QMICTL_CTL_FLAG_RSP then recvControlAnswer s qmi else (s, [])
    (answered.1, answered.2 ++ sendHead answered.1)
  else (s, passOn s qmi)

def recvQmiFromClient (s : Proxy) (qmi : List UInt8) (size : ℕ) (fd : ℤ) : Proxy × List Sent :=
  if s.serverFd ≤ 0 then (s, [.toCdcWdm (frame qmi)])
  else if qmiType qmi = QMUX_TYPE_CTL then
    if qmictlType qmi = QMICTL_SYNC_REQ then (s, [])
    else
      ({ s with ctlMsg := s.ctlMsg ++ [⟨fd, qmi.take size⟩] },
        if s.ctlMsg.isEmpty then [.toCdcWdm (frame qmi)] else [])
  else (s, [.toCdcWdm (frame qmi)])

/-! ## The loop -/

/-- The buffer after a `read` of some bytes. -/
def received (s : Proxy) (data : List UInt8) : List UInt8 := data ++ s.qmiBuf.drop data.length

/-- A frame says how long it is. -/
def complete (qmi data : List UInt8) : Bool := data.length == length qmi + 1

/-- `qmi_proxy_loop_exit`: the connections are closed from the head on. -/
def cleanupAll : ℕ → Proxy → Proxy × List Sent
  | 0, s => (s, [])
  | n + 1, s =>
      match s.connections with
      | [] => (s, [])
      | con :: _ =>
          let one := cleanupQmiConnection s con.clientFd
          let rest := cleanupAll n one.1
          (rest.1, one.2 ++ rest.2)

def exitLoop (s : Proxy) : Proxy × List Sent :=
  let closed := cleanupAll s.connections.length s
  ({ closed.1 with looping := false }, closed.2)

def fromDevice (s : Proxy) (data : List UInt8) : Proxy × List Sent :=
  match data with
  | [] => exitLoop s
  | _ :: _ =>
      let qmi := received s data
      let s := { s with qmiBuf := qmi }
      if complete qmi data then
        let taken := recvQmiFromDev s qmi
        if taken.1.modemResetFlag then
          let left := exitLoop taken.1
          (left.1, taken.2 ++ left.2)
        else taken
      else (s, [])

def fromClient (s : Proxy) (fd : ℤ) (data : List UInt8) : Proxy × List Sent :=
  match data with
  | [] => cleanupQmiConnection s fd
  | _ :: _ =>
      let qmi := received s data
      let s := { s with qmiBuf := qmi }
      if complete qmi data then recvQmiFromClient s qmi data.length fd else (s, [])

def step (s : Proxy) (ready : Ready) : Proxy × List Sent :=
  if s.looping then
    match ready with
    | .server clientFd => (acceptQmiConnection s clientFd, [])
    | .device data => fromDevice s data
    | .client fd data => fromClient s fd data
    | .hangup fd => cleanupQmiConnection s fd
    | .deviceGone => exitLoop s
  else (s, [])

def proxy : Transducer Proxy Ready Sent := ⟨step⟩

/-- The loop with the server's socket open and nobody connected. -/
def start (serverFd : ℤ) (qmiBuf : List UInt8) : Proxy :=
  ⟨serverFd, [], [], false, false, qmiBuf, true⟩

end XWrt.Quectel.QmiProxy
