import Mathlib.Logic.Function.Basic
import XWrt.Foundation.Transducer

/-!
# The socket wrapper

`sockopt_wrap.c` between a program and the kernel's socket calls. The wrapper
keeps a table of flags by descriptor number; that a socket is bound is a fact
about the kernel's open file, which several descriptors can share. The calls of
the program come one after another, and with each call comes what the kernel
decides about it: the number of a new descriptor, whether a bind is refused,
whether connecting or sending binds the socket by itself.
-/

namespace XWrt.Mwan3.Sockopt

open Foundation

/-- The address family of an open file; `other` is every file that is no internet socket. -/
inductive Family where
  | inet
  | inet6
  | other
  deriving DecidableEq, Repr

/-- `SRCIP4` or `SRCIP6` after `init_lib`. -/
inductive Source where
  | none
  | invalid
  | given
  deriving DecidableEq, Repr

structure Config where
  source4 : Source
  source6 : Source
  rejectIpv4 : Bool
  rejectIpv6 : Bool

def Config.source (config : Config) : Family → Source
  | .inet => config.source4
  | .inet6 => config.source6
  | .other => .none

def Config.reject (config : Config) : Family → Bool
  | .inet => config.rejectIpv4
  | .inet6 => config.rejectIpv6
  | .other => false

/-! ## The kernel -/

structure Description where
  family : Family
  bound : Bool
  deriving DecidableEq, Repr

/-- Open descriptors, the open files they stand for, and the next new file. -/
structure Kernel where
  files : Int → Option Nat
  descriptions : Nat → Description
  next : Nat

inductive BindResult where
  | ok
  | alreadyBound
  | refused
  deriving DecidableEq, Repr

def Kernel.bindTo (kernel : Kernel) (file : Nat) : Kernel :=
  { kernel with descriptions := Function.update kernel.descriptions file { kernel.descriptions file with bound := true } }

/-- `orig_bind`: the open file and what becomes of it. -/
def Kernel.bind (kernel : Kernel) (fd : Int) (accept : Bool) : Kernel × Option (Nat × BindResult) :=
  match kernel.files fd with
  | none => (kernel, none)
  | some file =>
      if (kernel.descriptions file).bound then (kernel, some (file, .alreadyBound))
      else if accept then (kernel.bindTo file, some (file, .ok))
      else (kernel, some (file, .refused))

/-- `orig_connect` and the `orig_send` family: the kernel may bind the socket by itself. -/
def Kernel.use (kernel : Kernel) (fd : Int) (autobind : Bool) : Kernel :=
  match kernel.files fd with
  | some file => if autobind then kernel.bindTo file else kernel
  | none => kernel

/-- `orig_socket` and `orig_accept`: a new open file at a free number. -/
def Kernel.create (kernel : Kernel) (newfd : Int) (description : Description) : Kernel × Int :=
  if 0 ≤ newfd ∧ kernel.files newfd = none then
    ({ files := Function.update kernel.files newfd (some kernel.next)
       descriptions := Function.update kernel.descriptions kernel.next description
       next := kernel.next + 1 }, newfd)
  else (kernel, -1)

/-- `orig_dup` at a free number, `orig_dup2` and `orig_dup3` at any number. -/
def Kernel.duplicate (kernel : Kernel) (oldfd newfd : Int) (granted : Bool) : Kernel × Int :=
  match kernel.files oldfd with
  | some file =>
      if 0 ≤ newfd ∧ granted then ({ kernel with files := Function.update kernel.files newfd (some file) }, newfd)
      else (kernel, -1)
  | none => (kernel, -1)

/-! ## The wrapper -/

/-- `struct socket_state`; `BOUND_IN_PROGRESS` is seen only by another thread during a call. -/
structure SocketState where
  bound : Bool
  isSocket : Bool
  domain : Family
  deriving DecidableEq, Repr

structure State where
  kernel : Kernel
  fdInfo : Int → SocketState

/-- A bind that reaches the kernel. -/
structure Bind where
  byWrapper : Bool
  file : Nat
  result : BindResult
  deriving DecidableEq, Repr

inductive Output where
  | bind (bind : Bind)
  /-- the call fails in the wrapper and the original is not called -/
  | failed
  deriving DecidableEq, Repr

def maxFds : Int := 65536

def State.setInfo (s : State) (fd : Int) (info : SocketState) : State :=
  { s with fdInfo := Function.update s.fdInfo fd info }

/-- The descriptor is in the table and tracked. -/
def State.tracked (s : State) (fd : Int) : Bool := 0 ≤ fd && fd < maxFds && (s.fdInfo fd).isSocket

/-- `bind_source_addr` -/
def bindSourceAddr (config : Config) (s : State) (sockfd : Int) (domain : Family) (accept : Bool) :
    State × List Output × Int :=
  match config.source domain with
  | .invalid => (s, [], -1)
  | .none => (s, [], 0)
  | .given =>
      match s.kernel.bind sockfd accept with
      | (kernel, some (file, .ok)) => ({ s with kernel }, [.bind ⟨true, file, .ok⟩], 0)
      | (kernel, some (file, result)) => ({ s with kernel }, [.bind ⟨true, file, result⟩], -1)
      | (kernel, none) => ({ s with kernel }, [], -1)

/-- `sockaddr_needs_source_bind` on the answer of `orig_getsockname`: a bound socket has a port. -/
def sockaddrNeedsSourceBind (description : Description) : Bool :=
  description.family != .other && !description.bound

/-- `dobind_untracked` -/
def dobindUntracked (config : Config) (s : State) (sockfd : Int) (accept : Bool) : State × List Output × Int :=
  if config.source4 ≠ .given ∧ config.source6 ≠ .given then (s, [], 0)
  else
    match s.kernel.files sockfd with
    | none => (s, [], 0)
    | some file =>
        if sockaddrNeedsSourceBind (s.kernel.descriptions file) then
          bindSourceAddr config s sockfd (s.kernel.descriptions file).family accept
        else (s, [], 0)

/-- `dobind` -/
def dobind (config : Config) (s : State) (sockfd : Int) (accept : Bool) : State × List Output × Int :=
  if sockfd < 0 then (s, [], 0)
  else if !s.tracked sockfd then dobindUntracked config s sockfd accept
  else if (s.fdInfo sockfd).bound then (s, [], 0)
  else
    let (s', out, ret) := bindSourceAddr config s sockfd (s.fdInfo sockfd).domain accept
    (s'.setInfo sockfd { s.fdInfo sockfd with bound := ret == 0 }, out, ret)

/-- `sync_fd_state` -/
def syncFdState (s : State) (oldfd newfd : Int) : State :=
  if oldfd < 0 ∨ maxFds ≤ oldfd ∨ newfd < 0 ∨ maxFds ≤ newfd then s
  else s.setInfo newfd (s.fdInfo oldfd)

/-- `handle_accept` -/
def handleAccept (s : State) (sockfd newfd : Int) : State :=
  if !s.tracked sockfd then s
  else if newfd < 0 ∨ maxFds ≤ newfd then s
  else s.setInfo newfd ⟨true, true, (s.fdInfo sockfd).domain⟩

structure SockAddr where
  family : Family
  len : Nat
  deriving DecidableEq, Repr

/-- `sizeof(struct sockaddr_storage)` -/
def sockaddrStorageSize : Nat := 128

/-- The calls of the program with the kernel's decisions; `send` stands for the whole family. -/
inductive Call where
  | socket (domain : Family) (newfd : Int)
  | bind (sockfd : Int) (addr : Option SockAddr) (accept : Bool)
  | connect (sockfd : Int) (accept autobind : Bool)
  | send (sockfd : Int) (accept autobind : Bool)
  | dup (oldfd newfd : Int)
  | dup2 (oldfd newfd : Int) (granted : Bool)
  | dup3 (oldfd newfd : Int) (granted : Bool)
  | accept (sockfd newfd : Int)
  | close (sockfd : Int)
  deriving DecidableEq, Repr

/-- `socket` -/
def socket (config : Config) (s : State) (domain : Family) (newfd : Int) : State × List Output :=
  if config.reject domain then (s, [.failed])
  else if config.source domain = .invalid then (s, [.failed])
  else
    let (kernel, fd) := s.kernel.create newfd ⟨domain, false⟩
    if 0 ≤ fd ∧ domain ≠ .other ∧ fd < maxFds then ({ s with kernel }.setInfo fd ⟨false, true, domain⟩, [])
    else ({ s with kernel }, [])

/-- `bind`; the kernel refuses a null address. -/
def bind (config : Config) (s : State) (sockfd : Int) (addr : Option SockAddr) (accept : Bool) : State × List Output :=
  match addr with
  | some addr =>
      if config.source addr.family = .given ∧ sockaddrStorageSize < addr.len then (s, [.failed])
      else
        match s.kernel.bind sockfd accept with
        | (kernel, some (file, result)) =>
            let s' := { s with kernel }
            (if result = .ok ∧ s.tracked sockfd then s'.setInfo sockfd { s.fdInfo sockfd with bound := true } else s',
              [.bind ⟨false, file, result⟩])
        | (kernel, none) => ({ s with kernel }, [])
  | none =>
      match s.kernel.bind sockfd false with
      | (kernel, some (file, result)) => ({ s with kernel }, [.bind ⟨false, file, result⟩])
      | (kernel, none) => ({ s with kernel }, [])

/-- `connect`, `send`, `sendto`, `sendmsg`, `sendmmsg` -/
def bindAndUse (config : Config) (s : State) (sockfd : Int) (accept autobind : Bool) : State × List Output :=
  match dobind config s sockfd accept with
  | (s', out, ret) =>
      if ret < 0 then (s', out ++ [.failed])
      else ({ s' with kernel := s'.kernel.use sockfd autobind }, out)

/-- `dup`, `dup2` and `dup3` after the kernel's part. -/
def duplicate (s : State) (oldfd newfd : Int) (granted : Bool) : State × List Output :=
  match s.kernel.duplicate oldfd newfd granted with
  | (kernel, ret) => (if 0 ≤ ret then syncFdState { s with kernel } oldfd newfd else { s with kernel }, [])

/-- `accept` and `accept4`; an accepted socket is bound. -/
def accept (s : State) (sockfd newfd : Int) : State × List Output :=
  match s.kernel.files sockfd with
  | some file =>
      match s.kernel.create newfd ⟨(s.kernel.descriptions file).family, true⟩ with
      | (kernel, fd) => (if 0 ≤ fd then handleAccept { s with kernel } sockfd fd else { s with kernel }, [])
  | none => (s, [])

/-- `close` -/
def close (s : State) (sockfd : Int) : State × List Output :=
  let s' := if 0 ≤ sockfd ∧ sockfd < maxFds then s.setInfo sockfd ⟨false, false, .other⟩ else s
  ({ s' with kernel := { s'.kernel with files := Function.update s'.kernel.files sockfd none } }, [])

def step (config : Config) (s : State) : Call → State × List Output
  | .socket domain newfd => socket config s domain newfd
  | .bind sockfd addr accept => bind config s sockfd addr accept
  | .connect sockfd accept autobind => bindAndUse config s sockfd accept autobind
  | .send sockfd accept autobind => bindAndUse config s sockfd accept autobind
  | .dup oldfd newfd => duplicate s oldfd newfd (s.kernel.files newfd).isNone
  | .dup2 oldfd newfd granted => duplicate s oldfd newfd granted
  | .dup3 oldfd newfd granted => duplicate s oldfd newfd (granted && oldfd != newfd)
  | .accept sockfd newfd => accept s sockfd newfd
  | .close sockfd => close s sockfd

def wrapper (config : Config) : Transducer State Call Output where
  step := step config

def binds (outputs : List Output) : List Bind :=
  outputs.filterMap fun
    | .bind bind => some bind
    | .failed => none

/-- A wrapper just loaded, with whatever descriptors the program inherits. -/
def State.Fresh (s : State) : Prop :=
  (∀ fd, s.fdInfo fd = ⟨false, false, .other⟩) ∧
    ∀ fd file, s.kernel.files fd = some file → 0 ≤ fd ∧ file < s.kernel.next

/-- No descriptors at all. -/
def emptyState : State := ⟨⟨fun _ => none, fun _ => ⟨.other, false⟩, 0⟩, fun _ => ⟨false, false, .other⟩⟩

/-! ## What the table says -/

/-- The table says of the descriptor that the wrapper still has to bind its socket. -/
def State.SaysUnbound (config : Config) (s : State) (fd : Int) : Prop :=
  s.tracked fd = true ∧ (s.fdInfo fd).bound = false ∧ config.source (s.fdInfo fd).domain = .given

/-- No other descriptor of the same open file still says that the socket is not bound. -/
def State.Alone (config : Config) (s : State) (fd : Int) : Prop :=
  ∀ file, s.kernel.files fd = some file → ∀ other, other ≠ fd → s.kernel.files other = some file →
    ¬s.SaysUnbound config other

/-- A call after which table and kernel still agree: it may bind a socket only through the last descriptor that says
unbound, and it puts no bound socket at a number whose entry says unbound and is not replaced. -/
def InStep (config : Config) (s : State) : Call → Prop
  | .bind sockfd _ _ => s.Alone config sockfd
  | .connect sockfd _ _ => s.Alone config sockfd
  | .send sockfd _ _ => s.Alone config sockfd
  | .dup2 oldfd newfd _ => maxFds ≤ oldfd → s.SaysUnbound config newfd →
      ∀ file, s.kernel.files oldfd = some file → (s.kernel.descriptions file).bound = false
  | .dup3 oldfd newfd _ => maxFds ≤ oldfd → s.SaysUnbound config newfd →
      ∀ file, s.kernel.files oldfd = some file → (s.kernel.descriptions file).bound = false
  | _ => True

/-- The invariant: closed numbers are not tracked, and an entry that says unbound is right. -/
structure Sound (config : Config) (s : State) : Prop where
  closed : ∀ fd, s.kernel.files fd = none → s.tracked fd = false
  numbered : ∀ fd file, s.kernel.files fd = some file → 0 ≤ fd
  known : ∀ fd file, s.kernel.files fd = some file → file < s.kernel.next
  synced : ∀ fd file, s.kernel.files fd = some file → s.SaysUnbound config fd →
    (s.kernel.descriptions file).bound = false

variable {config : Config} {s : State} {fd : Int}

theorem Sound.of_fresh (fresh : s.Fresh) : Sound config s where
  closed fd _ := by simp [State.tracked, fresh.1 fd]
  numbered fd file here := (fresh.2 fd file here).1
  known fd file here := (fresh.2 fd file here).2
  synced fd file _ unbound := by
    have tracked := unbound.1
    simp [State.tracked, fresh.1 fd] at tracked

@[simp]
theorem setInfo_kernel (s : State) (fd : Int) (info : SocketState) : (s.setInfo fd info).kernel = s.kernel := rfl

@[simp]
theorem setInfo_self (s : State) (fd : Int) : s.setInfo fd (s.fdInfo fd) = s := by
  simp [State.setInfo]

theorem setInfo_fdInfo_of_ne {other : Int} (different : other ≠ fd) (info : SocketState) :
    (s.setInfo fd info).fdInfo other = s.fdInfo other := Function.update_of_ne different _ _

@[simp]
theorem setInfo_fdInfo (s : State) (fd : Int) (info : SocketState) : (s.setInfo fd info).fdInfo fd = info :=
  Function.update_self _ _ _

theorem saysUnbound_setInfo_of_ne {other : Int} (different : other ≠ fd) (info : SocketState) :
    (s.setInfo fd info).SaysUnbound config other ↔ s.SaysUnbound config other := by
  simp only [State.SaysUnbound, State.tracked, setInfo_fdInfo_of_ne different]

theorem alone_setInfo (info : SocketState) : (s.setInfo fd info).Alone config fd ↔ s.Alone config fd := by
  unfold State.Alone
  constructor
  · intro alone file here other different there
    rw [← saysUnbound_setInfo_of_ne different info]
    exact alone file here other different there
  · intro alone file here other different there
    rw [saysUnbound_setInfo_of_ne different info]
    exact alone file here other different there

/-- A change of the open file and the entry at one number. -/
theorem Sound.replace (sound : Sound config s) (fd : Int) {s' : State}
    (others : ∀ other, other ≠ fd → s'.kernel.files other = s.kernel.files other ∧ s'.fdInfo other = s.fdInfo other)
    (next : s.kernel.next ≤ s'.kernel.next)
    (same : ∀ file < s.kernel.next, s'.kernel.descriptions file = s.kernel.descriptions file)
    (closed : s'.kernel.files fd = none → s'.tracked fd = false)
    (opened : ∀ file, s'.kernel.files fd = some file → 0 ≤ fd ∧ file < s'.kernel.next ∧
      (s'.SaysUnbound config fd → (s'.kernel.descriptions file).bound = false)) : Sound config s' := by
  have tracked : ∀ other, other ≠ fd → s'.tracked other = s.tracked other := fun other different => by
    rw [State.tracked, State.tracked, (others other different).2]
  constructor
  · intro other here
    by_cases here' : other = fd
    · subst here'
      exact closed here
    · rw [(others other here').1] at here
      exact (tracked other here').trans (sound.closed other here)
  · intro other file here
    by_cases here' : other = fd
    · subst here'
      exact (opened file here).1
    · rw [(others other here').1] at here
      exact sound.numbered other file here
  · intro other file here
    by_cases here' : other = fd
    · subst here'
      exact (opened file here).2.1
    · rw [(others other here').1] at here
      exact (sound.known other file here).trans_le next
  · intro other file here unbound
    by_cases here' : other = fd
    · subst here'
      exact (opened file here).2.2 unbound
    · rw [(others other here').1] at here
      rw [same file (sound.known other file here)]
      have before : s.SaysUnbound config other := by
        rwa [State.SaysUnbound, tracked other here', (others other here').2] at unbound
      exact sound.synced other file here before

/-- An entry that no longer says unbound is sound. -/
theorem Sound.settle (sound : Sound config s) {info : SocketState} (same : info.isSocket = (s.fdInfo fd).isSocket)
    (settled : ¬(s.setInfo fd info).SaysUnbound config fd) : Sound config (s.setInfo fd info) := by
  apply sound.replace fd
  · exact fun other different => ⟨rfl, setInfo_fdInfo_of_ne different info⟩
  · exact le_rfl
  · exact fun _ _ => rfl
  · intro closed
    have tracked := sound.closed fd closed
    rw [State.tracked, ← same] at tracked
    rwa [State.tracked, setInfo_fdInfo]
  · exact fun file here => ⟨sound.numbered fd file here, sound.known fd file here, fun entry => absurd entry settled⟩

/-- Binding a socket is sound once no descriptor of it says unbound. -/
theorem Sound.bindTo (sound : Sound config s) {file : Nat} (here : s.kernel.files fd = some file)
    (alone : s.Alone config fd) (settled : ¬s.SaysUnbound config fd) :
    Sound config { s with kernel := s.kernel.bindTo file } where
  closed := sound.closed
  numbered := sound.numbered
  known := sound.known
  synced other file' there unbound := by
    by_cases same : file' = file
    · subst same
      by_cases self : other = fd
      · exact absurd (self ▸ unbound) settled
      · exact absurd unbound (alone file' here other self there)
    · have before := sound.synced other file' there unbound
      simpa [Kernel.bindTo, Function.update_of_ne same] using before

/-! ## What a call does -/

/-- Every outcome of `dobind`: it binds only an unbound socket, and then the table knows. -/
inductive Dobind (config : Config) (s : State) (fd : Int) (accept : Bool) : State × List Output × Int → Prop where
  | settled (info : SocketState) (same : info.isSocket = (s.fdInfo fd).isSocket)
      (settled : ¬(s.setInfo fd info).SaysUnbound config fd) : Dobind config s fd accept (s.setInfo fd info, [], 0)
  | rejected : Dobind config s fd accept (s, [], -1)
  | bound (info : SocketState) (file : Nat) (same : info.isSocket = (s.fdInfo fd).isSocket)
      (settled : ¬(s.setInfo fd info).SaysUnbound config fd) (here : s.kernel.files fd = some file)
      (unbound : (s.kernel.descriptions file).bound = false) :
      Dobind config s fd accept
        ({ s.setInfo fd info with kernel := s.kernel.bindTo file }, [.bind ⟨true, file, .ok⟩], 0)
  | refused (file : Nat) (here : s.kernel.files fd = some file)
      (unbound : (s.kernel.descriptions file).bound = false) (denied : accept = false) :
      Dobind config s fd accept (s, [.bind ⟨true, file, .refused⟩], -1)

/-- Nothing to do for a descriptor that does not say unbound. -/
theorem Dobind.unchanged (settled : ¬s.SaysUnbound config fd) (accept : Bool) : Dobind config s fd accept (s, [], 0) := by
  have settled' : ¬(s.setInfo fd (s.fdInfo fd)).SaysUnbound config fd := by rwa [setInfo_self]
  simpa using Dobind.settled (s.fdInfo fd) rfl settled'

theorem dobindUntracked_cases (untracked : s.tracked fd = false) (accept : Bool) :
    Dobind config s fd accept (dobindUntracked config s fd accept) := by
  have settled : ¬s.SaysUnbound config fd := fun entry => Bool.false_ne_true (untracked.symm.trans entry.1)
  unfold dobindUntracked
  split
  next => exact .unchanged settled accept
  next =>
      split
      next => exact .unchanged settled accept
      next file here =>
          split
          next needs =>
              simp only [sockaddrNeedsSourceBind, Bool.and_eq_true, Bool.not_eq_true'] at needs
              unfold bindSourceAddr
              split
              next => exact .rejected
              next => exact .unchanged settled accept
              next =>
                  simp only [Kernel.bind, here, needs.2, Bool.false_eq_true, if_false]
                  cases accept with
                  | true =>
                      have settled' : ¬(s.setInfo fd (s.fdInfo fd)).SaysUnbound config fd := by rwa [setInfo_self]
                      simpa using Dobind.bound (s.fdInfo fd) file rfl settled' here needs.2
                  | false => exact .refused file here needs.2 rfl
          next => exact .unchanged settled accept

theorem dobind_cases (sound : Sound config s) (fd : Int) (accept : Bool) :
    Dobind config s fd accept (dobind config s fd accept) := by
  unfold dobind
  split
  next negative =>
      refine .unchanged (fun entry => ?_) accept
      have tracked := entry.1
      simp only [State.tracked, Bool.and_eq_true, decide_eq_true_eq] at tracked
      omega
  next =>
      split
      next untracked =>
          rw [Bool.not_eq_true'] at untracked
          exact dobindUntracked_cases untracked accept
      next tracked =>
          rw [Bool.not_eq_true', Bool.not_eq_false] at tracked
          split
          next bound => exact .unchanged (fun entry => Bool.false_ne_true (entry.2.1.symm.trans bound)) accept
          next notBound =>
              rw [Bool.not_eq_true] at notBound
              have kept : { s.fdInfo fd with bound := false } = s.fdInfo fd := by rw [← notBound]
              have settled : ¬(s.setInfo fd { s.fdInfo fd with bound := true }).SaysUnbound config fd := by
                rintro ⟨_, entry, _⟩
                rw [setInfo_fdInfo] at entry
                cases entry
              cases source : config.source (s.fdInfo fd).domain with
              | invalid => simpa [bindSourceAddr, source, kept] using Dobind.rejected
              | none =>
                  simp only [bindSourceAddr, source]
                  exact .settled _ rfl settled
              | given =>
                  cases here : s.kernel.files fd with
                  | none =>
                      rw [sound.closed fd here] at tracked
                      cases tracked
                  | some file =>
                      have unbound := sound.synced fd file here ⟨tracked, notBound, source⟩
                      simp only [bindSourceAddr, source, Kernel.bind, here, unbound, Bool.false_eq_true, if_false]
                      cases accept with
                      | true => exact .bound _ file rfl settled here unbound
                      | false => simpa [kept] using Dobind.refused file here unbound rfl

/-- New files get new numbers, and a bound socket stays bound. -/
structure Kernel.Grows (kernel kernel' : Kernel) : Prop where
  next : kernel.next ≤ kernel'.next
  keeps : ∀ file < kernel.next, (kernel.descriptions file).bound = true → (kernel'.descriptions file).bound = true

theorem Kernel.Grows.refl (kernel : Kernel) : kernel.Grows kernel := ⟨le_rfl, fun _ _ bound => bound⟩

theorem Kernel.Grows.trans {first second third : Kernel} (one : first.Grows second) (two : second.Grows third) :
    first.Grows third :=
  ⟨one.next.trans two.next, fun file known bound => two.keeps file (known.trans_le one.next) (one.keeps file known bound)⟩

theorem Kernel.bindTo_grows (kernel : Kernel) (file : Nat) : kernel.Grows (kernel.bindTo file) where
  next := le_rfl
  keeps other _ bound := by
    by_cases same : other = file
    · simp [Kernel.bindTo, same]
    · simpa [Kernel.bindTo, Function.update_of_ne same] using bound

theorem Kernel.bindTo_bound (kernel : Kernel) (file : Nat) : ((kernel.bindTo file).descriptions file).bound = true := by
  simp [Kernel.bindTo]

theorem Kernel.use_grows (kernel : Kernel) (fd : Int) (autobind : Bool) : kernel.Grows (kernel.use fd autobind) := by
  unfold Kernel.use
  split
  next file _ =>
      split
      next => exact kernel.bindTo_grows file
      next => exact .refl kernel
  next => exact .refl kernel

theorem Kernel.create_grows (kernel : Kernel) (newfd : Int) (description : Description) :
    kernel.Grows (kernel.create newfd description).1 := by
  unfold Kernel.create
  split
  next =>
      refine ⟨Nat.le_succ _, fun file known bound => ?_⟩
      simpa [Function.update_of_ne known.ne] using bound
  next => exact .refl kernel

theorem Kernel.duplicate_grows (kernel : Kernel) (oldfd newfd : Int) (granted : Bool) :
    kernel.Grows (kernel.duplicate oldfd newfd granted).1 := by
  unfold Kernel.duplicate
  split
  next =>
      split
      next => exact ⟨le_rfl, fun _ _ bound => bound⟩
      next => exact .refl kernel
  next => exact .refl kernel

/-- What a call may emit: at most one bind, and the wrapper's own only of an unbound socket. -/
structure Orderly (s : State) (out : List Output) (s' : State) : Prop where
  grows : s.kernel.Grows s'.kernel
  single : (binds out).length ≤ 1
  right : ∀ bind ∈ binds out, bind.file < s.kernel.next ∧
    (bind.result = .ok → (s'.kernel.descriptions bind.file).bound = true) ∧
    (bind.byWrapper = true → (s.kernel.descriptions bind.file).bound = false ∧ bind.result ≠ .alreadyBound)

theorem Orderly.quiet {s' : State} {out : List Output} (silent : binds out = []) (grows : s.kernel.Grows s'.kernel) :
    Orderly s out s' :=
  ⟨grows, by simp [silent], by simp [silent]⟩

theorem bindAndUse_spec (sound : Sound config s) (alone : s.Alone config fd) (accept autobind : Bool) :
    Sound config (bindAndUse config s fd accept autobind).1 ∧
      Orderly s (bindAndUse config s fd accept autobind).2 (bindAndUse config s fd accept autobind).1 := by
  -- After a bind that did not fail, the kernel may bind the socket by itself.
  have useSound : ∀ {s' : State}, Sound config s' → s'.Alone config fd → ¬s'.SaysUnbound config fd →
      Sound config { s' with kernel := s'.kernel.use fd autobind } := by
    intro s' sound' alone' settled
    unfold Kernel.use
    split
    next file here =>
        split
        next => exact sound'.bindTo here alone' settled
        next => exact sound'
    next => exact sound'
  have outcome := dobind_cases sound fd accept
  unfold bindAndUse
  generalize dobind config s fd accept = result at outcome
  cases outcome with
  | settled info same settled =>
      have sound' : Sound config (s.setInfo fd info) := sound.settle same settled
      exact ⟨useSound sound' ((alone_setInfo info).mpr alone) settled, .quiet rfl (s.kernel.use_grows fd autobind)⟩
  | rejected => exact ⟨sound, .quiet rfl (.refl _)⟩
  | bound info file same settled here unbound =>
      have sound' : Sound config (s.setInfo fd info) := sound.settle same settled
      have alone' := (alone_setInfo info).mpr alone
      have grows := (s.kernel.bindTo_grows file).trans ((s.kernel.bindTo file).use_grows fd autobind)
      refine ⟨useSound (sound'.bindTo here alone' settled) alone' settled, grows, le_rfl, ?_⟩
      intro bind member
      obtain rfl := List.mem_singleton.mp member
      have known := sound.known fd file here
      have still := ((s.kernel.bindTo file).use_grows fd autobind).keeps file known (s.kernel.bindTo_bound file)
      exact ⟨known, fun _ => still, fun _ => ⟨unbound, by simp⟩⟩
  | refused file here unbound denied =>
      refine ⟨sound, .refl _, le_rfl, ?_⟩
      intro bind member
      obtain rfl := List.mem_singleton.mp member
      refine ⟨sound.known fd file here, ?_, fun _ => ⟨unbound, by simp⟩⟩
      intro impossible
      cases impossible

/-- The outcomes of `orig_bind`. -/
theorem Kernel.bind_cases (kernel : Kernel) (fd : Int) (accept : Bool) :
    kernel.bind fd accept = (kernel, none) ∨ ∃ file, kernel.files fd = some file ∧
      (kernel.bind fd accept = (kernel.bindTo file, some (file, .ok)) ∨
        ∃ result, result ≠ .ok ∧ kernel.bind fd accept = (kernel, some (file, result))) := by
  unfold Kernel.bind
  split
  next => exact Or.inl rfl
  next file here =>
      refine Or.inr ⟨file, here, ?_⟩
      split
      next => exact Or.inr ⟨.alreadyBound, by simp, rfl⟩
      next =>
          split
          next => exact Or.inl rfl
          next => exact Or.inr ⟨.refused, by simp, rfl⟩

theorem Kernel.bind_refused (kernel : Kernel) (fd : Int) :
    kernel.bind fd false = (kernel, none) ∨ ∃ file result, kernel.files fd = some file ∧ result ≠ .ok ∧
      kernel.bind fd false = (kernel, some (file, result)) := by
  unfold Kernel.bind
  split
  next => exact Or.inl rfl
  next file here =>
      refine Or.inr ?_
      split
      next => exact ⟨file, .alreadyBound, here, by simp, rfl⟩
      next => exact ⟨file, .refused, here, by simp, rfl⟩

theorem orderly_unchanged {file : Nat} {result : BindResult} (known : file < s.kernel.next) (fails : result ≠ .ok) :
    Orderly s [.bind ⟨false, file, result⟩] s := by
  refine ⟨.refl _, le_rfl, ?_⟩
  intro bind member
  obtain rfl := List.mem_singleton.mp member
  exact ⟨known, fun ok => absurd ok fails, fun impossible => absurd impossible Bool.false_ne_true⟩

theorem bind_spec (sound : Sound config s) (alone : s.Alone config fd) (addr : Option SockAddr) (accept : Bool) :
    Sound config (bind config s fd addr accept).1 ∧
      Orderly s (bind config s fd addr accept).2 (bind config s fd addr accept).1 := by
  unfold bind
  cases addr with
  | none =>
      rcases s.kernel.bind_refused fd with closed | ⟨file, result, here, fails, refused⟩
      · simp only [closed]
        exact ⟨sound, .quiet rfl (.refl _)⟩
      · simp only [refused]
        exact ⟨sound, orderly_unchanged (sound.known fd file here) fails⟩
  | some addr =>
      simp only
      split
      next => exact ⟨sound, .quiet rfl (.refl _)⟩
      next =>
          rcases s.kernel.bind_cases fd accept with closed | ⟨file, here, bound | ⟨result, fails, refused⟩⟩
          · simp only [closed]
            exact ⟨sound, .quiet rfl (.refl _)⟩
          · -- The table learns of the bind if it tracks the descriptor, and else says nothing about it.
            have known := sound.known fd file here
            have orderly : ∀ s' : State, s'.kernel = s.kernel.bindTo file →
                Orderly s [.bind ⟨false, file, .ok⟩] s' := by
              intro s' kernel
              refine ⟨kernel ▸ s.kernel.bindTo_grows file, le_rfl, ?_⟩
              intro bind member
              obtain rfl := List.mem_singleton.mp member
              rw [kernel]
              exact ⟨known, fun _ => s.kernel.bindTo_bound file, fun impossible => absurd impossible Bool.false_ne_true⟩
            simp only [bound, true_and]
            split
            next =>
                have settled : ¬(s.setInfo fd { s.fdInfo fd with bound := true }).SaysUnbound config fd := by
                  rintro ⟨_, entry, _⟩
                  rw [setInfo_fdInfo] at entry
                  cases entry
                have sound' : Sound config (s.setInfo fd { s.fdInfo fd with bound := true }) :=
                  sound.settle rfl settled
                exact ⟨sound'.bindTo here ((alone_setInfo _).mpr alone) settled, orderly _ rfl⟩
            next untracked =>
                exact ⟨sound.bindTo here alone fun entry => untracked entry.1, orderly _ rfl⟩
          · simp only [refused, fails, false_and, if_false]
            exact ⟨sound, orderly_unchanged (sound.known fd file here) fails⟩

/-- A new open file at a free number. -/
theorem Sound.create (sound : Sound config s) {newfd : Int} (positive : 0 ≤ newfd) (free : s.kernel.files newfd = none)
    (description : Description) (info : SocketState)
    (synced : (s.setInfo newfd info).SaysUnbound config newfd → description.bound = false) :
    Sound config { s.setInfo newfd info with kernel := (s.kernel.create newfd description).1 } := by
  rw [Kernel.create, if_pos ⟨positive, free⟩]
  apply sound.replace newfd
  · exact fun other different => ⟨Function.update_of_ne different _ _, setInfo_fdInfo_of_ne different info⟩
  · exact Nat.le_succ _
  · exact fun file known => Function.update_of_ne known.ne _ _
  · intro closed
    simp at closed
  · intro file here
    simp only [Function.update_self, Option.some.injEq] at here
    subst here
    refine ⟨positive, Nat.lt_succ_self _, fun entry => ?_⟩
    simp only [Function.update_self]
    exact synced entry

theorem create_cases (kernel : Kernel) (newfd : Int) (description : Description) :
    (0 ≤ newfd ∧ kernel.files newfd = none ∧ (kernel.create newfd description).2 = newfd) ∨
      kernel.create newfd description = (kernel, -1) := by
  unfold Kernel.create
  split
  next created => exact Or.inl ⟨created.1, created.2, rfl⟩
  next => exact Or.inr rfl

theorem socket_spec (sound : Sound config s) (domain : Family) (newfd : Int) :
    Sound config (socket config s domain newfd).1 ∧
      Orderly s (socket config s domain newfd).2 (socket config s domain newfd).1 := by
  unfold socket
  split
  next => exact ⟨sound, .quiet rfl (.refl _)⟩
  next =>
      split
      next => exact ⟨sound, .quiet rfl (.refl _)⟩
      next =>
          have grows := s.kernel.create_grows newfd ⟨domain, false⟩
          rcases create_cases s.kernel newfd ⟨domain, false⟩ with ⟨positive, free, number⟩ | failed
          · simp only [number]
            split
            next =>
                exact ⟨sound.create positive free ⟨domain, false⟩ ⟨false, true, domain⟩ fun _ => rfl, .quiet rfl grows⟩
            next =>
                have kept := sound.create positive free ⟨domain, false⟩ (s.fdInfo newfd) fun _ => rfl
                rw [setInfo_self] at kept
                exact ⟨kept, .quiet rfl grows⟩
          · simp only [failed]
            exact ⟨sound, .quiet rfl (.refl _)⟩

theorem Sound.free_settled (sound : Sound config s) (free : s.kernel.files fd = none) : ¬s.SaysUnbound config fd :=
  fun entry => Bool.false_ne_true ((sound.closed fd free).symm.trans entry.1)

theorem accept_spec (sound : Sound config s) (sockfd newfd : Int) :
    Sound config (accept s sockfd newfd).1 ∧ Orderly s (accept s sockfd newfd).2 (accept s sockfd newfd).1 := by
  unfold accept
  split
  next file _ =>
      have grows := s.kernel.create_grows newfd ⟨(s.kernel.descriptions file).family, true⟩
      rcases create_cases s.kernel newfd ⟨(s.kernel.descriptions file).family, true⟩ with ⟨positive, free, number⟩ | failed
      · have unmarked := sound.create positive free
          ⟨(s.kernel.descriptions file).family, true⟩ (s.fdInfo newfd) fun entry => by
            rw [setInfo_self] at entry
            exact absurd entry (sound.free_settled free)
        rw [setInfo_self] at unmarked
        have marked := sound.create positive free
          ⟨(s.kernel.descriptions file).family, true⟩ ⟨true, true, (s.fdInfo sockfd).domain⟩ fun entry => by
            have bound := entry.2.1
            rw [setInfo_fdInfo] at bound
            cases bound
        simp only [number, if_pos positive, handleAccept]
        split
        next => exact ⟨unmarked, .quiet rfl grows⟩
        next =>
            split
            next => exact ⟨unmarked, .quiet rfl grows⟩
            next => exact ⟨marked, .quiet rfl grows⟩
      · simp only [failed]
        exact ⟨sound, .quiet rfl (.refl _)⟩
  next => exact ⟨sound, .quiet rfl (.refl _)⟩

theorem close_spec (sound : Sound config s) (sockfd : Int) :
    Sound config (close s sockfd).1 ∧ Orderly s (close s sockfd).2 (close s sockfd).1 := by
  have grows : s.kernel.Grows (close s sockfd).1.kernel := by
    unfold close
    split
    next => exact ⟨le_rfl, fun _ _ bound => bound⟩
    next => exact ⟨le_rfl, fun _ _ bound => bound⟩
  refine ⟨?_, .quiet rfl grows⟩
  unfold close
  split
  next =>
      apply sound.replace sockfd
      · exact fun other different => ⟨Function.update_of_ne different _ _, setInfo_fdInfo_of_ne different _⟩
      · exact le_rfl
      · exact fun _ _ => rfl
      · simp [State.tracked, State.setInfo]
      · intro file here
        simp at here
  next outside =>
      apply sound.replace sockfd
      · exact fun other different => ⟨Function.update_of_ne different _ _, rfl⟩
      · exact le_rfl
      · exact fun _ _ => rfl
      · intro _
        simp only [State.tracked, Bool.and_eq_false_iff, decide_eq_false_iff_not]
        exact Or.inl (not_and_or.mp outside)
      · intro file here
        simp at here

/-- A duplicate has the entry of the original, unless one of the two is outside of the table. -/
theorem duplicate_spec (sound : Sound config s) {oldfd newfd : Int} {granted : Bool}
    (steady : granted = true → maxFds ≤ oldfd → s.SaysUnbound config newfd →
      ∀ file, s.kernel.files oldfd = some file → (s.kernel.descriptions file).bound = false) :
    Sound config (duplicate s oldfd newfd granted).1 ∧
      Orderly s (duplicate s oldfd newfd granted).2 (duplicate s oldfd newfd granted).1 := by
  have grows := s.kernel.duplicate_grows oldfd newfd granted
  unfold duplicate
  cases here : s.kernel.files oldfd with
  | none =>
      simp only [Kernel.duplicate, here]
      exact ⟨sound, .quiet rfl (.refl _)⟩
  | some file =>
      by_cases allowed : 0 ≤ newfd ∧ granted = true
      · simp only [Kernel.duplicate, here, if_pos allowed, if_pos allowed.1, syncFdState] at grows ⊢
        split
        next outside =>
            refine ⟨?_, .quiet rfl grows⟩
            apply sound.replace newfd
            · exact fun other different => ⟨Function.update_of_ne different _ _, rfl⟩
            · exact le_rfl
            · exact fun _ _ => rfl
            · intro closed
              simp at closed
            · intro file' there
              simp only [Function.update_self, Option.some.injEq] at there
              subst there
              refine ⟨allowed.1, sound.known oldfd file here, fun entry => ?_⟩
              have inside := entry.1
              simp only [State.tracked, Bool.and_eq_true, decide_eq_true_eq] at inside
              have positive := sound.numbered oldfd file here
              exact steady allowed.2 (by omega) entry file here
        next inside =>
            refine ⟨?_, .quiet rfl grows⟩
            apply sound.replace newfd
            · exact fun other different => ⟨Function.update_of_ne different _ _, setInfo_fdInfo_of_ne different _⟩
            · exact le_rfl
            · exact fun _ _ => rfl
            · intro closed
              simp at closed
            · intro file' there
              simp only [setInfo_kernel, Function.update_self, Option.some.injEq] at there
              subst there
              refine ⟨allowed.1, sound.known oldfd file here, fun entry => ?_⟩
              obtain ⟨marked, notBound, source⟩ := entry
              simp only [State.tracked, setInfo_fdInfo, Bool.and_eq_true] at marked notBound source
              have range : 0 ≤ oldfd ∧ oldfd < maxFds := by omega
              have original : s.SaysUnbound config oldfd := ⟨by simp [State.tracked, range, marked.2], notBound, source⟩
              exact sound.synced oldfd file here original
      · simp only [Kernel.duplicate, here, if_neg allowed]
        exact ⟨sound, .quiet rfl (.refl _)⟩

/-- Every call in step keeps the invariant. -/
theorem step_spec (sound : Sound config s) {call : Call} (inStep : InStep config s call) :
    Sound config (step config s call).1 ∧ Orderly s (step config s call).2 (step config s call).1 := by
  cases call with
  | socket domain newfd => exact socket_spec sound domain newfd
  | bind sockfd addr accept => exact bind_spec sound inStep addr accept
  | connect sockfd accept autobind => exact bindAndUse_spec sound inStep accept autobind
  | send sockfd accept autobind => exact bindAndUse_spec sound inStep accept autobind
  | dup oldfd newfd =>
      refine duplicate_spec sound fun free _ entry => ?_
      exact absurd entry (sound.free_settled (Option.isNone_iff_eq_none.mp free))
  | dup2 oldfd newfd granted => exact duplicate_spec sound fun _ => inStep
  | dup3 oldfd newfd granted => exact duplicate_spec sound fun _ => inStep
  | accept sockfd newfd => exact accept_spec sound sockfd newfd
  | close sockfd => exact close_spec sound sockfd

/-! ## Runs -/

/-- After a bind that succeeded, whoever made it, the wrapper does not bind the same open file. -/
def Settled (earlier later : Bind) : Prop :=
  earlier.file = later.file → later.byWrapper = true → earlier.result ≠ .ok

/-- What a run has done so far, and what that says about its state. -/
structure History (config : Config) (made : List Bind) (s : State) : Prop where
  sound : Sound config s
  settled : made.Pairwise Settled
  past : ∀ bind ∈ made, bind.file < s.kernel.next ∧
    (bind.result = .ok → (s.kernel.descriptions bind.file).bound = true)
  fresh : ∀ bind ∈ made, bind.byWrapper = true → bind.result ≠ .alreadyBound

theorem History.step {made : List Bind} (history : History config made s) {call : Call} (inStep : InStep config s call) :
    History config (made ++ binds (step config s call).2) (step config s call).1 := by
  obtain ⟨sound, orderly⟩ := step_spec history.sound inStep
  refine ⟨sound, ?_, ?_, ?_⟩
  · refine List.pairwise_append.mpr ⟨history.settled, ?_, ?_⟩
    · have single := orderly.single
      match made' : binds (Sockopt.step config s call).2 with
      | [] => exact .nil
      | [bind] => exact List.pairwise_singleton _ _
      | first :: second :: rest => simp [made'] at single
    · intro earlier inPast later now same own success
      have unbound := ((orderly.right later now).2.2 own).1
      rw [← same, (history.past earlier inPast).2 success] at unbound
      cases unbound
  · intro bind member
    rcases List.mem_append.mp member with inPast | now
    · obtain ⟨known, bound⟩ := history.past bind inPast
      exact ⟨known.trans_le orderly.grows.next, fun success => orderly.grows.keeps _ known (bound success)⟩
    · obtain ⟨known, bound, _⟩ := orderly.right bind now
      exact ⟨known.trans_le orderly.grows.next, bound⟩
  · intro bind member own
    rcases List.mem_append.mp member with inPast | now
    · exact history.fresh bind inPast own
    · exact ((orderly.right bind now).2.2 own).2

theorem binds_append (first second : List Output) : binds (first ++ second) = binds first ++ binds second :=
  List.filterMap_append

theorem history_run {start : State} (fresh : start.Fresh) {calls : List Call}
    (inStep : (wrapper config).AllSteps (InStep config) start calls) :
    History config (binds ((wrapper config).emitted start calls)) ((wrapper config).final start calls) := by
  refine (wrapper config).history_invariant (InStep config)
    (fun past now => History config (binds (past.flatMap Entry.emitted)) now) ?_ ?_ calls inStep
  · exact ⟨.of_fresh fresh, .nil, by simp [binds], by simp [binds]⟩
  · intro past now call history here
    rw [List.flatMap_append, binds_append, List.flatMap_singleton]
    exact history.step here

/-- The kernel refuses no bind of an unbound socket to a source address. -/
def Accepting : Call → Prop
  | .connect _ accept _ => accept = true
  | .send _ accept _ => accept = true
  | _ => True

theorem bindAndUse_accepting (sound : Sound config s) (fd : Int) (autobind : Bool) :
    ∀ bind ∈ binds (bindAndUse config s fd true autobind).2, bind.result ≠ .refused := by
  have outcome := dobind_cases sound fd true
  unfold bindAndUse
  generalize dobind config s fd true = result at outcome
  cases outcome with
  | settled => exact fun bind member => nomatch member
  | rejected => exact fun bind member => nomatch member
  | bound info file =>
      intro bind member
      obtain rfl := List.mem_singleton.mp member
      simp
  | refused file here unbound denied => cases denied

theorem bind_byProgram (config : Config) (s : State) (fd : Int) (addr : Option SockAddr) (accept : Bool) :
    ∀ made ∈ binds (bind config s fd addr accept).2, made.byWrapper = false := by
  unfold bind
  intro made member
  repeat' split at member
  all_goals
    first
      | exact (List.not_mem_nil member).elim
      | obtain rfl := List.mem_singleton.mp member
        rfl

theorem binds_socket (config : Config) (s : State) (domain : Family) (newfd : Int) :
    binds (socket config s domain newfd).2 = [] := by
  unfold socket
  repeat' split
  all_goals rfl

theorem binds_accept (s : State) (sockfd newfd : Int) : binds (accept s sockfd newfd).2 = [] := by
  unfold accept
  split
  · rfl
  · rfl

theorem step_accepting (sound : Sound config s) {call : Call} (accepting : Accepting call) :
    ∀ bind ∈ binds (step config s call).2, bind.byWrapper = true → bind.result ≠ .refused := by
  intro made member own
  cases call with
  | bind sockfd addr accept => exact absurd ((bind_byProgram config s sockfd addr accept made member).symm.trans own) Bool.false_ne_true
  | connect sockfd accept autobind =>
      obtain rfl : accept = true := accepting
      exact bindAndUse_accepting sound sockfd autobind made member
  | send sockfd accept autobind =>
      obtain rfl : accept = true := accepting
      exact bindAndUse_accepting sound sockfd autobind made member
  | socket domain newfd =>
      rw [step, binds_socket] at member
      cases member
  | accept sockfd newfd =>
      rw [step, binds_accept] at member
      cases member
  | _ => cases member

theorem accepting_run {start : State} (fresh : start.Fresh) {calls : List Call}
    (inStep : (wrapper config).AllSteps (InStep config) start calls)
    (accepting : (wrapper config).AllSteps (fun _ call => Accepting call) start calls) :
    ∀ bind ∈ binds ((wrapper config).emitted start calls), bind.byWrapper = true → bind.result ≠ .refused := by
  have both : (wrapper config).AllSteps (fun s call => InStep config s call ∧ Accepting call) start calls :=
    fun entry member => ⟨inStep entry member, accepting entry member⟩
  have run := (wrapper config).history_invariant (fun s call => InStep config s call ∧ Accepting call)
    (fun past now => Sound config now ∧
      ∀ bind ∈ binds (past.flatMap Entry.emitted), bind.byWrapper = true → bind.result ≠ .refused)
    ⟨.of_fresh fresh, by simp [binds]⟩ ?_ calls both
  · exact run.2
  · intro past now call ⟨sound, granted⟩ ⟨here, accepted⟩
    refine ⟨(step_spec sound here).1, ?_⟩
    rw [List.flatMap_append, binds_append, List.flatMap_singleton]
    intro bind member
    rcases List.mem_append.mp member with inPast | last
    · exact granted bind inPast
    · exact step_accepting sound accepted bind last

/-- In every run in step, the wrapper binds no socket that is bound, and nothing binds again after a bind that succeeded;
if the kernel refuses none of its binds, it tries at most once. -/
theorem wrapper_binds_once (config : Config) {start : State} (fresh : start.Fresh) {calls : List Call}
    (inStep : (wrapper config).AllSteps (InStep config) start calls) :
    (∀ bind ∈ binds ((wrapper config).emitted start calls), bind.byWrapper = true → bind.result ≠ .alreadyBound) ∧
      (binds ((wrapper config).emitted start calls)).Pairwise (fun earlier later =>
        earlier.file = later.file → later.byWrapper = true → earlier.result ≠ .ok) ∧
      ((wrapper config).AllSteps (fun _ call => Accepting call) start calls → ∀ file,
        ((binds ((wrapper config).emitted start calls)).filter fun bind => bind.byWrapper && bind.file == file).length ≤ 1) := by
  have history := history_run fresh inStep
  refine ⟨history.fresh, history.settled, fun accepting file => ?_⟩
  have granted := accepting_run fresh inStep accepting
  have own : ∀ bind ∈ (binds ((wrapper config).emitted start calls)).filter fun bind => bind.byWrapper && bind.file == file,
      bind.byWrapper = true ∧ bind.file = file ∧ bind.result = .ok := by
    intro bind member
    obtain ⟨made, mine⟩ := List.mem_filter.mp member
    rw [Bool.and_eq_true, beq_iff_eq] at mine
    have free := history.fresh bind made mine.1
    have accepted := granted bind made mine.1
    refine ⟨mine.1, mine.2, ?_⟩
    cases result : bind.result with
    | ok => rfl
    | alreadyBound => exact absurd result free
    | refused => exact absurd result accepted
  have apart := history.settled.filter fun bind => bind.byWrapper && bind.file == file
  generalize (binds ((wrapper config).emitted start calls)).filter (fun bind => bind.byWrapper && bind.file == file) = mine
    at own apart
  match mine with
  | [] => exact Nat.zero_le 1
  | [_] => exact le_rfl
  | first :: second :: rest =>
      have one := own first List.mem_cons_self
      have two := own second (List.mem_cons_of_mem _ List.mem_cons_self)
      have never := List.rel_of_pairwise_cons apart List.mem_cons_self
      exact absurd one.2.2 (never (one.2.1.trans two.2.1.symm) two.1)

/-- A source for IPv4 and nothing else. -/
def ipv4Only : Config := ⟨.given, .none, false, false⟩

theorem emptyState_fresh : emptyState.Fresh := ⟨fun _ => rfl, fun _ _ here => nomatch here⟩

/-- Connecting, duplicating, using the duplicate and reusing the number. -/
def orderlyCalls : List Call :=
  [.socket .inet 3, .connect 3 true false, .dup2 3 9 true, .close 3, .send 9 true false, .socket .inet 3]

theorem wrapper_binds_once_reused_number :
    ((binds ((wrapper ipv4Only).emitted emptyState orderlyCalls)).filter fun bind => bind.byWrapper && bind.file == 0).length ≤ 1 := by
  have inStep : (wrapper ipv4Only).AllSteps (InStep ipv4Only) emptyState orderlyCalls := by
    simp only [orderlyCalls, Transducer.allSteps_cons, Transducer.allSteps_nil, InStep, and_true, true_and]
    refine ⟨?_, ?_, ?_⟩
    · intro file _ other different there
      simp [wrapper, step, socket, ipv4Only, emptyState, Config.reject, Config.source, Kernel.create, maxFds, State.setInfo,
        different] at there
    · intro far
      exact absurd far (by decide)
    · intro file _ other different there
      simp [wrapper, step, socket, ipv4Only, emptyState, Config.reject, Config.source, Kernel.create, maxFds, State.setInfo,
        bindAndUse, dobind, bindSourceAddr, State.tracked, Kernel.bind, Kernel.bindTo, Kernel.use, duplicate, Kernel.duplicate,
        syncFdState, close, Function.update_apply, different] at there
      exact absurd there.2.1 there.1
  have accepting : (wrapper ipv4Only).AllSteps (fun _ call => Accepting call) emptyState orderlyCalls := by
    simp [orderlyCalls, Accepting]
  exact (wrapper_binds_once ipv4Only emptyState_fresh inStep).2.2 accepting 0

/-- A duplicate made before the socket is bound: the wrapper binds it a second time, the program's call fails, also when
the program itself has bound the socket. -/
theorem duplicate_is_bound_again :
    (wrapper ipv4Only).emitted emptyState [.socket .inet 3, .dup 3 4, .connect 3 true false, .send 4 true false] =
        [.bind ⟨true, 0, .ok⟩, .bind ⟨true, 0, .alreadyBound⟩, .failed] ∧
      (wrapper ipv4Only).emitted emptyState
          [.socket .inet 3, .dup 3 4, .bind 4 (some ⟨.inet, 16⟩) true, .send 3 true false] =
        [.bind ⟨false, 0, .ok⟩, .bind ⟨true, 0, .alreadyBound⟩, .failed] := by
  decide

end XWrt.Mwan3.Sockopt
