import XWrt.Foundation.Transducer
import XWrt.Quectel.QmapFormat

/-!
# Aggregation of packets to the modem

`rmnet_vnd_start_xmit`, `rmnet_usb_tx_agg` and `rmnet_usb_tx_agg_work` of
`qmi_wwan_q.c`. Framed packets are put behind one another until the buffer is
full, there are enough of them, one of them is urgent or a timer runs out. The
buffer is emptied under `agg_lock` and handed to the USB device after the lock is
dropped, by the thread that sends a packet or by the work of the timer: what is
handed over are whole frames, and only a buffer of the work can be overtaken.
-/

namespace XWrt.Quectel.Qmap

open XWrt.Foundation

/-- The private data of a network device and the settings of its modem. -/
structure Priv where
  qmapVersion : ℕ
  muxId : UInt8
  ether : Bool
  maxDatagrams : ℕ
  maxSize : ℕ
  aggTimeLimit : ℤ
  aggBypassTime : ℤ

structure Agg where
  aggSkb : Option (List UInt8)
  aggCount : ℕ
  aggTime : ℤ
deriving DecidableEq, Repr

/-! ## Framing -/

/-- What is behind the Ethernet header, where the device has one. -/
def pulled (priv : Priv) (skb : Skb) : Option Skb :=
  if priv.ether then
    if skb.data.length < 14 then none else some { skb with data := skb.data.drop 14 }
  else some skb

/-- The frame of a packet; without a version the packet is dropped. -/
def framed (priv : Priv) (skb : Skb) : Option Skb :=
  (pulled priv skb).bind fun skb =>
    if priv.qmapVersion = 5 then some (addQhdr skb priv.muxId)
    else if priv.qmapVersion = 9 then some (addQhdrV5 skb priv.muxId)
    else none

/-! ## The aggregation buffer -/

/-- A difference of times is more than a second or, below it, the limit. -/
def late (diff limit : ℤ) : Bool := decide (0 < diff / 1000000000) || decide (limit < diff % 1000000000)

def IPPROTO_ICMP : ℕ := 1
def IPPROTO_TCP : ℕ := 6
def NEXTHDR_FRAGMENT : ℕ := 44
def IPPROTO_ICMPV6 : ℕ := 58

/-- The push flag of a TCP header. -/
def psh (data : List UInt8) (offset : ℕ) : Bool := byteAt data (offset + 13) / 8 % 2 = 1

/-- Packets that should not wait. -/
def rmnetUsbTxAggSkip (skb : Skb) (offset : ℕ) : Bool :=
  match skb.protocol with
  | .ip =>
      if byteAt skb.data (offset + 9) = IPPROTO_TCP then psh skb.data (offset + 20)
      else byteAt skb.data (offset + 9) = IPPROTO_ICMP
  | .ipv6 =>
      if byteAt skb.data (offset + 6) = IPPROTO_TCP then psh skb.data (offset + 40)
      else if byteAt skb.data (offset + 6) = IPPROTO_ICMPV6 then true
      else if byteAt skb.data (offset + 6) = NEXTHDR_FRAGMENT then
        byteAt skb.data (offset + 40) = IPPROTO_ICMPV6
      else false
  | .other => false

def urgent (skb : Skb) (xmitMore : Bool) : Bool := !xmitMore && rmnetUsbTxAggSkip skb (hdrSize skb.data)

/-- The thread in `rmnet_usb_tx_agg`: at `new_packet` with a packet, or before
`dev_queue_xmit` with what it took and the packet with which it then goes back. -/
inductive Xmit where
  | idle
  | waiting (skb : Skb) (xmitMore : Bool)
  | sending (data : List UInt8) (next : Option (Skb × Bool))
deriving DecidableEq

/-- What is done under `agg_lock`. `room` says whether a buffer can be allocated. -/
def newPacket (priv : Priv) (s : Agg) (skb : Skb) (xmitMore : Bool) (now : ℤ) (room : Bool) : Agg × Xmit :=
  match s.aggSkb with
  | some buffer =>
      if buffer.length + skb.data.length < priv.maxSize then
        if late (now - s.aggTime) priv.aggTimeLimit || s.aggCount + 1 == priv.maxDatagrams ||
            urgent skb xmitMore then
          (⟨none, 0, now⟩, .sending (buffer ++ skb.data) none)
        else ({ s with aggSkb := some (buffer ++ skb.data), aggCount := s.aggCount + 1 }, .idle)
      else (⟨none, 0, now⟩, .sending buffer (some (skb, xmitMore)))
  | none =>
      if late (now - s.aggTime) priv.aggBypassTime || urgent skb xmitMore || !room then
        ({ s with aggTime := now }, .sending skb.data none)
      else ({ s with aggSkb := some skb.data, aggCount := s.aggCount + 1 }, .idle)

/-- `rmnet_vnd_start_xmit`, up to the lock. -/
def rmnetVndStartXmit (priv : Priv) (skb : Skb) (xmitMore : Bool) : Xmit :=
  match framed priv skb with
  | none => .idle
  | some skb => if priv.maxDatagrams = 1 then .sending skb.data none else .waiting skb xmitMore

def rmnetUsbTxAggWork (s : Agg) (now : ℤ) : Agg × Option (List UInt8) :=
  match s.aggSkb with
  | none => (s, none)
  | some buffer => (⟨none, 0, now⟩, some buffer)

/-! ## The two threads -/

inductive Thread where
  | xmit
  | work
deriving DecidableEq, Repr

/-- The device with its two threads; the work has dropped the lock and holds
what it took. -/
structure Link where
  agg : Agg
  xmit : Xmit
  work : Option (List UInt8)

/-- A packet comes, a thread gets the lock, or it hands over what it took. -/
inductive Turn where
  | startXmit (skb : Skb) (xmitMore : Bool)
  | newPacket (now : ℤ) (room : Bool)
  | xmitQueue
  | work (now : ℤ)
  | workQueue

/-- A turn of a thread that is elsewhere does nothing. -/
def step (priv : Priv) (link : Link) : Turn → Link × List (Thread × List UInt8)
  | .startXmit skb xmitMore =>
      match link.xmit with
      | .idle => ({ link with xmit := rmnetVndStartXmit priv skb xmitMore }, [])
      | _ => (link, [])
  | .newPacket now room =>
      match link.xmit with
      | .waiting skb xmitMore =>
          let result := newPacket priv link.agg skb xmitMore now room
          ({ link with agg := result.1, xmit := result.2 }, [])
      | _ => (link, [])
  | .xmitQueue =>
      match link.xmit with
      | .sending data none => ({ link with xmit := .idle }, [(.xmit, data)])
      | .sending data (some (skb, xmitMore)) => ({ link with xmit := .waiting skb xmitMore }, [(.xmit, data)])
      | _ => (link, [])
  | .work now =>
      match link.work with
      | none =>
          let result := rmnetUsbTxAggWork link.agg now
          ({ link with agg := result.1, work := result.2 }, [])
      | some _ => (link, [])
  | .workQueue =>
      match link.work with
      | some data => ({ link with work := none }, [(.work, data)])
      | none => (link, [])

def sender (priv : Priv) : Transducer Link Turn (Thread × List UInt8) := ⟨step priv⟩

/-- A device that has not sent yet. -/
def Link.new (time : ℤ) : Link := ⟨⟨none, 0, time⟩, .idle, none⟩

/-- The network core sends a packet of a device after the one before. -/
def Serial (link : Link) : Turn → Prop
  | .startXmit _ _ => link.xmit = .idle
  | _ => True

/-- The work hands over what it took before the other thread hands over something. -/
def Prompt (link : Link) : Turn → Prop
  | .xmitQueue => link.work = none
  | _ => True

instance (link : Link) : DecidablePred (Serial link)
  | .startXmit _ _ => inferInstanceAs (Decidable (link.xmit = .idle))
  | .newPacket _ _ | .xmitQueue | .work _ | .workQueue => .isTrue trivial

instance (link : Link) : DecidablePred (Prompt link)
  | .xmitQueue => inferInstanceAs (Decidable (link.work = none))
  | .startXmit _ _ | .newPacket _ _ | .work _ | .workQueue => .isTrue trivial

/-- The frame that a turn brings. -/
def frameOf (priv : Priv) : Turn → Option (List UInt8)
  | .startXmit skb _ => (framed priv skb).map Skb.data
  | _ => none

/-! ## What is in the buffer -/

variable {priv : Priv} {s : Agg} {link : Link}

/-- Frames that may be sent together. -/
structure Fits (priv : Priv) (frames : List (List UInt8)) : Prop where
  some : frames ≠ []
  size : frames.flatten.length ≤ priv.maxSize
  number : priv.maxDatagrams ≠ 0 → frames.length ≤ priv.maxDatagrams

/-- The buffer holds these frames, and there is room for another. -/
structure Holds (priv : Priv) (s : Agg) (pending : List (List UInt8)) : Prop where
  skb : s.aggSkb = if pending = [] then none else some pending.flatten
  count : s.aggCount = pending.length
  size : pending.flatten.length ≤ priv.maxSize
  number : pending ≠ [] → priv.maxDatagrams ≠ 1 ∧
    (priv.maxDatagrams ≠ 0 → pending.length < priv.maxDatagrams)

theorem Holds.empty (time : ℤ) : Holds priv ⟨none, 0, time⟩ [] :=
  ⟨rfl, rfl, Nat.zero_le _, fun some => absurd rfl some⟩

theorem Holds.fits {pending : List (List UInt8)} (holds : Holds priv s pending)
    (some : pending ≠ []) : Fits priv pending :=
  ⟨some, holds.size, fun limited => Nat.le_of_lt ((holds.number some).2 limited)⟩

theorem fits_single {data : List UInt8} (size : data.length ≤ priv.maxSize) : Fits priv [data] :=
  ⟨List.cons_ne_nil _ _, by simpa using size, fun limited => by
    rw [List.length_singleton]
    omega⟩

/-- What a thread took and has not handed over. -/
def Xmit.held : Xmit → List (List UInt8)
  | .sending data _ => [data]
  | _ => []

/-- The frame with which the thread comes to the lock. -/
def Xmit.frame : Xmit → List (List UInt8)
  | .waiting skb _ | .sending _ (some (skb, _)) => [skb.data]
  | _ => []

def Link.held (link : Link) : Thread → List (List UInt8)
  | .xmit => link.xmit.held
  | .work => link.work.toList

/-- Groups of frames with the thread that took them. -/
abbrev Groups := List (Thread × List (List UInt8))

/-- The groups that a thread took, as it hands them over. -/
def Groups.takenBy (groups : Groups) (thread : Thread) : List (List UInt8) :=
  (groups.filter (·.1 = thread)).map fun group => group.2.flatten

/-- What a thread handed over. -/
def handedBy (handed : List (Thread × List UInt8)) (thread : Thread) : List (List UInt8) :=
  (handed.filter (·.1 = thread)).map Prod.snd

/-- The frames in the buffer of the device. While the thread that sends holds
something, the buffer is empty: so the work never takes what came later. -/
structure Carries (priv : Priv) (link : Link) (buffered : List (List UInt8)) : Prop where
  holds : Holds priv link.agg buffered
  frame : ∀ data ∈ link.xmit.frame, data.length ≤ priv.maxSize ∧ priv.maxDatagrams ≠ 1
  empty : link.xmit.held ≠ [] → buffered = []

/-- From the one device to the other some groups leave the buffer, and some are handed over. -/
structure Moves (priv : Priv) (link : Link) (buffered new : List (List UInt8))
    (result : Link × List (Thread × List UInt8)) (groups : Groups) (kept : List (List UInt8)) : Prop where
  carries : Carries priv result.1 kept
  order : groups.flatMap Prod.snd ++ kept ++ result.1.xmit.frame = buffered ++ link.xmit.frame ++ new
  fits : ∀ group ∈ groups, Fits priv group.2
  threads : ∀ thread, handedBy result.2 thread ++ result.1.held thread = link.held thread ++ groups.takenBy thread

/-- What was handed over and what the threads hold is what they held and took. -/
def InOrder (link : Link) (result : Link × List (Thread × List UInt8)) (groups : Groups) : Prop :=
  result.2.map Prod.snd ++ result.1.held .work ++ result.1.held .xmit =
    link.held .work ++ link.held .xmit ++ groups.map fun group => group.2.flatten

/-! ## One turn -/

/-- What the lock lets a thread take: these groups, while the rest stays in the buffer. -/
structure Takes (priv : Priv) (frames : List (List UInt8)) (result : Agg × Xmit)
    (groups : List (List (List UInt8))) (kept : List (List UInt8)) : Prop where
  holds : Holds priv result.1 kept
  frame : ∀ data ∈ result.2.frame, data.length ≤ priv.maxSize
  empty : result.2.held ≠ [] → kept = []
  order : groups.flatten ++ kept ++ result.2.frame = frames
  held : result.2.held = groups.map List.flatten
  fits : ∀ group ∈ groups, Fits priv group

theorem takes_newPacket {skb : Skb} {buffered : List (List UInt8)} (holds : Holds priv s buffered)
    (several : priv.maxDatagrams ≠ 1) (size : skb.data.length ≤ priv.maxSize) (xmitMore : Bool) (now : ℤ)
    (room : Bool) :
    ∃ groups kept, Takes priv (buffered ++ [skb.data]) (newPacket priv s skb xmitMore now room) groups kept := by
  unfold newPacket
  by_cases none : buffered = []
  · subst none
    rw [holds.skb, if_pos rfl]
    dsimp only
    split_ifs with alone
    · refine ⟨[[skb.data]], [], ⟨rfl, holds.count, holds.size, holds.number⟩, by simp [Xmit.frame],
        fun _ => rfl, by simp [Xmit.frame], by simp [Xmit.held], ?_⟩
      exact List.forall_mem_singleton.mpr (fits_single size)
    · refine ⟨[], [skb.data], ⟨by simp, ?_, by simpa using size, fun _ => ⟨several, fun limited => ?_⟩⟩,
        by simp [Xmit.frame], by simp [Xmit.held], by simp [Xmit.frame], by simp [Xmit.held], by simp⟩
      · simpa using holds.count
      · rw [List.length_singleton]
        omega
  rw [holds.skb, if_neg none]
  dsimp only
  by_cases space : buffered.flatten.length + skb.data.length < priv.maxSize
  · have joined : (buffered ++ [skb.data]).flatten = buffered.flatten ++ skb.data := by simp
    have fitting : (buffered ++ [skb.data]).flatten.length ≤ priv.maxSize := by
      rw [joined, List.length_append]
      omega
    rw [if_pos space]
    split_ifs with ready
    · refine ⟨[buffered ++ [skb.data]], [], Holds.empty now, by simp [Xmit.frame], fun _ => rfl,
        by simp [Xmit.frame], by simp [Xmit.held], List.forall_mem_singleton.mpr ⟨by simp, fitting, fun limited => ?_⟩⟩
      have := (holds.number none).2 limited
      rw [List.length_append, List.length_singleton]
      omega
    · refine ⟨[], buffered ++ [skb.data], ⟨by simp, ?_, fitting, fun _ => ⟨several, fun limited => ?_⟩⟩,
        by simp [Xmit.frame], by simp [Xmit.held], by simp [Xmit.frame], by simp [Xmit.held], by simp⟩
      · simp [holds.count]
      · have below := (holds.number none).2 limited
        have other : s.aggCount + 1 ≠ priv.maxDatagrams := fun equal => ready (by simp [equal])
        rw [holds.count] at other
        rw [List.length_append, List.length_singleton]
        omega
  · -- the buffer goes first, and the thread comes back with the packet
    rw [if_neg space]
    refine ⟨[buffered], [], Holds.empty now, ?_, fun _ => rfl, by simp [Xmit.frame], by simp [Xmit.held],
      List.forall_mem_singleton.mpr (holds.fits none)⟩
    exact List.forall_mem_singleton.mpr size

/-- A turn that takes nothing. -/
theorem Moves.nothing {link after : Link} {buffered new : List (List UInt8)} {handed : List (Thread × List UInt8)}
    (carries : Carries priv after buffered)
    (order : buffered ++ after.xmit.frame = buffered ++ link.xmit.frame ++ new)
    (threads : ∀ thread, handedBy handed thread ++ after.held thread = link.held thread) :
    Moves priv link buffered new (after, handed) [] buffered :=
  ⟨carries, by simpa using order, by simp, fun thread => by simpa [Groups.takenBy] using threads thread⟩

theorem Moves.still {buffered : List (List UInt8)} (carries : Carries priv link buffered) :
    Moves priv link buffered [] (link, []) [] buffered :=
  .nothing carries (by simp) fun _ => rfl

theorem InOrder.still : InOrder link (link, []) [] := by simp [InOrder]

theorem moves_startXmit {buffered : List (List UInt8)} (carries : Carries priv link buffered) (skb : Skb)
    (xmitMore : Bool) (idle : link.xmit = .idle)
    (size : ∀ behind ∈ framed priv skb, behind.data.length ≤ priv.maxSize) :
    ∃ groups kept, Moves priv link buffered (frameOf priv (.startXmit skb xmitMore)).toList
        (step priv link (.startXmit skb xmitMore)) groups kept ∧
      InOrder link (step priv link (.startXmit skb xmitMore)) groups := by
  simp only [step, idle, rmnetVndStartXmit, frameOf]
  cases frame : framed priv skb with
  | none =>
    refine ⟨[], buffered, .nothing ⟨carries.holds, by simp [Xmit.frame], by simp [Xmit.held]⟩ ?_ fun thread => ?_, ?_⟩
    · simp [idle, Xmit.frame]
    · cases thread <;> simp [handedBy, Link.held, idle]
    · simp [InOrder, Link.held, idle]
  | some skb =>
    have fits := size skb frame
    dsimp only
    by_cases one : priv.maxDatagrams = 1
    · have none : buffered = [] := by
        by_contra some
        exact (carries.holds.number some).1 one
      subst none
      rw [if_pos one]
      refine ⟨[(.xmit, [skb.data])], [], ⟨⟨carries.holds, by simp [Xmit.frame], fun _ => rfl⟩, ?_, ?_, fun thread => ?_⟩, ?_⟩
      · simp [idle, Xmit.frame]
      · exact List.forall_mem_singleton.mpr (fits_single fits)
      · cases thread <;> simp [handedBy, Link.held, idle, Xmit.held, Groups.takenBy]
      · simp [InOrder, Link.held, idle, Xmit.held]
    · rw [if_neg one]
      refine ⟨[], buffered, .nothing ⟨carries.holds, ?_, by simp [Xmit.held]⟩ ?_ fun thread => ?_, ?_⟩
      · exact List.forall_mem_singleton.mpr ⟨fits, one⟩
      · simp [idle, Xmit.frame]
      · cases thread <;> simp [handedBy, Link.held, idle, Xmit.held]
      · simp [InOrder, Link.held, idle, Xmit.held]

theorem moves_newPacket {buffered : List (List UInt8)} (carries : Carries priv link buffered) (now : ℤ) (room : Bool) :
    ∃ groups kept, Moves priv link buffered [] (step priv link (.newPacket now room)) groups kept ∧
      InOrder link (step priv link (.newPacket now room)) groups := by
  cases xmit : link.xmit with
  | idle | sending =>
    simp only [step, xmit]
    exact ⟨[], buffered, .still carries, .still⟩
  | waiting skb xmitMore =>
    obtain ⟨size, several⟩ := carries.frame skb.data (by simp [xmit, Xmit.frame])
    obtain ⟨groups, kept, takes⟩ := takes_newPacket carries.holds several size xmitMore now room
    have free : link.xmit.held = [] := by
      rw [xmit]
      rfl
    simp only [step, xmit]
    refine ⟨groups.map fun group => (.xmit, group), kept,
      ⟨⟨takes.holds, fun data member => ⟨takes.frame data member, several⟩, takes.empty⟩, ?_, ?_, fun thread => ?_⟩, ?_⟩
    · rw [xmit]
      simpa [List.flatMap_map, Xmit.frame] using takes.order
    · simpa using takes.fits
    · cases thread with
      | xmit => simp [handedBy, Link.held, free, Groups.takenBy, takes.held, List.filter_map, Function.comp_def]
      | work => simp [handedBy, Link.held, Groups.takenBy, List.filter_map, Function.comp_def]
    · simp [InOrder, Link.held, free, takes.held, Function.comp_def]

theorem moves_xmitQueue {buffered : List (List UInt8)} (carries : Carries priv link buffered) :
    ∃ groups kept, Moves priv link buffered [] (step priv link .xmitQueue) groups kept ∧
      (link.work = none → InOrder link (step priv link .xmitQueue) groups) := by
  cases xmit : link.xmit with
  | idle | waiting =>
    simp only [step, xmit]
    exact ⟨[], buffered, .still carries, fun _ => .still⟩
  | sending data next =>
    cases next with
    | none =>
      simp only [step, xmit]
      refine ⟨[], buffered, .nothing ⟨carries.holds, by simp [Xmit.frame], by simp [Xmit.held]⟩ ?_ fun thread => ?_,
        fun idle => ?_⟩
      · simp [xmit, Xmit.frame]
      · cases thread <;> simp [handedBy, Link.held, xmit, Xmit.held]
      · simp [InOrder, Link.held, xmit, Xmit.held, idle]
    | some packet =>
      simp only [step, xmit]
      refine ⟨[], buffered, .nothing ⟨carries.holds, ?_, by simp [Xmit.held]⟩ ?_ fun thread => ?_, fun idle => ?_⟩
      · simpa [xmit, Xmit.frame] using carries.frame
      · simp [xmit, Xmit.frame]
      · cases thread <;> simp [handedBy, Link.held, xmit, Xmit.held]
      · simp [InOrder, Link.held, xmit, Xmit.held, idle]

theorem moves_work {buffered : List (List UInt8)} (carries : Carries priv link buffered) (now : ℤ) :
    ∃ groups kept, Moves priv link buffered [] (step priv link (.work now)) groups kept ∧
      InOrder link (step priv link (.work now)) groups := by
  cases work : link.work with
  | some data =>
    simp only [step, work]
    exact ⟨[], buffered, .still carries, .still⟩
  | none =>
    simp only [step, work, rmnetUsbTxAggWork]
    by_cases none : buffered = []
    · rw [carries.holds.skb, if_pos none]
      refine ⟨[], buffered, .nothing ⟨carries.holds, carries.frame, carries.empty⟩ (by simp) fun thread => ?_, ?_⟩
      · cases thread <;> simp [handedBy, Link.held, work]
      · simp [InOrder, Link.held, work]
    · rw [carries.holds.skb, if_neg none]
      have free : link.xmit.held = [] := by
        by_contra held
        exact none (carries.empty held)
      refine ⟨[(.work, buffered)], [], ⟨⟨Holds.empty now, carries.frame, fun _ => rfl⟩, by simp,
        List.forall_mem_singleton.mpr (carries.holds.fits none), fun thread => ?_⟩, ?_⟩
      · cases thread <;> simp [handedBy, Link.held, work, Groups.takenBy]
      · simp [InOrder, Link.held, work, free]

theorem moves_workQueue {buffered : List (List UInt8)} (carries : Carries priv link buffered) :
    ∃ groups kept, Moves priv link buffered [] (step priv link .workQueue) groups kept ∧
      InOrder link (step priv link .workQueue) groups := by
  cases work : link.work with
  | none =>
    simp only [step, work]
    exact ⟨[], buffered, .still carries, .still⟩
  | some data =>
    simp only [step, work]
    refine ⟨[], buffered, .nothing ⟨carries.holds, carries.frame, carries.empty⟩ (by simp) fun thread => ?_, ?_⟩
    · cases thread <;> simp [handedBy, Link.held, work]
    · simp [InOrder, Link.held, work]

theorem moves_step {turn : Turn} {buffered : List (List UInt8)} (carries : Carries priv link buffered)
    (serial : Serial link turn) (size : ∀ data ∈ frameOf priv turn, data.length ≤ priv.maxSize) :
    ∃ groups kept, Moves priv link buffered (frameOf priv turn).toList (step priv link turn) groups kept ∧
      (Prompt link turn → InOrder link (step priv link turn) groups) := by
  cases turn with
  | startXmit skb xmitMore =>
    have small : ∀ behind ∈ framed priv skb, behind.data.length ≤ priv.maxSize := fun behind frame =>
      size behind.data (Option.mem_map_of_mem Skb.data frame)
    obtain ⟨groups, kept, moves, order⟩ := moves_startXmit carries skb xmitMore serial small
    exact ⟨groups, kept, moves, fun _ => order⟩
  | newPacket now room =>
    obtain ⟨groups, kept, moves, order⟩ := moves_newPacket carries now room
    exact ⟨groups, kept, moves, fun _ => order⟩
  | xmitQueue => exact moves_xmitQueue carries
  | work now =>
    obtain ⟨groups, kept, moves, order⟩ := moves_work carries now
    exact ⟨groups, kept, moves, fun _ => order⟩
  | workQueue =>
    obtain ⟨groups, kept, moves, order⟩ := moves_workQueue carries
    exact ⟨groups, kept, moves, fun _ => order⟩

/-! ## Runs -/

theorem handedBy_append (first second : List (Thread × List UInt8)) (thread : Thread) :
    handedBy (first ++ second) thread = handedBy first thread ++ handedBy second thread := by
  simp [handedBy]

theorem takenBy_append (first second : Groups) (thread : Thread) :
    Groups.takenBy (first ++ second) thread = first.takenBy thread ++ second.takenBy thread := by
  simp [Groups.takenBy]

theorem Moves.trans {middle last : Link} {buffered between new later kept : List (List UInt8)}
    {handed others : List (Thread × List UInt8)} {first second : Groups}
    (one : Moves priv link buffered new (middle, handed) first between)
    (two : Moves priv middle between later (last, others) second kept) :
    Moves priv link buffered (new ++ later) (last, handed ++ others) (first ++ second) kept := by
  refine ⟨two.carries, ?_, fun group member => ?_, fun thread => ?_⟩
  · have before := one.order
    have after := two.order
    simp only at before after ⊢
    rw [List.flatMap_append, List.append_assoc, List.append_assoc, ← List.append_assoc (second.flatMap _), after,
      ← List.append_assoc, ← List.append_assoc, before, List.append_assoc _ new]
  · rcases List.mem_append.mp member with early | late
    · exact one.fits group early
    · exact two.fits group late
  · rw [handedBy_append, takenBy_append, List.append_assoc, two.threads thread, ← List.append_assoc,
      one.threads thread, List.append_assoc]

theorem InOrder.trans {middle last : Link} {handed others : List (Thread × List UInt8)} {first second : Groups}
    (one : InOrder link (middle, handed) first) (two : InOrder middle (last, others) second) :
    InOrder link (last, handed ++ others) (first ++ second) := by
  unfold InOrder at one two ⊢
  simp only at one two ⊢
  rw [List.map_append, List.map_append, ← List.append_assoc (link.held _ ++ _), ← one, List.append_assoc,
    List.append_assoc, ← List.append_assoc (others.map _), two]
  simp only [List.append_assoc]

theorem moves_run {buffered : List (List UInt8)} (turns : List Turn) (carries : Carries priv link buffered)
    (serial : (sender priv).AllSteps Serial link turns)
    (size : ∀ turn ∈ turns, ∀ data ∈ frameOf priv turn, data.length ≤ priv.maxSize) :
    ∃ groups kept, Moves priv link buffered (turns.filterMap (frameOf priv))
        ((sender priv).final link turns, (sender priv).emitted link turns) groups kept ∧
      ((sender priv).AllSteps Prompt link turns →
        InOrder link ((sender priv).final link turns, (sender priv).emitted link turns) groups) := by
  induction turns generalizing link buffered with
  | nil => exact ⟨[], buffered, .still carries, fun _ => .still⟩
  | cons turn rest ih =>
    obtain ⟨here, there⟩ := (Transducer.allSteps_cons _ _ _ _ _).mp serial
    obtain ⟨groups, between, moves, inOrder⟩ := moves_step carries here (size turn List.mem_cons_self)
    obtain ⟨later, kept, behind, alsoInOrder⟩ := ih moves.carries there fun other member =>
      size other (List.mem_cons_of_mem _ member)
    have frames : (turn :: rest).filterMap (frameOf priv) =
        (frameOf priv turn).toList ++ rest.filterMap (frameOf priv) := by
      rw [List.filterMap_cons]
      cases frameOf priv turn <;> rfl
    refine ⟨groups ++ later, kept, frames ▸ moves.trans behind, fun prompt => ?_⟩
    obtain ⟨now, after⟩ := (Transducer.allSteps_cons _ _ _ _ _).mp prompt
    exact (inOrder now).trans (alsoInOrder after)

theorem Carries.new (time : ℤ) : Carries priv (Link.new time) [] :=
  ⟨.empty time, by simp [Link.new, Xmit.frame], fun _ => rfl⟩

/-- Whatever leaves the buffer are groups of whole frames, each within the limits
of the modem, and the groups with what waits are the frames in the order in which
the packets came. Each group is handed over once by the thread that took it, in
the order of the thread, and in the order of all when the work is prompt. -/
theorem sent_in_groups (time : ℤ) (turns : List Turn)
    (serial : (sender priv).AllSteps Serial (Link.new time) turns)
    (size : ∀ turn ∈ turns, ∀ data ∈ frameOf priv turn, data.length ≤ priv.maxSize) :
    let last := (sender priv).final (Link.new time) turns
    let handed := (sender priv).emitted (Link.new time) turns
    ∃ (groups : Groups) (pending : List (List UInt8)),
      groups.flatMap Prod.snd ++ pending = turns.filterMap (frameOf priv) ∧
      pending.flatten = last.agg.aggSkb.getD [] ++ last.xmit.frame.flatten ∧
      (∀ group ∈ groups, Fits priv group.2) ∧
      (∀ thread, handedBy handed thread ++ last.held thread = groups.takenBy thread) ∧
      ((sender priv).AllSteps Prompt (Link.new time) turns →
        handed.map Prod.snd ++ last.held .work ++ last.held .xmit = groups.map fun group => group.2.flatten) := by
  intro last handed
  obtain ⟨groups, kept, moves, inOrder⟩ := moves_run turns (Carries.new time) serial size
  refine ⟨groups, kept ++ last.xmit.frame, ?_, ?_, moves.fits, fun thread => ?_, fun prompt => ?_⟩
  · rw [← List.append_assoc]
    exact moves.order
  · rw [List.flatten_append, show last.agg.aggSkb = _ from moves.carries.holds.skb]
    split_ifs with empty
    · simp [empty]
    · rfl
  · refine (moves.threads thread).trans ?_
    cases thread <;> rfl
  · exact inOrder prompt

/-- A channel of version 9 that sends two packets at a time. -/
def pairs : Priv := ⟨9, 0x81, false, 2, 64, 1000000, 10000000⟩

/-- Three packets; the work takes the third, and a fourth, that is urgent, goes before it. -/
def overtaken : List Turn :=
  [.startXmit ⟨[0x45, 1, 2, 3, 4], [0, 0, 0], .ip⟩ true, .newPacket 7 true,
    .startXmit ⟨[0x45, 5, 6, 7], [], .ip⟩ true, .newPacket 8 true, .xmitQueue,
    .startXmit ⟨[0x60, 8, 9, 10], [], .ipv6⟩ true, .newPacket 9 true, .work 10,
    .startXmit ⟨[0x45, 0, 0, 0, 0, 0, 0, 0, 0, 1], [], .ip⟩ false, .newPacket 11 true, .xmitQueue, .workQueue]

/-- The same packets, with a prompt work. -/
def inTurn : List Turn :=
  [.startXmit ⟨[0x45, 1, 2, 3, 4], [0, 0, 0], .ip⟩ true, .newPacket 7 true,
    .startXmit ⟨[0x45, 5, 6, 7], [], .ip⟩ true, .newPacket 8 true, .xmitQueue,
    .startXmit ⟨[0x60, 8, 9, 10], [], .ipv6⟩ true, .newPacket 9 true, .work 10,
    .startXmit ⟨[0x45, 0, 0, 0, 0, 0, 0, 0, 0, 1], [], .ip⟩ false, .newPacket 11 true, .workQueue, .xmitQueue]

theorem sent_in_groups_overtaken :
    let last := (sender pairs).final (Link.new 0) overtaken
    let handed := (sender pairs).emitted (Link.new 0) overtaken
    ∃ (groups : Groups) (pending : List (List UInt8)),
      groups.flatMap Prod.snd ++ pending = overtaken.filterMap (frameOf pairs) ∧
      pending.flatten = last.agg.aggSkb.getD [] ++ last.xmit.frame.flatten ∧
      (∀ group ∈ groups, Fits pairs group.2) ∧
      (∀ thread, handedBy handed thread ++ last.held thread = groups.takenBy thread) ∧
      ((sender pairs).AllSteps Prompt (Link.new 0) overtaken →
        handed.map Prod.snd ++ last.held .work ++ last.held .xmit = groups.map fun group => group.2.flatten) :=
  sent_in_groups 0 overtaken (by decide) (by decide)

/-! ## Sender and receiver -/

/-- What the version of the header puts between header and packet. -/
def extensionOf (priv : Priv) : List UInt8 := if priv.qmapVersion = 5 then [] else ulHeader

/-- The frame that the sender makes of a packet. -/
def senderFrame (priv : Priv) (skb : Skb) : Frame :=
  ⟨false, extensionOf priv, padding skb, priv.muxId, skb.data, skb.tailroom.take (padding skb)⟩

theorem padding_le_tailroom (skb : Skb) : padding skb ≤ skb.tailroom.length := by
  unfold padding
  split_ifs <;> omega

theorem padding_lt (skb : Skb) : padding skb < 4 := by
  unfold padding
  split_ifs <;> omega

theorem length_put (skb : Skb) :
    (put skb (padding skb)).length = skb.data.length + padding skb := by
  rw [put, List.length_append, List.length_take, min_eq_left (padding_le_tailroom skb)]

/-- `add_qhdr` and `add_qhdr_v5` write the frame. -/
theorem framed_wire (version : priv.qmapVersion = 5 ∨ priv.qmapVersion = 9) {skb packet : Skb}
    (behind : pulled priv skb = some packet) :
    (framed priv skb).map Skb.data = some (senderFrame priv packet).wire := by
  have trailer : (packet.tailroom.take (padding packet)).length = padding packet := by
    rw [List.length_take, min_eq_left (padding_le_tailroom packet)]
  rw [framed, behind, Option.bind_some]
  rcases version with five | nine
  · simp only [five, if_true, addQhdr, Option.map_some, length_put]
    simp [senderFrame, Frame.wire, Frame.firstByte, extensionOf, five, trailer, put]
  · simp only [nine, Nat.reduceEqDiff, if_false, if_true, addQhdrV5, Option.map_some]
    simp [senderFrame, Frame.wire, Frame.firstByte, extensionOf, nine, trailer, put, ulHeader]

/-- A receiver with the channel of the sender and no least padding. -/
structure Receives (priv : Priv) (dev : Device) : Prop where
  version : priv.qmapVersion = 5 ∨ priv.qmapVersion = 9
  padding : minimumPadding dev = 0
  least : QUECTEL_QMAP_MUX_ID ≤ priv.muxId.toNat
  most : priv.muxId.toNat - QUECTEL_QMAP_MUX_ID < dev.qmapMode
  there : dev.netDev (priv.muxId.toNat - QUECTEL_QMAP_MUX_ID) = true

/-- The packet of a turn: behind the Ethernet header there is an IP packet of
at most 1500 bytes. -/
def Sent (priv : Priv) : Turn → Prop
  | .startXmit skb _ => ∃ packet, pulled priv skb = some packet ∧
      (senderFrame priv packet).protocol ≠ .other ∧ packet.data.length ≤ 1500
  | _ => True

/-- What the receiver should get. -/
def packetOf (priv : Priv) : Turn → Option Packet
  | .startXmit skb _ => (pulled priv skb).map fun packet =>
      ⟨priv.muxId.toNat - QUECTEL_QMAP_MUX_ID, (senderFrame priv packet).protocol, packet.data⟩
  | _ => none

variable {dev : Device}

theorem formed_senderFrame (receives : Receives priv dev) {packet : Skb}
    (short : packet.data.length ≤ 1500) : (senderFrame priv packet).Formed dev := by
  have trailer : (packet.tailroom.take (padding packet)).length = padding packet := by
    rw [List.length_take, min_eq_left (padding_le_tailroom packet)]
  have small := padding_lt packet
  refine ⟨?_, by simp only [senderFrame]; omega, ?_, ?_⟩
  · simp only [senderFrame, extensionOf]
    split_ifs
    · exact Or.inl rfl
    · exact Or.inr rfl
  · simp only [senderFrame, trailer, receives.padding, Nat.add_zero]
  · simp only [senderFrame, trailer]
    omega

/-- The frames of a run, as the receiver sees them. -/
theorem frames_of_turns (receives : Receives priv dev) (turns : List Turn)
    (sent : ∀ turn ∈ turns, Sent priv turn) :
    ∃ frames : List Frame, turns.filterMap (frameOf priv) = frames.map Frame.wire ∧
      (∀ frame ∈ frames, frame.Formed dev ∧ frame.Acceptable dev) ∧
      frames.map (Frame.delivered dev) = (turns.filterMap (packetOf priv)).map some := by
  induction turns with
  | nil => exact ⟨[], rfl, by simp, rfl⟩
  | cons turn rest ih =>
    obtain ⟨frames, wires, good, packets⟩ := ih fun other member =>
      sent other (List.mem_cons_of_mem _ member)
    cases turn with
    | newPacket | xmitQueue | work | workQueue => exact ⟨frames, wires, good, packets⟩
    | startXmit skb xmitMore =>
      obtain ⟨packet, behind, known, short⟩ := sent _ List.mem_cons_self
      have frame : frameOf priv (.startXmit skb xmitMore) =
          some (senderFrame priv packet).wire := framed_wire receives.version behind
      have delivered : packetOf priv (.startXmit skb xmitMore) =
          (senderFrame priv packet).delivered dev := by
        simp [packetOf, behind, Frame.delivered, senderFrame, Frame.channel, receives.there]
      have one : (senderFrame priv packet).delivered dev ≠ none := by
        simp [Frame.delivered, senderFrame, Frame.channel, receives.there]
      obtain ⟨got, is⟩ := Option.ne_none_iff_exists'.mp one
      refine ⟨senderFrame priv packet :: frames, ?_, fun other member => ?_, ?_⟩
      · rw [List.filterMap_cons_some frame, wires, List.map_cons]
      · rcases List.mem_cons.mp member with rfl | old
        · exact ⟨formed_senderFrame receives short, short,
            fun _ => ⟨known, receives.least, receives.most⟩⟩
        · exact good other old
      · rw [List.filterMap_cons_some (delivered.trans is), List.map_cons, List.map_cons, packets, is]

/-- Decoding group by group is decoding the frames one after the other. -/
theorem decode_groups (groups : List (List (List UInt8))) (frames : List Frame)
    (wires : groups.flatten = frames.map Frame.wire)
    (good : ∀ frame ∈ frames, frame.Formed dev ∧ frame.Acceptable dev) :
    (groups.map List.flatten).flatMap (decodeAll dev) =
      frames.filterMap (Frame.delivered dev) := by
  induction groups generalizing frames with
  | nil =>
    have none : frames = [] := by simpa using wires.symm
    rw [none]
    rfl
  | cons group rest ih =>
    rw [List.flatten_cons] at wires
    obtain ⟨first, later, rfl, here, there⟩ := List.map_eq_append_iff.mp wires.symm
    have one : decodeAll dev group.flatten = first.filterMap (Frame.delivered dev) := by
      have decoded := decodeAll_frames first
        (fun frame member => good frame (List.mem_append_left _ member)) []
      rw [List.append_nil, decodeAll_nil, List.append_nil] at decoded
      rw [← here, ← decoded, List.flatMap_def]
    rw [List.map_cons, List.flatMap_cons, one, List.filterMap_append,
      ih later there.symm fun frame member => good frame (List.mem_append_right _ member)]

theorem filter_threads {α : Type} (l : List (Thread × α)) :
    (l.filter (·.1 = .xmit) ++ l.filter (·.1 = .work)).Perm l := by
  have other : l.filter (·.1 = .work) = l.filter fun x => !decide (x.1 = .xmit) := by
    refine List.filter_congr fun x _ => ?_
    cases x.1 <;> rfl
  rw [other]
  exact List.filter_append_perm _ l

/-- What the threads handed over and hold are the groups that they took. -/
theorem handed_perm {last : Link} {handed : List (Thread × List UInt8)} {groups : Groups}
    (threads : ∀ thread, handedBy handed thread ++ last.held thread = groups.takenBy thread) :
    (handed.map Prod.snd ++ last.held .work ++ last.held .xmit).Perm (groups.map fun group => group.2.flatten) := by
  have given := (filter_threads handed).map Prod.snd
  have taken := (filter_threads groups).map fun group => group.2.flatten
  rw [List.map_append] at given taken
  calc handed.map Prod.snd ++ last.held .work ++ last.held .xmit
      _ |>.Perm ((handedBy handed .xmit ++ handedBy handed .work) ++ last.held .work ++ last.held .xmit) :=
        ((given.symm.append_right _).append_right _)
      _ |>.Perm ((handedBy handed .xmit ++ last.held .xmit) ++ (handedBy handed .work ++ last.held .work)) := by
        rw [List.append_assoc, List.append_assoc, List.append_assoc]
        refine List.Perm.append_left _ ?_
        rw [← List.append_assoc]
        exact List.perm_append_comm
      _ = groups.takenBy .xmit ++ groups.takenBy .work := by rw [threads, threads]
      _ |>.Perm _ := taken

/-- A receiver that decodes what the threads handed over and hold, and at last
what is still before them, gets the packets of the run, and when the work is
prompt it gets them in order. -/
theorem packets_arrive (receives : Receives priv dev) (time : ℤ) (turns : List Turn)
    (serial : (sender priv).AllSteps Serial (Link.new time) turns) (sent : ∀ turn ∈ turns, Sent priv turn)
    (size : ∀ turn ∈ turns, ∀ data ∈ frameOf priv turn, data.length ≤ priv.maxSize) :
    let last := (sender priv).final (Link.new time) turns
    let handed := ((sender priv).emitted (Link.new time) turns).map Prod.snd
    let got := (handed ++ last.held .work ++ last.held .xmit).flatMap (decodeAll dev) ++
      decodeAll dev (last.agg.aggSkb.getD [] ++ last.xmit.frame.flatten)
    got.Perm (turns.filterMap (packetOf priv)) ∧
      ((sender priv).AllSteps Prompt (Link.new time) turns → got = turns.filterMap (packetOf priv)) := by
  intro last handed got
  obtain ⟨groups, kept, moves, inOrder⟩ := moves_run turns (Carries.new time) serial size
  obtain ⟨frames, wires, good, packets⟩ := frames_of_turns receives turns sent
  have buffer : last.agg.aggSkb.getD [] = kept.flatten := by
    rw [show last.agg.aggSkb = _ from moves.carries.holds.skb]
    split_ifs with empty
    · simp [empty]
    · rfl
  have order : groups.flatMap Prod.snd ++ (kept ++ last.xmit.frame) = frames.map Frame.wire := by
    rw [← List.append_assoc, ← wires]
    exact moves.order
  have all := decode_groups (groups.map Prod.snd ++ [kept ++ last.xmit.frame]) frames
    (by rw [List.flatten_append, List.flatten_singleton, ← List.flatMap_def, order]) good
  have delivered : frames.filterMap (Frame.delivered dev) = turns.filterMap (packetOf priv) := by
    simpa [List.filterMap_map] using congrArg (List.filterMap id) packets
  rw [List.map_append, List.flatMap_append, List.map_singleton, List.flatMap_singleton, List.flatten_append,
    ← buffer, List.map_map, delivered] at all
  refine ⟨?_, fun prompt => ?_⟩
  · rw [← all]
    refine ((handed_perm fun thread => ?_).flatMap_right _).append_right _
    refine (moves.threads thread).trans ?_
    cases thread <;> rfl
  · rw [← all]
    exact congrArg (fun list => list.flatMap (decodeAll dev) ++ _) (inOrder prompt)

/-- Overtaken or not, the four packets arrive, and with a prompt work in order. -/
theorem packets_arrive_pairs :
    ((((sender pairs).emitted (Link.new 0) overtaken).map Prod.snd).flatMap
        (decodeAll ⟨9, 1, 0, fun _ => true⟩)).Perm (overtaken.filterMap (packetOf pairs)) ∧
      (((sender pairs).emitted (Link.new 0) inTurn).map Prod.snd).flatMap (decodeAll ⟨9, 1, 0, fun _ => true⟩) =
        [⟨0, .ip, [0x45, 1, 2, 3, 4]⟩, ⟨0, .ip, [0x45, 5, 6, 7]⟩, ⟨0, .ipv6, [0x60, 8, 9, 10]⟩,
          ⟨0, .ip, [0x45, 0, 0, 0, 0, 0, 0, 0, 0, 1]⟩] := by
  have receives : Receives pairs ⟨9, 1, 0, fun _ => true⟩ :=
    ⟨Or.inr rfl, rfl, by decide, by decide, rfl⟩
  have four : ∀ turn ∈ overtaken ++ inTurn, Sent pairs turn := by
    simp only [overtaken, inTurn, List.cons_append, List.nil_append, List.forall_mem_cons, Sent, true_and]
    refine ⟨⟨_, rfl, by decide, by decide⟩, ⟨_, rfl, by decide, by decide⟩, ⟨_, rfl, by decide, by decide⟩,
      ⟨_, rfl, by decide, by decide⟩, ⟨_, rfl, by decide, by decide⟩, ⟨_, rfl, by decide, by decide⟩,
      ⟨_, rfl, by decide, by decide⟩, ⟨_, rfl, by decide, by decide⟩, by simp⟩
  obtain ⟨some, -⟩ := packets_arrive receives 0 overtaken (by decide)
    (fun turn member => four turn (List.mem_append_left _ member)) (by decide)
  obtain ⟨-, prompt⟩ := packets_arrive receives 0 inTurn (by decide)
    (fun turn member => four turn (List.mem_append_right _ member)) (by decide)
  refine ⟨?_, ?_⟩
  · have nothing : ((sender pairs).final (Link.new 0) overtaken).held .work = [] ∧
        ((sender pairs).final (Link.new 0) overtaken).held .xmit = [] ∧
        ((sender pairs).final (Link.new 0) overtaken).agg.aggSkb.getD [] = [] ∧
        ((sender pairs).final (Link.new 0) overtaken).xmit.frame.flatten = [] := by decide
    simpa [nothing] using some
  · have nothing : ((sender pairs).final (Link.new 0) inTurn).held .work = [] ∧
        ((sender pairs).final (Link.new 0) inTurn).held .xmit = [] ∧
        ((sender pairs).final (Link.new 0) inTurn).agg.aggSkb.getD [] = [] ∧
        ((sender pairs).final (Link.new 0) inTurn).xmit.frame.flatten = [] := by decide
    have arrived := prompt (by decide)
    simp only [nothing, List.append_nil, decodeAll_nil] at arrived
    exact arrived.trans (by decide)

end XWrt.Quectel.Qmap
