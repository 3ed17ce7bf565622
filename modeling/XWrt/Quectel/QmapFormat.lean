import Mathlib.Algebra.Order.Ring.Int
import Mathlib.Data.List.Basic

/-!
# QMAP frames

`add_qhdr`, `add_qhdr_v5` and `qmap_packet_decode` of `qmi_wwan_q.c`. Several
frames stand behind one another in one USB transfer. Each has a header with a
channel and the length of what is behind it, a second header in version 9, a
packet, and padding.
-/

namespace XWrt.Quectel.Qmap

/-- `ETH_P_IP`, `ETH_P_IPV6` and all others. -/
inductive Protocol where
  | ip
  | ipv6
  | other
deriving DecidableEq, Repr

/-- The data of an skb and what its tailroom holds. -/
structure Skb where
  data : List UInt8
  tailroom : List UInt8
  protocol : Protocol
deriving DecidableEq, Repr

/-- `cpu_to_be16` -/
def be16 (n : ℕ) : List UInt8 := [UInt8.ofNat (n / 256), UInt8.ofNat n]

/-- The bytes missing to a multiple of four, or none where they do not fit. -/
def padding (skb : Skb) : ℕ :=
  if skb.data.length % 4 = 0 then 0
  else if skb.tailroom.length < 4 - skb.data.length % 4 then 0
  else 4 - skb.data.length % 4

/-- `__skb_put` of bytes that nobody writes. -/
def put (skb : Skb) (n : ℕ) : List UInt8 := skb.data ++ skb.tailroom.take n

def addQhdr (skb : Skb) (muxId : UInt8) : Skb :=
  let pad := padding skb
  { skb with
    data := UInt8.ofNat pad :: muxId :: be16 (put skb pad).length ++ put skb pad
    tailroom := skb.tailroom.drop pad }

/-- The second header: `RMNET_MAP_HEADER_TYPE_CSUM_OFFLOAD` in the upper seven
bits of its first byte. -/
def ulHeader : List UInt8 := [0x04, 0, 0, 0]

def addQhdrV5 (skb : Skb) (muxId : UInt8) : Skb :=
  let pad := padding skb
  { skb with
    data := UInt8.ofNat (pad + 64) :: muxId :: be16 (skb.data.length + pad) ++ ulHeader ++ put skb pad
    tailroom := skb.tailroom.drop pad }

/-! ## Decoding -/

def byteAt (data : List UInt8) (offset : ℕ) : ℕ := (data.getD offset 0).toNat

/-- The bits of the first byte of a header, the low ones first. -/
def padLen (data : List UInt8) : ℕ := byteAt data 0 % 64
def nextHdr (data : List UInt8) : Bool := byteAt data 0 / 64 % 2 = 1
def cdBit (data : List UInt8) : Bool := byteAt data 0 / 128 = 1
def pktLen (data : List UInt8) : ℕ := 256 * byteAt data 2 + byteAt data 3

def hdrSize (data : List UInt8) : ℕ := if nextHdr data then 8 else 4

def QUECTEL_QMAP_MUX_ID : ℕ := 0x81

/-- What the decoder reads of its device. `netDev` says which channels have one. -/
structure Device where
  qmapVersion : ℕ
  qmapMode : ℕ
  dlMinimumPadding : ℕ
  netDev : ℕ → Bool

/-- A packet handed to the network. -/
structure Packet where
  channel : ℕ
  protocol : Protocol
  data : List UInt8
deriving DecidableEq, Repr

/-- What the decoder does with the frame in front. -/
inductive Verdict where
  | error
  | skip
  | deliver (packet : Packet)
deriving DecidableEq, Repr

/-- The upper half of the first byte of a packet. -/
def versionOf (data : List UInt8) : Protocol :=
  if byteAt data (hdrSize data) / 16 = 4 then .ip
  else if byteAt data (hdrSize data) / 16 = 6 then .ipv6
  else .other

def minimumPadding (dev : Device) : ℕ := if dev.qmapVersion = 9 then dev.dlMinimumPadding else 0

def skbLen (dev : Device) (data : List UInt8) : ℤ :=
  (pktLen data : ℤ) - padLen data - minimumPadding dev

def judge (dev : Device) (data : List UInt8) : Verdict :=
  if 1500 < skbLen dev data then .error
  else if data.length < pktLen data + hdrSize data then .error
  else if cdBit data then .skip
  else if versionOf data = .other then .error
  else if byteAt data 1 < QUECTEL_QMAP_MUX_ID ∨
      dev.qmapMode ≤ byteAt data 1 - QUECTEL_QMAP_MUX_ID then .error
  else if dev.netDev (byteAt data 1 - QUECTEL_QMAP_MUX_ID) = false then .skip
  else if skbLen dev data < 0 then .error
  else .deliver
    ⟨byteAt data 1 - QUECTEL_QMAP_MUX_ID, versionOf data,
      (data.drop (hdrSize data)).take (skbLen dev data).toNat⟩

/-- `room` says of each `netdev_alloc_skb` whether it succeeds. -/
def decodeLoop (dev : Device) : ℕ → (ℕ → Bool) → List UInt8 → List Packet
  | 0, _, _ => []
  | fuel + 1, room, data =>
      if 4 < data.length then
        match judge dev data with
        | .error => []
        | .skip => decodeLoop dev fuel room (data.drop (pktLen data + hdrSize data))
        | .deliver packet =>
            if room 0 then
              packet :: decodeLoop dev fuel (fun n => room (n + 1)) (data.drop (pktLen data + hdrSize data))
            else []
      else []

/-- Every frame is taken off with its header, so there are fewer than bytes. -/
def qmapPacketDecode (dev : Device) (room : ℕ → Bool) (data : List UInt8) : List Packet :=
  decodeLoop dev data.length room data

/-- Every allocation succeeds. -/
def decodeAll (dev : Device) (data : List UInt8) : List Packet := qmapPacketDecode dev (fun _ => true) data

theorem four_le_hdrSize (data : List UInt8) : 4 ≤ hdrSize data := by
  unfold hdrSize
  split <;> decide

theorem decodeLoop_fuel (dev : Device) {fuel more : ℕ} {data : List UInt8}
    (enough : data.length ≤ fuel) (also : data.length ≤ more) (room : ℕ → Bool) :
    decodeLoop dev fuel room data = decodeLoop dev more room data := by
  induction fuel generalizing more data room with
  | zero =>
    have empty : ¬ 4 < data.length := by omega
    cases more <;> simp [decodeLoop, empty]
  | succ fuel ih =>
    by_cases long : 4 < data.length
    · obtain ⟨more, rfl⟩ : ∃ n, more = n + 1 := ⟨more - 1, by omega⟩
      have header := four_le_hdrSize data
      have less : (data.drop (pktLen data + hdrSize data)).length ≤ fuel := by
        rw [List.length_drop]
        omega
      have lessMore : (data.drop (pktLen data + hdrSize data)).length ≤ more := by
        rw [List.length_drop]
        omega
      simp only [decodeLoop, if_pos long, ih less lessMore]
    · cases more <;> simp [decodeLoop, long]

/-- The decoder's loop, frame by frame. -/
theorem decodeAll_eq (dev : Device) (data : List UInt8) :
    decodeAll dev data =
      if 4 < data.length then
        match judge dev data with
        | .error => []
        | .skip => decodeAll dev (data.drop (pktLen data + hdrSize data))
        | .deliver packet => packet :: decodeAll dev (data.drop (pktLen data + hdrSize data))
      else [] := by
  unfold decodeAll qmapPacketDecode
  by_cases long : 4 < data.length
  · obtain ⟨n, length⟩ : ∃ n, data.length = n + 1 := ⟨data.length - 1, by omega⟩
    have header := four_le_hdrSize data
    have shorter : (data.drop (pktLen data + hdrSize data)).length ≤ n := by
      rw [List.length_drop]
      omega
    have fuel := decodeLoop_fuel dev shorter (Nat.le_refl _) fun _ => true
    simp only [length, decodeLoop, if_pos (length ▸ long), fuel, if_true]
  · rw [if_neg long]
    cases data with
    | nil => rfl
    | cons first rest => simp only [List.length_cons, decodeLoop] at long ⊢; rw [if_neg long]

/-- The packets in front of the first failed allocation. -/
def granted : (ℕ → Bool) → List Packet → List Packet
  | _, [] => []
  | room, packet :: packets => if room 0 then packet :: granted (fun n => room (n + 1)) packets else []

/-- A failed allocation ends the decoding. -/
theorem decodeLoop_granted (dev : Device) (fuel : ℕ) (room : ℕ → Bool) (data : List UInt8) :
    decodeLoop dev fuel room data = granted room (decodeLoop dev fuel (fun _ => true) data) := by
  induction fuel generalizing room data with
  | zero => rfl
  | succ fuel ih =>
    by_cases long : 4 < data.length
    · cases verdict : judge dev data with
      | error => simp only [decodeLoop, if_pos long, verdict, granted]
      | skip =>
        simp only [decodeLoop, if_pos long, verdict]
        exact ih room _
      | deliver packet =>
        simp only [decodeLoop, if_pos long, verdict, if_true, granted]
        rw [ih fun n => room (n + 1)]
    · simp only [decodeLoop, if_neg long, granted]

theorem qmapPacketDecode_granted (dev : Device) (room : ℕ → Bool) (data : List UInt8) :
    qmapPacketDecode dev room data = granted room (decodeAll dev data) := decodeLoop_granted ..

/-! ## Frames -/

/-- A frame as it stands in a transfer. The trailer is the padding that the
header counts and the least padding agreed on with the modem. -/
structure Frame where
  command : Bool
  extension : List UInt8
  pad : ℕ
  mux : UInt8
  payload : List UInt8
  trailer : List UInt8

namespace Frame

def firstByte (frame : Frame) : ℕ :=
  frame.pad + (if frame.extension = [] then 0 else 64) + (if frame.command then 128 else 0)

def wire (frame : Frame) : List UInt8 :=
  UInt8.ofNat frame.firstByte :: frame.mux ::
    be16 (frame.payload.length + frame.trailer.length) ++
    frame.extension ++ frame.payload ++ frame.trailer

/-- The fields of the header have room for the frame. -/
structure Formed (dev : Device) (frame : Frame) : Prop where
  extension : frame.extension = [] ∨ frame.extension.length = 4
  pad : frame.pad < 64
  trailer : frame.trailer.length = frame.pad + minimumPadding dev
  length : frame.payload.length + frame.trailer.length < 65536

def protocol (frame : Frame) : Protocol :=
  if (frame.payload.headD 0).toNat / 16 = 4 then .ip
  else if (frame.payload.headD 0).toNat / 16 = 6 then .ipv6
  else .other

def channel (frame : Frame) : ℕ := frame.mux.toNat - QUECTEL_QMAP_MUX_ID

/-- The decoder goes on behind the frame. -/
def Acceptable (dev : Device) (frame : Frame) : Prop :=
  frame.payload.length ≤ 1500 ∧
    (frame.command = false → frame.protocol ≠ .other ∧
      QUECTEL_QMAP_MUX_ID ≤ frame.mux.toNat ∧ frame.channel < dev.qmapMode)

/-- The packet of a frame, when it is none for the driver and its channel exists. -/
def delivered (dev : Device) (frame : Frame) : Option Packet :=
  if frame.command = false ∧ dev.netDev frame.channel then
    some ⟨frame.channel, frame.protocol, frame.payload⟩
  else none

/-! ### What the decoder reads of a frame -/

variable {dev : Device} {frame : Frame} {rest : List UInt8}

theorem Formed.extension_length (formed : Formed dev frame) :
    frame.extension.length = if frame.extension = [] then 0 else 4 := by
  rcases formed.extension with none | four
  · simp [none]
  · rw [four, if_neg fun none => by simp [none] at four]

theorem length_wire (frame : Frame) :
    frame.wire.length =
      4 + frame.extension.length + frame.payload.length + frame.trailer.length := by
  simp only [wire, be16, List.length_append, List.length_cons, List.length_nil]

theorem byteAt_zero (formed : Formed dev frame) (rest : List UInt8) :
    byteAt (frame.wire ++ rest) 0 = frame.firstByte := by
  have small : frame.firstByte < 256 := by
    have := formed.pad
    unfold firstByte
    split_ifs <;> omega
  simp only [byteAt, wire, List.cons_append, List.getD_cons_zero, UInt8.toNat_ofNat']
  exact Nat.mod_eq_of_lt small

theorem byteAt_one (frame : Frame) (rest : List UInt8) :
    byteAt (frame.wire ++ rest) 1 = frame.mux.toNat := rfl

theorem padLen_wire (formed : Formed dev frame) (rest : List UInt8) :
    padLen (frame.wire ++ rest) = frame.pad := by
  have := formed.pad
  rw [padLen, byteAt_zero formed, firstByte]
  split_ifs <;> omega

theorem nextHdr_wire (formed : Formed dev frame) (rest : List UInt8) :
    nextHdr (frame.wire ++ rest) = decide (frame.extension ≠ []) := by
  have := formed.pad
  rw [nextHdr, byteAt_zero formed, firstByte]
  refine decide_eq_decide.mpr ?_
  by_cases none : frame.extension = []
  · rw [if_pos none]
    exact iff_of_false (by split_ifs <;> omega) (not_not_intro none)
  · rw [if_neg none]
    exact iff_of_true (by split_ifs <;> omega) none

theorem cdBit_wire (formed : Formed dev frame) (rest : List UInt8) :
    cdBit (frame.wire ++ rest) = frame.command := by
  have low : frame.pad + (if frame.extension = [] then 0 else 64) < 128 := by
    have := formed.pad
    split_ifs <;> omega
  rw [cdBit, byteAt_zero formed, firstByte]
  cases frame.command with
  | true =>
    refine decide_eq_true ?_
    simp only [if_true]
    omega
  | false =>
    refine decide_eq_false ?_
    simp only [Bool.false_eq_true, if_false]
    omega

theorem pktLen_wire (formed : Formed dev frame) (rest : List UInt8) :
    pktLen (frame.wire ++ rest) = frame.payload.length + frame.trailer.length := by
  have := formed.length
  have high : byteAt (frame.wire ++ rest) 2 = (frame.payload.length + frame.trailer.length) / 256 % 256 :=
    UInt8.toNat_ofNat'
  have low : byteAt (frame.wire ++ rest) 3 = (frame.payload.length + frame.trailer.length) % 256 :=
    UInt8.toNat_ofNat'
  rw [pktLen, high, low]
  omega

theorem hdrSize_wire (formed : Formed dev frame) (rest : List UInt8) :
    hdrSize (frame.wire ++ rest) = 4 + frame.extension.length := by
  rw [hdrSize, nextHdr_wire formed, formed.extension_length]
  by_cases none : frame.extension = [] <;> simp [none]

theorem skbLen_wire (formed : Formed dev frame) (rest : List UInt8) :
    skbLen dev (frame.wire ++ rest) = frame.payload.length := by
  have := formed.trailer
  rw [skbLen, pktLen_wire formed, padLen_wire formed]
  omega

theorem drop_hdrSize (formed : Formed dev frame) (rest : List UInt8) :
    (frame.wire ++ rest).drop (hdrSize (frame.wire ++ rest)) =
      frame.payload ++ (frame.trailer ++ rest) := by
  have header : frame.wire ++ rest = (UInt8.ofNat frame.firstByte :: frame.mux ::
      be16 (frame.payload.length + frame.trailer.length) ++ frame.extension) ++
      (frame.payload ++ (frame.trailer ++ rest)) := by
    simp [wire]
  rw [hdrSize_wire formed, header]
  exact List.drop_left' (by simp [be16]; omega)

/-- The whole frame is taken off. -/
theorem drop_wire (formed : Formed dev frame) (rest : List UInt8) :
    (frame.wire ++ rest).drop
      (pktLen (frame.wire ++ rest) + hdrSize (frame.wire ++ rest)) = rest := by
  rw [pktLen_wire formed, hdrSize_wire formed]
  refine List.drop_left' ?_
  rw [length_wire]
  omega

theorem versionOf_wire (formed : Formed dev frame) (rest : List UInt8) (some : frame.payload ≠ []) :
    versionOf (frame.wire ++ rest) = frame.protocol := by
  have first : byteAt (frame.wire ++ rest) (hdrSize (frame.wire ++ rest)) =
      (frame.payload.headD 0).toNat := by
    rw [byteAt, List.getD_eq_getElem?_getD, ← List.head?_drop, drop_hdrSize formed]
    obtain ⟨byte, others, payload⟩ := List.exists_cons_of_ne_nil some
    simp [payload]
  rw [versionOf, first, protocol]

theorem payload_ne_nil (known : frame.protocol ≠ .other) : frame.payload ≠ [] :=
  fun empty => known (by simp [protocol, empty])

/-- The decoder goes on behind an acceptable frame. -/
theorem judge_acceptable (formed : Formed dev frame) (acceptable : frame.Acceptable dev)
    (rest : List UInt8) :
    judge dev (frame.wire ++ rest) = (frame.delivered dev).elim .skip .deliver := by
  have short : ¬ 1500 < skbLen dev (frame.wire ++ rest) := by
    have := acceptable.1
    rw [skbLen_wire formed]
    omega
  have whole : ¬ (frame.wire ++ rest).length <
      pktLen (frame.wire ++ rest) + hdrSize (frame.wire ++ rest) := by
    rw [List.length_append, length_wire, pktLen_wire formed, hdrSize_wire formed]
    omega
  rw [judge, if_neg short, if_neg whole, cdBit_wire formed]
  cases command : frame.command with
  | true => simp [delivered, command]
  | false =>
    obtain ⟨known, least, most⟩ := acceptable.2 command
    have version := versionOf_wire formed rest (payload_ne_nil known)
    have positive : ¬ skbLen dev (frame.wire ++ rest) < 0 := by
      rw [skbLen_wire formed]
      omega
    have inside : ¬ (frame.mux.toNat < QUECTEL_QMAP_MUX_ID ∨
        dev.qmapMode ≤ frame.mux.toNat - QUECTEL_QMAP_MUX_ID) := by
      rw [channel] at most
      omega
    have packet : ((frame.wire ++ rest).drop (hdrSize (frame.wire ++ rest))).take
        (skbLen dev (frame.wire ++ rest)).toNat = frame.payload := by
      rw [drop_hdrSize formed, skbLen_wire formed]
      exact List.take_left
    rw [if_neg (by decide), version, if_neg known, byteAt_one, if_neg inside, packet,
      if_neg positive]
    cases there : dev.netDev (frame.mux.toNat - QUECTEL_QMAP_MUX_ID) with
    | false => simp [delivered, channel, there]
    | true => simp [delivered, command, channel, there]

/-- Other frames end the decoding. -/
theorem judge_unacceptable (formed : Formed dev frame) (some : frame.payload ≠ [])
    (unacceptable : ¬ frame.Acceptable dev) (rest : List UInt8) :
    judge dev (frame.wire ++ rest) = .error := by
  by_cases long : 1500 < skbLen dev (frame.wire ++ rest)
  · rw [judge, if_pos long]
  have whole : ¬ (frame.wire ++ rest).length <
      pktLen (frame.wire ++ rest) + hdrSize (frame.wire ++ rest) := by
    rw [List.length_append, length_wire, pktLen_wire formed, hdrSize_wire formed]
    omega
  have short : frame.payload.length ≤ 1500 := by
    rw [skbLen_wire formed] at long
    omega
  have wrong : frame.command = false ∧ ¬ (frame.protocol ≠ .other ∧
      QUECTEL_QMAP_MUX_ID ≤ frame.mux.toNat ∧ frame.channel < dev.qmapMode) := by
    rw [Acceptable] at unacceptable
    exact Classical.not_imp.mp fun fine => unacceptable ⟨short, fine⟩
  rw [judge, if_neg long, if_neg whole, cdBit_wire formed, wrong.1, if_neg (by decide),
    versionOf_wire formed rest some, byteAt_one]
  split_ifs with unknown outside
  · rfl
  · rfl
  all_goals
    refine absurd ⟨unknown, ?_⟩ wrong.2
    rw [channel]
    omega

end Frame

/-! ## Transfers -/

variable {dev : Device}

@[simp]
theorem decodeAll_nil (dev : Device) : decodeAll dev [] = [] := rfl

theorem decodeAll_wire {frame : Frame} (formed : frame.Formed dev)
    (acceptable : frame.Acceptable dev) (rest : List UInt8) :
    decodeAll dev (frame.wire ++ rest) =
      (frame.delivered dev).toList ++ decodeAll dev rest := by
  rw [decodeAll_eq]
  split_ifs with long
  · rw [Frame.judge_acceptable formed acceptable, Frame.drop_wire formed]
    cases frame.delivered dev <;> rfl
  · -- four bytes: an empty command frame, with nothing behind it
    rw [List.length_append, Frame.length_wire] at long
    have empty : frame.payload = [] := List.length_eq_zero_iff.mp (by omega)
    have last : rest = [] := List.length_eq_zero_iff.mp (by omega)
    have none : frame.delivered dev = none := by
      refine if_neg fun both => ?_
      exact Frame.payload_ne_nil (acceptable.2 both.1).1 empty
    rw [none, last]
    rfl

/-- Acceptable frames are all decoded, in order. -/
theorem decodeAll_frames (frames : List Frame)
    (good : ∀ frame ∈ frames, frame.Formed dev ∧ frame.Acceptable dev) (rest : List UInt8) :
    decodeAll dev (frames.flatMap Frame.wire ++ rest) =
      frames.filterMap (Frame.delivered dev) ++ decodeAll dev rest := by
  induction frames with
  | nil => rfl
  | cons frame others ih =>
    obtain ⟨formed, acceptable⟩ := good frame List.mem_cons_self
    rw [List.flatMap_cons, List.append_assoc, decodeAll_wire formed acceptable,
      ih fun other member => good other (List.mem_cons_of_mem _ member), List.filterMap_cons]
    cases frame.delivered dev <;> rfl

/-- A frame that is cut off is not decoded. -/
theorem decodeAll_cut {frame : Frame} (formed : frame.Formed dev) {n : ℕ}
    (cut : n < frame.wire.length) : decodeAll dev (frame.wire.take n) = [] := by
  rw [decodeAll_eq]
  split_ifs with long
  · have same (offset : ℕ) (inside : offset < 4) :
        byteAt (frame.wire.take n) offset = byteAt (frame.wire ++ []) offset := by
      rw [List.length_take] at long
      rw [List.append_nil, byteAt, byteAt, List.getD_eq_getElem?_getD, List.getD_eq_getElem?_getD,
        List.getElem?_take_of_lt (by omega)]
    have lengths : pktLen (frame.wire.take n) = pktLen (frame.wire ++ []) := by
      rw [pktLen, pktLen, same 2 (by decide), same 3 (by decide)]
    have header : hdrSize (frame.wire.take n) = hdrSize (frame.wire ++ []) := by
      rw [hdrSize, hdrSize, nextHdr, nextHdr, same 0 (by decide)]
    have missing : (frame.wire.take n).length <
        pktLen (frame.wire.take n) + hdrSize (frame.wire.take n) := by
      rw [lengths, header, Frame.pktLen_wire formed, Frame.hdrSize_wire formed, List.length_take]
      rw [Frame.length_wire] at cut ⊢
      omega
    have verdict : judge dev (frame.wire.take n) = .error := by
      rw [judge, if_pos missing]
      split_ifs <;> rfl
    rw [verdict]
  · rfl

/-- Nothing behind a frame that the decoder does not accept is decoded. -/
theorem decodeAll_bad {frame : Frame} (formed : frame.Formed dev)
    (some : frame.payload ≠ []) (bad : ¬ frame.Acceptable dev) (rest : List UInt8) :
    decodeAll dev (frame.wire ++ rest) = [] := by
  rw [decodeAll_eq, Frame.judge_unacceptable formed some bad]
  split_ifs <;> rfl

/-- Of a transfer that is cut off anywhere, the packets of the whole frames are
decoded, up to the first that is not acceptable and the first that finds no memory. -/
theorem qmapPacketDecode_transfer {frames : List Frame} {last : Frame}
    (good : ∀ frame ∈ frames, frame.Formed dev ∧ frame.Acceptable dev) (formed : last.Formed dev)
    (room : ℕ → Bool) (n : ℕ) (rest : List UInt8) :
    (n < last.wire.length →
      qmapPacketDecode dev room (frames.flatMap Frame.wire ++ last.wire.take n) =
        granted room (frames.filterMap (Frame.delivered dev))) ∧
    (last.payload ≠ [] → ¬ last.Acceptable dev →
      qmapPacketDecode dev room (frames.flatMap Frame.wire ++ (last.wire ++ rest)) =
        granted room (frames.filterMap (Frame.delivered dev))) := by
  rw [qmapPacketDecode_granted, qmapPacketDecode_granted, decodeAll_frames frames good, decodeAll_frames frames good]
  refine ⟨fun cut => ?_, fun some bad => ?_⟩
  · rw [decodeAll_cut formed cut, List.append_nil]
  · rw [decodeAll_bad formed some bad, List.append_nil]

/-- A command of the modem before two packets, of which the second finds no memory, and a packet of an
unknown channel. -/
theorem qmapPacketDecode_transfer_command :
    let command : Frame := ⟨true, [], 0, 0, [1, 2], []⟩
    let packet : Frame := ⟨false, [], 1, 0x81, [0x45, 0, 0], [0]⟩
    let unknown : Frame := ⟨false, [], 0, 0x99, [0x45, 0, 0, 0], []⟩
    qmapPacketDecode ⟨5, 1, 0, fun _ => true⟩ (· != 1) ([command, packet, packet].flatMap Frame.wire ++
      (unknown.wire ++ [])) = [⟨0, .ip, [0x45, 0, 0]⟩] := by
  intro command packet unknown
  have good : ∀ frame ∈ [command, packet, packet], frame.Formed ⟨5, 1, 0, fun _ => true⟩ ∧
      frame.Acceptable ⟨5, 1, 0, fun _ => true⟩ := by
    simp only [List.forall_mem_cons]
    exact ⟨⟨⟨Or.inl rfl, by decide, rfl, by decide⟩, by decide, fun none => by cases none⟩,
      ⟨⟨Or.inl rfl, by decide, rfl, by decide⟩, by decide, fun _ => by decide⟩,
      ⟨⟨Or.inl rfl, by decide, rfl, by decide⟩, by decide, fun _ => by decide⟩, by simp⟩
  obtain ⟨-, stops⟩ := @qmapPacketDecode_transfer _ _ unknown good
    ⟨Or.inl rfl, by decide, rfl, by decide⟩ (· != 1) 0 []
  exact (stops (List.cons_ne_nil _ _) fun accepted => absurd (accepted.2 rfl) (by decide)).trans (by decide)

end XWrt.Quectel.Qmap
