import Compy.Library.CheckedBytes
import Compy.Library.Fragmentation
import Compy.Nal.Header
import Compy.Rtp.Payloads

/-!
# The NAL transport

`nal_transport.c` on top of any RTP transport: how it cuts a unit into fragments, and which
packets it sends.
-/

set_option autoImplicit false

namespace Compy.Nal

open CheckedBytes Fragmentation Compy.Rtp

variable {ρ : Type}

structure NalTransportConfig where
  maxH264NaluSize : Nat
  maxH265NaluSize : Nat

def NalTransportConfig.default : NalTransportConfig where
  maxH264NaluSize := 1200
  maxH265NaluSize := 4096

def NalTransportConfig.limit (self : NalTransportConfig) : NalHeader → Nat
  | .H264 _ => self.maxH264NaluSize
  | .H265 _ => self.maxH265NaluSize

def sendFu (send : RtpSend ρ) (fu : NalUnit) (isFirstFragment isLastFragment : Bool) :
    ρ → Access (ρ × Int) :=
  send isLastFragment (fu.header.writeFuHeader isFirstFragment isLastFragment) fu.payload

/-- `U8Slice99_sub`. -/
def sliceSub (slice : List UInt8) (start stop : Nat) : Access (List UInt8) :=
  if start ≤ stop then readBytes slice start (stop - start) else .error .assertion

/-- The loop over the fragments of full size, with the number of turns that are left. -/
def fragmentLoop (send : RtpSend ρ) (nalu : NalUnit) (maxPacketSize rem packetsCount : Nat) :
    (left packetIdx : Nat) → ρ → Access (ρ × Int)
  | 0, _, t => .ok (t, 0)
  | left + 1, packetIdx, t => do
      let isFirstFragment := 0 == packetIdx
      let isLastFragment := 0 == rem && packetsCount - 1 == packetIdx
      let fuData ← sliceSub nalu.payload (packetIdx * maxPacketSize)
        (if isLastFragment then nalu.payload.length else (packetIdx + 1) * maxPacketSize)
      let (t, ret) ← sendFu send { nalu with payload := fuData } isFirstFragment isLastFragment t
      if ret = -1 then return (t, -1)
      fragmentLoop send nalu maxPacketSize rem packetsCount left (packetIdx + 1) t

/-- The remainder by a limit of zero traps, as a failed assertion does. -/
def sendFragmentizedNalData (send : RtpSend ρ) (maxPacketSize : Nat) (nalu : NalUnit) (t : ρ) :
    Access (ρ × Int) := do
  let fuOverhead := nalu.header.fuSize
  let maxPacketSize := if fuOverhead < maxPacketSize then maxPacketSize - fuOverhead
    else maxPacketSize
  if maxPacketSize = 0 then throw .assertion
  let rem := nalu.payload.length % maxPacketSize
  let packetsCount := (nalu.payload.length - rem) / maxPacketSize
  let (t, ret) ← fragmentLoop send nalu maxPacketSize rem packetsCount packetsCount 0 t
  if ret = -1 then return (t, -1)
  if rem ≠ 0 then
    let fuData ← sliceSub nalu.payload (packetsCount * maxPacketSize) nalu.payload.length
    let (t, ret) ← sendFu send { nalu with payload := fuData } (0 == packetsCount) true t
    if ret = -1 then return (t, -1)
    return (t, 0)
  return (t, 0)

def NalTransport.sendPacket (config : NalTransportConfig) (send : RtpSend ρ) (nalu : NalUnit)
    (t : ρ) : Access (ρ × Int) :=
  let maxPacketSize := config.limit nalu.header
  let naluSize := nalu.header.size + nalu.payload.length
  if naluSize < maxPacketSize then
    send (nalu.header.isCodedSliceIdr || nalu.header.isCodedSliceNonIdr) nalu.header.serialize
      nalu.payload t
  else sendFragmentizedNalData send maxPacketSize nalu t

/-! ## The packets of a unit -/

def fuPacket (nalu : NalUnit) (size count index : Nat) : RtpPayload where
  marker := index + 1 == count
  header := nalu.header.writeFuHeader (index == 0) (index + 1 == count)
  data := window size nalu.payload index

def fuPackets (nalu : NalUnit) (size : Nat) : List RtpPayload :=
  let count := windowCount size nalu.payload.length
  (List.range count).map (fuPacket nalu size count)

/-- How much of the payload a fragment takes: the FU header is allowed for where the limit
leaves room for it. -/
def fragmentSize (header : NalHeader) (limit : Nat) : Nat :=
  if header.fuSize < limit then limit - header.fuSize else limit

/-- What goes out under any limit but zero. -/
def limitPackets (limit : Nat) (nalu : NalUnit) : List RtpPayload :=
  if nalu.header.size + nalu.payload.length < limit then
    [⟨nalu.header.isCodedSliceIdr || nalu.header.isCodedSliceNonIdr, nalu.header.serialize,
      nalu.payload⟩]
  else fuPackets nalu (fragmentSize nalu.header limit)

def naluPackets (config : NalTransportConfig) (nalu : NalUnit) : List RtpPayload :=
  if nalu.header.size + nalu.payload.length < config.limit nalu.header then
    [⟨nalu.header.isCodedSliceIdr || nalu.header.isCodedSliceNonIdr, nalu.header.serialize,
      nalu.payload⟩]
  else fuPackets nalu (config.limit nalu.header - nalu.header.fuSize)

theorem sliceSub_window (payload : List UInt8) (size index stop : Nat)
    (inside : stop ≤ payload.length) (start : index * size ≤ stop)
    (whole : stop = (index + 1) * size ∨ stop = payload.length ∧ stop ≤ (index + 1) * size) :
    sliceSub payload (index * size) stop = .ok (window size payload index) := by
  rw [sliceSub, if_pos start, readBytes_ok _ _ _ (by omega), window]
  congr 1
  rw [Nat.add_mul, Nat.one_mul] at whole
  rcases whole with full | ⟨ends, short⟩
  · rw [full, Nat.add_sub_cancel_left]
  · rw [List.take_of_length_le (by rw [List.length_drop]; omega),
      List.take_of_length_le (by rw [List.length_drop]; omega)]

theorem fragmentLoop_eq (send : RtpSend ρ) (nalu : NalUnit) (size : Nat) (positive : 0 < size)
    (left index : Nat) (sum : index + left = nalu.payload.length / size) (t : ρ) :
    fragmentLoop send nalu size (nalu.payload.length % size) (nalu.payload.length / size) left
        index t =
      sendAll send ((List.range' index left).map
        (fuPacket nalu size (windowCount size nalu.payload.length))) t := by
  induction left generalizing index t with
  | zero => rfl
  | succ left ih =>
      have division := Nat.div_add_mod nalu.payload.length size
      have below : (index + 1) * size ≤ nalu.payload.length := by
        have some_ : index + 1 ≤ nalu.payload.length / size := by omega
        exact (Nat.le_div_iff_mul_le positive).mp some_
      have last : (0 == nalu.payload.length % size &&
          nalu.payload.length / size - 1 == index) =
            (index + 1 == windowCount size nalu.payload.length) := by
        rw [windowCount, Bool.eq_iff_iff]
        simp only [Bool.and_eq_true, beq_iff_eq]
        split <;> omega
      have data : sliceSub nalu.payload (index * size)
          (if index + 1 == windowCount size nalu.payload.length then nalu.payload.length
            else (index + 1) * size) = .ok (window size nalu.payload index) := by
        have start : index * size ≤ (index + 1) * size := Nat.mul_le_mul_right _ (Nat.le_succ _)
        split
        · rename_i ends
          have total := length_le_windowCount positive nalu.payload.length
          rw [← beq_iff_eq.mp ends] at total
          exact sliceSub_window _ _ _ _ (Nat.le_refl _) (Nat.le_trans start below)
            (Or.inr ⟨rfl, total⟩)
        · exact sliceSub_window _ _ _ _ below start (Or.inl rfl)
      have first : (0 == index) = (index == 0) := BEq.comm
      rw [fragmentLoop, List.range'_succ, List.map_cons, sendAll]
      simp only [last, data, first, ok_bind, ih (index + 1) (by omega)]
      rfl

theorem fragmentSize_room (header : NalHeader) (limit : Nat) (room : header.fuSize < limit) :
    fragmentSize header limit = limit - header.fuSize := if_pos room

theorem fragmentSize_pos (header : NalHeader) (limit : Nat) (positive : 0 < limit) :
    0 < fragmentSize header limit := by
  unfold fragmentSize
  split <;> omega

theorem naluPackets_eq (config : NalTransportConfig) (nalu : NalUnit)
    (room : nalu.header.fuSize < config.limit nalu.header) :
    naluPackets config nalu = limitPackets (config.limit nalu.header) nalu := by
  simp only [naluPackets, limitPackets, fragmentSize_room nalu.header _ room]

theorem sendFragmentizedNalData_eq (send : RtpSend ρ) (maxPacketSize : Nat) (nalu : NalUnit)
    (nonzero : 0 < maxPacketSize) (t : ρ) :
    sendFragmentizedNalData send maxPacketSize nalu t =
      sendAll send (fuPackets nalu (fragmentSize nalu.header maxPacketSize)) t := by
  have positive := fragmentSize_pos nalu.header maxPacketSize nonzero
  generalize size_eq : fragmentSize nalu.header maxPacketSize = size at positive
  unfold fragmentSize at size_eq
  have count : (nalu.payload.length - nalu.payload.length % size) / size =
      nalu.payload.length / size := Nat.div_eq_sub_mod_div.symm
  have loop := fragmentLoop_eq send nalu size positive (nalu.payload.length / size) 0
    (Nat.zero_add _) t
  rw [sendFragmentizedNalData]
  simp only [size_eq, if_neg (Nat.pos_iff_ne_zero.mp positive), count, loop]
  rw [← List.range_eq_range', fuPackets]
  by_cases divides : nalu.payload.length % size = 0
  · have whole : windowCount size nalu.payload.length = nalu.payload.length / size := by
      rw [windowCount, if_pos divides, Nat.add_zero]
    rw [whole]
    generalize (List.range (nalu.payload.length / size)).map _ = packets
    cases sent : sendAll send packets t with
    | error fault => rfl
    | ok result =>
        obtain ⟨t', ret⟩ := result
        rcases sendAll_ret send packets t t' ret sent with rfl | rfl <;> simp [divides]
  · have more : windowCount size nalu.payload.length = nalu.payload.length / size + 1 := by
      rw [windowCount, if_neg divides]
    have division := Nat.div_add_mod nalu.payload.length size
    have below := Nat.mod_lt nalu.payload.length positive
    have data : sliceSub nalu.payload (nalu.payload.length / size * size) nalu.payload.length =
        .ok (window size nalu.payload (nalu.payload.length / size)) := by
      rw [Nat.mul_comm] at division
      refine sliceSub_window _ _ _ _ (Nat.le_refl _) (by omega) (Or.inr ⟨rfl, ?_⟩)
      rw [Nat.add_mul, Nat.one_mul]
      omega
    have first : (0 == nalu.payload.length / size) = (nalu.payload.length / size == 0) := BEq.comm
    rw [more, List.range_succ, List.map_append, sendAll_append]
    generalize (List.range (nalu.payload.length / size)).map _ = packets
    simp only [ne_eq, divides, not_false_eq_true, if_true, data, ok_bind, first]
    simp [sendAll, fuPacket, sendFu]

theorem length_fuPacket_le (nalu : NalUnit) (limit : Nat) (room : nalu.header.fuSize < limit) :
    ∀ packet ∈ fuPackets nalu (limit - nalu.header.fuSize), packet.bytes.length ≤ limit := by
  intro packet member
  obtain ⟨index, _, rfl⟩ := List.mem_map.mp member
  have short := length_window_le (limit - nalu.header.fuSize) nalu.payload index
  rw [RtpPayload.bytes, List.length_append, fuPacket, NalHeader.length_writeFuHeader]
  dsimp only
  omega

theorem length_naluPacket_le (config : NalTransportConfig) (nalu : NalUnit)
    (room : nalu.header.fuSize < config.limit nalu.header) :
    ∀ packet ∈ naluPackets config nalu, packet.bytes.length ≤ config.limit nalu.header := by
  intro packet member
  rw [naluPackets] at member
  split at member
  · rename_i short
    rw [List.mem_singleton.mp member, RtpPayload.bytes, List.length_append,
      NalHeader.length_serialize]
    exact Nat.le_of_lt short
  · exact length_fuPacket_le nalu _ room packet member

/-- One call of `send` for a short unit, and one for each fragment of a long one.  The
return value of the one call is not looked at. -/
theorem sendPacket_eq (config : NalTransportConfig) (send : RtpSend ρ) (nalu : NalUnit)
    (room : nalu.header.fuSize < config.limit nalu.header) (t : ρ)
    (plain : ∀ marker header data t t' ret, send marker header data t = .ok (t', ret) →
      ret = 0 ∨ ret = -1) :
    NalTransport.sendPacket config send nalu t = sendAll send (naluPackets config nalu) t := by
  rw [NalTransport.sendPacket, naluPackets_eq config nalu room, limitPackets]
  split
  · cases sent : send (nalu.header.isCodedSliceIdr || nalu.header.isCodedSliceNonIdr)
        nalu.header.serialize nalu.payload t with
    | error fault => simp [sendAll, sent]
    | ok result =>
        obtain ⟨t', ret⟩ := result
        rcases plain _ _ _ _ _ _ sent with rfl | rfl <;> simp [sendAll, sent]
  · exact sendFragmentizedNalData_eq send _ nalu (Nat.zero_lt_of_lt room) t

theorem sendPacket_returns {faults : Prop} {post : ρ → Prop} {send : RtpSend ρ}
    (each : ∀ marker header data t, post t →
      Returns faults (fun sent => post sent.1) (send marker header data t))
    (config : NalTransportConfig) (nalu : NalUnit) (nonzero : 0 < config.limit nalu.header)
    (t : ρ) (holds : post t) : Returns faults (fun sent => post sent.1)
      (NalTransport.sendPacket config send nalu t) := by
  rw [NalTransport.sendPacket]
  split
  · exact each _ _ _ t holds
  · rw [sendFragmentizedNalData_eq send _ nalu nonzero]
    exact sendAll_returns each _ t holds

theorem sendPacket_neverFails (config : NalTransportConfig) (send : RtpSend ρ)
    (emitted : ρ → List RtpPayload) (never : NeverFails send emitted) (nalu : NalUnit)
    (nonzero : 0 < config.limit nalu.header) (t : ρ) :
    ∃ t' ret, NalTransport.sendPacket config send nalu t = .ok (t', ret) ∧ ret ≠ -1 ∧
      emitted t' = emitted t ++ limitPackets (config.limit nalu.header) nalu := by
  rw [NalTransport.sendPacket, limitPackets]
  split
  · exact never (nalu.header.isCodedSliceIdr || nalu.header.isCodedSliceNonIdr)
      nalu.header.serialize nalu.payload t
  · obtain ⟨final, sent, added⟩ := sendAll_neverFails never
      (fuPackets nalu (fragmentSize nalu.header (config.limit nalu.header))) t
    refine ⟨final, 0, ?_, by decide, added⟩
    rw [sendFragmentizedNalData_eq send _ nalu nonzero, sent]

end Compy.Nal
