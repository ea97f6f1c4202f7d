import Compy.Nal.Transport
import Compy.Srtp.SenderRuns

/-!
# NAL units over SRTP

A NAL transport with its default limits over an RTP transport over an SRTP transport over
an inner transport that takes everything.  The limit for H.264 leaves room for the headers
and the tag in an SRTP packet; the limit for H.265 is twice what such a packet can hold.
-/

set_option autoImplicit false

namespace Compy.Nal

open CheckedBytes Fragmentation Compy.Rtp Compy.Srtp

/-- `Compy_RtpTransport_send_packet` over SRTP; `clock` is read once for each packet that
has gone through. -/
def srtpSend (ops : CryptoSrtpOps) (ts : RtpTimestamp) (clock : Nat → UInt64) :
    RtpSend SrtpSender := fun marker payloadHeader payload self => do
  let args : SendArgs := ⟨ts, marker, payloadHeader, payload, clock self.attempts.length⟩
  let (rtp, (srtp, handed), ret) ← self.rtp.sendPacket (SrtpTransport.transmit ops 0 self.srtp)
    args.ts args.marker args.payloadHeader args.payload args.monotonicUs
  let attempt := handed.map fun handed => Attempt.mk self.rtp args handed ret
  return (⟨rtp, srtp, self.attempts ++ attempt.toList⟩, ret)

def overhead (sender : SrtpSender) : Nat :=
  12 + sender.rtp.extensionHeader.length + sender.srtp.authTagLen

theorem extensionHeader_length_le (rtp : RtpTransport) : rtp.extensionHeader.length ≤ 16 := by
  have words := rtp.extLen_words
  have length := rtp.length_extension
  rcases extensionHeader_cases rtp with ⟨_, none⟩ | ⟨_, count, _, header⟩
  · rw [none]
    exact Nat.zero_le _
  · rw [header, List.length_append, length]
    have four : (BigEndian.be16 0xBEDE ++ BigEndian.be16 count).length = 4 := rfl
    omega

theorem overhead_le (sender : SrtpSender) : overhead sender ≤ 38 := by
  have extension := extensionHeader_length_le sender.rtp
  have tag := sender.srtp.authTagLen.bounds
  rw [overhead]
  omega

def attemptPayload (attempt : Attempt) : RtpPayload :=
  ⟨attempt.args.marker, attempt.args.payloadHeader, attempt.args.payload⟩

/-- A packet of the sender that the inner transport has been handed, and taken. -/
def Handed (attempt : Attempt) : Prop :=
  attempt.ret = 0 ∧ attempt.handed.packet = packetOf attempt.rtp attempt.args

theorem srtpSend_cases (ops : CryptoSrtpOps) (ts : RtpTimestamp) (clock : Nat → UInt64)
    (packet : RtpPayload) (sender : SrtpSender) :
    srtpMaxPacketSize < overhead sender + packet.bytes.length ∧
        srtpSend ops ts clock packet.marker packet.header packet.data sender = .ok (sender, -1) ∨
      overhead sender + packet.bytes.length ≤ srtpMaxPacketSize ∧ ∃ next attempt,
        srtpSend ops ts clock packet.marker packet.header packet.data sender = .ok (next, 0) ∧
        overhead next = overhead sender ∧ next.attempts = sender.attempts ++ [attempt] ∧
        attemptPayload attempt = packet ∧ Handed attempt := by
  have transmitted := sender.srtp.transmit_packetOf ops 0 sender.rtp
    ⟨ts, packet.marker, packet.header, packet.data, clock sender.attempts.length⟩
  have length := length_packetOf sender.rtp
    ⟨ts, packet.marker, packet.header, packet.data, clock sender.attempts.length⟩
  have total : overhead sender + packet.bytes.length = (packetOf sender.rtp ⟨ts, packet.marker,
      packet.header, packet.data, clock sender.attempts.length⟩).length +
        sender.srtp.authTagLen := by
    dsimp only at length
    rw [length, overhead, RtpPayload.bytes, List.length_append]
    omega
  rw [total]
  simp only [srtpSend, RtpTransport.sendPacket, sender.rtp.serialize_header, ok_bind, transmitted]
  by_cases oversize : srtpMaxPacketSize < (packetOf sender.rtp ⟨ts, packet.marker,
      packet.header, packet.data, clock sender.attempts.length⟩).length + sender.srtp.authTagLen
  · left
    rw [if_pos oversize]
    refine ⟨oversize, ?_⟩
    simp
  · right
    rw [if_neg oversize]
    refine ⟨Nat.le_of_not_lt oversize, _, _, rfl, rfl, rfl, rfl, rfl, rfl⟩

theorem sendAll_srtp (ops : CryptoSrtpOps) (ts : RtpTimestamp) (clock : Nat → UInt64)
    (packets : List RtpPayload) (sender : SrtpSender)
    (fit : ∀ packet ∈ packets, overhead sender + packet.bytes.length ≤ srtpMaxPacketSize) :
    ∃ next added, sendAll (srtpSend ops ts clock) packets sender = .ok (next, 0) ∧
      next.attempts = sender.attempts ++ added ∧ added.map attemptPayload = packets ∧
      ∀ attempt ∈ added, Handed attempt := by
  induction packets generalizing sender with
  | nil =>
      exact ⟨sender, [], rfl, (List.append_nil _).symm, rfl, fun _ member =>
        absurd member List.not_mem_nil⟩
  | cons packet packets ih =>
      obtain ⟨here, others⟩ := List.forall_mem_cons.mp fit
      rcases srtpSend_cases ops ts clock packet sender with
        ⟨oversize, _⟩ | ⟨_, next, attempt, sent, same, added, payload, handed⟩
      · exact absurd here (Nat.not_le.mpr oversize)
      · obtain ⟨final, more, rest, all, payloads, allHanded⟩ := ih next (by rwa [same])
        refine ⟨final, attempt :: more, ?_, ?_, ?_, List.forall_mem_cons.mpr ⟨handed, allHanded⟩⟩
        · rw [sendAll, sent, ok_bind]
          exact rest
        · rw [all, added, List.append_assoc]
          rfl
        · rw [List.map_cons, payload, payloads]

/-- The send returns 0, and the inner transport has been handed every packet of the unit. -/
def Delivered (ops : CryptoSrtpOps) (ts : RtpTimestamp) (clock : Nat → UInt64)
    (sender : SrtpSender) (nalu : NalUnit) : Prop :=
  ∃ next added, NalTransport.sendPacket .default (srtpSend ops ts clock) nalu sender =
      .ok (next, 0) ∧ next.attempts = sender.attempts ++ added ∧
    added.map attemptPayload = naluPackets .default nalu ∧ ∀ attempt ∈ added, Handed attempt

theorem default_room (header : NalHeader) :
    header.fuSize < NalTransportConfig.default.limit header := by
  cases header with
  | H264 h => exact (by decide : 2 < 1200)
  | H265 h => exact (by decide : 3 < 4096)

theorem sendPacket_srtp (ops : CryptoSrtpOps) (ts : RtpTimestamp) (clock : Nat → UInt64)
    (nalu : NalUnit) (sender : SrtpSender) :
    NalTransport.sendPacket .default (srtpSend ops ts clock) nalu sender =
      sendAll (srtpSend ops ts clock) (naluPackets .default nalu) sender := by
  refine sendPacket_eq _ _ nalu (default_room nalu.header) sender ?_
  intro marker header data t t' ret sent
  rcases srtpSend_cases ops ts clock ⟨marker, header, data⟩ t with
    ⟨_, refused⟩ | ⟨_, _, _, taken, _⟩
  · rw [refused] at sent
    cases sent
    exact Or.inr rfl
  · rw [taken] at sent
    cases sent
    exact Or.inl rfl

theorem delivered_of_fit (ops : CryptoSrtpOps) (ts : RtpTimestamp) (clock : Nat → UInt64)
    (sender : SrtpSender) (nalu : NalUnit)
    (fit : ∀ packet ∈ naluPackets .default nalu,
      overhead sender + packet.bytes.length ≤ srtpMaxPacketSize) :
    Delivered ops ts clock sender nalu := by
  obtain ⟨next, added, sent, attempts, payloads, handed⟩ :=
    sendAll_srtp ops ts clock (naluPackets .default nalu) sender fit
  exact ⟨next, added, (sendPacket_srtp ops ts clock nalu sender).trans sent, attempts, payloads,
    handed⟩

theorem not_delivered (ops : CryptoSrtpOps) (ts : RtpTimestamp) (clock : Nat → UInt64)
    (sender : SrtpSender) (nalu : NalUnit) (packet : RtpPayload) (rest : List RtpPayload)
    (first : naluPackets .default nalu = packet :: rest)
    (oversize : srtpMaxPacketSize < overhead sender + packet.bytes.length) :
    ¬ Delivered ops ts clock sender nalu := by
  intro ⟨next, added, sent, _⟩
  rcases srtpSend_cases ops ts clock packet sender with ⟨_, refused⟩ | ⟨fit, _⟩
  · rw [sendPacket_srtp, first, sendAll, refused, ok_bind] at sent
    cases sent
  · exact absurd oversize (Nat.not_lt.mpr fit)

theorem naluPackets_first (h : H265NalHeader) (payload : List UInt8) :
    ∃ packet rest, naluPackets .default ⟨.H265 h, payload⟩ = packet :: rest ∧
      (packet.bytes.length = 2 + payload.length ∧ rest = [] ∨
        packet.bytes.length = 4096 ∧ 4096 ≤ 2 + payload.length) := by
  rw [naluPackets]
  split
  · refine ⟨_, [], rfl, Or.inl ⟨?_, rfl⟩⟩
    rw [RtpPayload.bytes, List.length_append, NalHeader.length_serialize]
    rfl
  · rename_i long
    have enough : 4096 ≤ 2 + payload.length := Nat.le_of_not_lt long
    have several : 2 ≤ windowCount 4093 payload.length :=
      windowCount_ge_two (by decide) (by omega)
    have packets := map_range_cons
      (fuPacket ⟨.H265 h, payload⟩ 4093 (windowCount 4093 payload.length))
      (Nat.zero_lt_of_lt several)
    refine ⟨_, _, packets, Or.inr ⟨?_, enough⟩⟩
    rw [RtpPayload.bytes, List.length_append, fuPacket, NalHeader.length_writeFuHeader, window,
      List.length_take, List.length_drop]
    dsimp only [NalHeader.fuSize]
    omega

theorem lost_of_long (ops : CryptoSrtpOps) (ts : RtpTimestamp) (clock : Nat → UInt64)
    (sender : SrtpSender) (h : H265NalHeader) (payload : List UInt8)
    (long : srtpMaxPacketSize < overhead sender + 2 + payload.length) :
    ¬ Delivered ops ts clock sender ⟨.H265 h, payload⟩ := by
  obtain ⟨packet, rest, packets, size⟩ := naluPackets_first h payload
  refine not_delivered ops ts clock sender _ packet rest packets ?_
  rw [srtpMaxPacketSize] at long ⊢
  omega

/-- Every H.264 unit goes through.  An H.265 unit goes through where it fits into one
packet of SRTP together with the RTP header and the tag: the NAL transport leaves units
of up to 4095 bytes whole, and cuts the others into packets of 4096. -/
theorem delivered_iff (ops : CryptoSrtpOps) (ts : RtpTimestamp) (clock : Nat → UInt64)
    (sender : SrtpSender) (nalu : NalUnit) :
    Delivered ops ts clock sender nalu ↔
      (∃ h, nalu.header = .H264 h) ∨
        overhead sender + nalu.header.size + nalu.payload.length ≤ srtpMaxPacketSize := by
  obtain ⟨header, payload⟩ := nalu
  cases header with
  | H264 h =>
      refine iff_of_true (delivered_of_fit ops ts clock sender _ ?_) (Or.inl ⟨h, rfl⟩)
      intro packet member
      have short : packet.bytes.length ≤ 1200 :=
        length_naluPacket_le .default ⟨.H264 h, payload⟩ (default_room (.H264 h)) packet member
      have most := overhead_le sender
      rw [srtpMaxPacketSize]
      omega
  | H265 h =>
      constructor
      · intro delivered
        right
        by_contra long
        exact lost_of_long ops ts clock sender h payload (Nat.lt_of_not_le long) delivered
      · rintro (⟨_, other⟩ | fits)
        · contradiction
        · obtain ⟨packet, rest, packets, size⟩ := naluPackets_first h payload
          refine delivered_of_fit ops ts clock sender _ ?_
          simp only [NalHeader.size, srtpMaxPacketSize] at fits ⊢
          rcases size with ⟨whole, rfl⟩ | ⟨_, enough⟩
          · intro other member
            rw [packets, List.mem_singleton] at member
            rw [member, whole]
            omega
          · omega

def newSender : SrtpSender :=
  .start referenceOps .aesCm128HmacSha1_80 ⟨Vector.replicate 16 0, Vector.replicate 14 0⟩
    (RtpTransport.new (0, 0) 0 96 90000)

/-- A slice of 3002 bytes is one packet for the NAL transport and too much for SRTP. -/
theorem slice_lost : ¬ Delivered referenceOps (.raw 0) (fun _ => 0) newSender
    ⟨.H265 ⟨false, 1, 0, 1⟩, List.replicate 3000 0⟩ := by
  refine lost_of_long _ _ _ _ _ _ ?_
  rw [List.length_replicate, srtpMaxPacketSize]
  omega

end Compy.Nal
