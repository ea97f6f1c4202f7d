import Compy.Rtp.Receiver

/-!
# Padding

A packet of RFC 3550 may end in padding, which its P bit and its last byte tell of.  The
receiver looks at neither, so the padding is delivered behind the payload.
-/

set_option autoImplicit false

namespace Compy.Rtp

open CheckedBytes

def RtpPacket.padded (self : RtpPacket) : Bool := self.first >>> 5 &&& 0x01 != 0

/-- A packet with the padding behind it; the last byte of the padding is its length. -/
structure PaddedPacket where
  packet : RtpPacket
  padding : List UInt8
  wellFormed : packet.WellFormed
  unpadded : packet.padded = false → padding = []
  counted : packet.padded = true →
    padding.length < 256 ∧ padding.getLast? = some (UInt8.ofNat padding.length)

namespace PaddedPacket

def bytes (self : PaddedPacket) : List UInt8 := self.packet.bytes ++ self.padding

theorem bytes_eq (self : PaddedPacket) :
    self.bytes = { self.packet with payload := self.packet.payload ++ self.padding }.bytes := by
  simp [bytes, RtpPacket.bytes, RtpPacket.extensionBytes]

def audioCall (self : PaddedPacket) (payload : List UInt8) : AudioCall where
  payloadType := self.packet.second &&& 0x7F
  timestamp := self.packet.timestamp
  ssrc := self.packet.ssrc
  payload := payload

variable {κ : Type} (handleIncoming : κ → List UInt8 → κ × Int) (rtcp : Option κ)

theorem feed_padded (self : PaddedPacket) :
    RtpReceiver.feed handleIncoming ⟨rtcp, true⟩ channelRtp self.bytes =
      .ok (⟨rtcp, true⟩, [self.audioCall (self.packet.payload ++ self.padding)], 0) := by
  obtain ⟨version, csrc, extension, words⟩ := self.wellFormed
  rw [self.bytes_eq]
  exact RtpReceiver.feed_packet handleIncoming rtcp
    { self.packet with payload := self.packet.payload ++ self.padding }
    ⟨version, csrc, extension, words⟩

/-- The padding is not empty where the P bit is set. -/
theorem padding_eq_nil_iff (self : PaddedPacket) :
    self.padding = [] ↔ self.packet.padded = false := by
  constructor
  · intro empty
    cases bit : self.packet.padded with
    | false => rfl
    | true =>
        have counted := (self.counted bit).2
        rw [empty] at counted
        contradiction
  · exact self.unpadded

/-- Exactly the payload is delivered of the packets without padding. -/
theorem payload_delivered_iff (self : PaddedPacket) :
    RtpReceiver.feed handleIncoming ⟨rtcp, true⟩ channelRtp self.bytes =
      .ok (⟨rtcp, true⟩, [self.audioCall self.packet.payload], 0) ↔
      self.packet.padded = false := by
  rw [self.feed_padded, ← self.padding_eq_nil_iff]
  simp [audioCall]

end PaddedPacket

def paddedPacket : PaddedPacket where
  packet := ⟨0xA0, 0x08, 1, 160, 7, [], none, [0xD5, 0x55]⟩
  padding := [0, 2]
  wellFormed := ⟨by decide, by decide, by decide, nofun⟩
  unpadded := by decide
  counted := by decide

theorem padding_delivered :
    RtpReceiver.feed (fun (_ : Unit) _ => ((), 0)) ⟨none, true⟩ channelRtp paddedPacket.bytes =
        .ok (⟨none, true⟩, [paddedPacket.audioCall [0xD5, 0x55, 0, 2]], 0) ∧
      RtpReceiver.feed (fun (_ : Unit) _ => ((), 0)) ⟨none, true⟩ channelRtp paddedPacket.bytes ≠
        .ok (⟨none, true⟩, [paddedPacket.audioCall paddedPacket.packet.payload], 0) := by
  rw [PaddedPacket.feed_padded]
  exact ⟨rfl, by simp [PaddedPacket.audioCall, paddedPacket]⟩

end Compy.Rtp
