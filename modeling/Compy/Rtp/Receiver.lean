import Compy.Library.BitFields
import Compy.Library.Framing
import Compy.Rtp.Deserialize
import Compy.Rtp.Transport

/-!
# The RTP receiver

`receiver.c` on the packets that an RTP transport sends: the audio receiver is called once,
with what the sender was given, and the header extension holds the last element set and
padding.
-/

set_option autoImplicit false

namespace Compy.Rtp

open BigEndian BitFields CheckedBytes Framing

def channelRtcp : UInt8 := 0

def channelRtp : UInt8 := 1

/-- One call of `on_audio`. -/
structure AudioCall where
  payloadType : UInt8
  timestamp : UInt32
  ssrc : UInt32
  payload : List UInt8
  deriving DecidableEq, Repr

/-- Either of the two may be missing. -/
structure RtpReceiver (κ : Type) where
  rtcp : Option κ
  audioReceiver : Bool

/-- `handleIncoming` is that of the RTCP session.  Back come the receiver, the calls of
`on_audio` and the return value. -/
def RtpReceiver.feed {κ : Type} (handleIncoming : κ → List UInt8 → κ × Int)
    (self : RtpReceiver κ) (channelType : UInt8) (data : List UInt8) :
    Access (RtpReceiver κ × List AudioCall × Int) := do
  if channelType = channelRtcp then
    match self.rtcp with
    | none => return (self, [], 0)
    | some rtcp =>
        let (rtcp, ret) := handleIncoming rtcp data
        return ({ self with rtcp := some rtcp }, [], ret)
  else if channelType = channelRtp then
    if self.audioReceiver = false then return (self, [], 0)
    match ← RtpHeader.deserialize data with
    | none => return (self, [], -1)
    | some (hdr, hdrSize) =>
        return (self, [⟨hdr.payloadTy, htonl hdr.timestamp, htonl hdr.ssrc, data.drop hdrSize⟩], 0)
  else return (self, [], -1)

theorem RtpReceiver.feed_packet {κ : Type} (handleIncoming : κ → List UInt8 → κ × Int)
    (rtcp : Option κ) (packet : RtpPacket) (wellFormed : packet.WellFormed) :
    RtpReceiver.feed handleIncoming ⟨rtcp, true⟩ channelRtp packet.bytes =
      .ok (⟨rtcp, true⟩,
        [⟨packet.second &&& 0x7F, packet.timestamp, packet.ssrc, packet.payload⟩], 0) := by
  rw [feed, if_neg (by decide), if_pos rfl, if_neg Bool.true_eq_false.mp,
    packet.deserialize_bytes wellFormed, ok_bind]
  dsimp only [RtpPacket.header]
  rw [htonl_htonl, htonl_htonl, packet.drop_headerSize]
  rfl

/-! ## The packet of a transport -/

def RtpTransport.packet (self : RtpTransport) (ts : RtpTimestamp) (marker : Bool)
    (payload : List UInt8) : RtpPacket where
  first := if self.extension = [] then 0x80 else 0x90
  second := self.payloadTy ||| (if marker then 0x80 else 0)
  sequenceNumber := self.seqNum
  timestamp := computeTimestamp ts self.clockRate
  ssrc := self.ssrc
  csrc := []
  extension := if self.extension = [] then none else some (0xBEDE, self.extension)
  payload := payload

theorem RtpTransport.bytes_packet (self : RtpTransport) (ts : RtpTimestamp) (marker : Bool)
    (payload : List UInt8) :
    (self.packet ts marker payload).bytes = self.headerBytes ts marker ++ payload := by
  rw [RtpPacket.bytes, RtpPacket.extensionBytes, headerBytes, extensionHeader, packet]
  dsimp only
  split <;> simp only [List.append_assoc, List.nil_append]

theorem RtpTransport.packet_wellFormed (self : RtpTransport) (ts : RtpTimestamp) (marker : Bool)
    (payload : List UInt8) : (self.packet ts marker payload).WellFormed := by
  have words := self.extLen_words
  have length := self.length_extension
  by_cases empty : self.extension = []
  · refine ⟨?_, ?_, ?_, ?_⟩ <;> simp only [packet, empty, if_true]
    · decide
    · decide
    · decide
    · nofun
  · refine ⟨?_, ?_, ?_, ?_⟩ <;> simp only [packet, empty, if_false]
    · decide
    · decide
    · exact (by decide : ((0x90 : UInt8) >>> 4 &&& 0x01 != 0) = true)
    · intro element member
      obtain rfl := Option.some.inj member
      dsimp only
      omega

theorem payloadTy_second (payloadTy : UInt8) (small : payloadTy < 128) (marker : Bool) :
    (payloadTy ||| (if marker then 0x80 else 0)) &&& 0x7F = payloadTy := by
  have below : payloadTy.toNat < 2 ^ 7 := small
  apply UInt8.toNat_inj.mp
  rw [toNat_and_low _ _ 7 (by decide), UInt8.or_comm, toNat_or _ _ 7 _ below]
  · cases marker
    · exact (congrArg (· % 2 ^ 7) (Nat.zero_add _)).trans (Nat.mod_eq_of_lt below)
    · exact (Nat.add_mod_left _ _).trans (Nat.mod_eq_of_lt below)
  · cases marker <;> decide

/-! ## The header extension -/

/-- An item of the one-byte format of RFC 8285. -/
inductive ExtensionItem where
  | padding
  | element (id : Nat) (value : List UInt8)
  deriving DecidableEq, Repr

/-- The ids 0 and 15 are not those of elements. -/
def readExtensionItem : List UInt8 → Access (ExtensionItem × List UInt8)
  | [] => .error .outOfBounds
  | byte :: rest =>
      if byte = 0 then .ok (.padding, rest)
      else if field byte 4 4 = 0 ∨ field byte 4 4 = 15 then .error .assertion
      else do
        let value ← readBytes rest 0 (field byte 0 4 + 1)
        return (.element (field byte 4 4) value, rest.drop (field byte 0 4 + 1))

def readExtension (bytes : List UInt8) : Access (List ExtensionItem) :=
  readAll readExtensionItem .diverges bytes.length bytes

theorem readAll_padding (count fuel : Nat) (enough : count ≤ fuel) :
    readAll readExtensionItem .diverges fuel (List.replicate count 0) =
      .ok (List.replicate count .padding) := by
  induction count generalizing fuel with
  | zero => cases fuel <;> rfl
  | succ count ih =>
      obtain ⟨fuel, rfl⟩ : ∃ left, fuel = left + 1 := ⟨fuel - 1, by omega⟩
      rw [List.replicate_succ, readAll_step (List.cons_ne_nil _ _) rfl, ih fuel (by omega)]
      rfl

theorem ExtensionElement.field_header (element : ExtensionElement) :
    field ((element.id <<< 4) ||| UInt8.ofNat (element.value.length - 1)) 4 4 =
        element.id.toNat ∧
      field ((element.id <<< 4) ||| UInt8.ofNat (element.value.length - 1)) 0 4 + 1 =
        element.value.length := by
  have ids := element.id_range
  have lens := element.len_range
  have low : (UInt8.ofNat (element.value.length - 1)).toNat = element.value.length - 1 := by
    rw [UInt8.toNat_ofNat']
    omega
  have high : (element.id <<< 4).toNat = element.id.toNat * 2 ^ 4 :=
    toNat_shiftLeft element.id 4 (by decide) (by simp only [UInt8.reduceToNat]; omega)
  have value := toNat_or (element.id <<< 4) (UInt8.ofNat (element.value.length - 1)) 4
    (high ▸ Nat.dvd_mul_left _ _) (by omega)
  rw [field, field, value, high, low]
  omega

theorem ExtensionElement.readItem (element : ExtensionElement) (rest : List UInt8) :
    readExtensionItem (((element.id <<< 4) ||| UInt8.ofNat (element.value.length - 1)) ::
      (element.value ++ rest)) = .ok (.element element.id.toNat element.value, rest) := by
  have ids := element.id_range
  obtain ⟨id, length⟩ := element.field_header
  generalize (element.id <<< 4) ||| UInt8.ofNat (element.value.length - 1) = byte at id length
  have nonzero : byte ≠ 0 := by
    rintro rfl
    rw [show field 0 4 4 = 0 from rfl] at id
    omega
  rw [readExtensionItem, if_neg nonzero, id, length, if_neg (by omega),
    readBytes_ok _ _ _ (by rw [List.length_append]; omega), ok_bind, List.drop_zero, List.take_left,
    List.drop_left]
  rfl

theorem ExtensionElement.read_bytes (element : ExtensionElement) :
    ∃ count, readExtension element.bytes =
      .ok (.element element.id.toNat element.value :: List.replicate count .padding) := by
  refine ⟨(4 - (1 + element.value.length) % 4) % 4, ?_⟩
  have item := element.readItem (List.replicate ((4 - (1 + element.value.length) % 4) % 4) 0)
  rw [readExtension, ExtensionElement.bytes, List.append_assoc, List.singleton_append,
    List.length_cons, readAll_step (List.cons_ne_nil _ _) item, readAll_padding]
  · rfl
  · rw [List.length_append, List.length_replicate]
    exact Nat.le_add_left _ _

theorem RtpTransport.extension_setExtension (self : RtpTransport) (element : ExtensionElement) :
    (self.setExtension element).extension = element.bytes := by
  have size := element.length_bytes
  have length : (UInt16.ofNat element.bytes.length).toNat = element.bytes.length := by
    rw [UInt16.toNat_ofNat', Nat.mod_eq_of_lt (by omega)]
  rw [extension, setExtension]
  dsimp only
  rw [length, Vector.toList_mk, List.toList_toArray, List.take_left]

/-! ## From the transport to the receiver -/

def RtpTransport.setExtensions (self : RtpTransport) (elements : List ExtensionElement) :
    RtpTransport := elements.foldl setExtension self

theorem RtpTransport.setExtensions_fields (self : RtpTransport)
    (elements : List ExtensionElement) :
    (self.setExtensions elements).payloadTy = self.payloadTy ∧
      (self.setExtensions elements).clockRate = self.clockRate ∧
      (self.setExtensions elements).ssrc = self.ssrc := by
  induction elements generalizing self with
  | nil => exact ⟨rfl, rfl, rfl⟩
  | cons element elements ih => exact ih (self.setExtension element)

theorem RtpTransport.extension_setExtensions (self : RtpTransport)
    (elements : List ExtensionElement) (last : ExtensionElement)
    (ends : elements.getLast? = some last) :
    (self.setExtensions elements).extension = last.bytes := by
  obtain ⟨before, rfl⟩ := List.getLast?_eq_some_iff.mp ends
  rw [setExtensions, List.foldl_append]
  exact extension_setExtension _ last

/-- What has been sent is received: one call of `on_audio` with the payload and the fields
of the transport, and a header with the last extension element. -/
theorem sent_received {κ : Type} (handleIncoming : κ → List UInt8 → κ × Int) (rtcp : Option κ)
    (rtp : RtpTransport) (type : rtp.payloadTy < 128) (elements : List ExtensionElement)
    (ret : Int) (ts : RtpTimestamp) (marker : Bool) (payloadHeader payload : List UInt8)
    (monotonicUs : UInt64) :
    ∃ rtp' packet, (rtp.setExtensions elements).sendPacket (fun bufs => (bufs.flatten, ret)) ts
        marker payloadHeader payload monotonicUs = .ok (rtp', packet, ret) ∧
      RtpReceiver.feed handleIncoming ⟨rtcp, true⟩ channelRtp packet =
        .ok (⟨rtcp, true⟩, [⟨rtp.payloadTy, computeTimestamp ts rtp.clockRate, rtp.ssrc,
          payloadHeader ++ payload⟩], 0) ∧
      ∃ header size, RtpHeader.deserialize packet = .ok (some (header, size)) ∧
        ∀ last, elements.getLast? = some last → header.extension = true ∧
          header.extensionProfile = htons 0xBEDE ∧ ∃ count,
            readExtension header.extensionPayload =
              .ok (.element last.id.toNat last.value :: List.replicate count .padding) := by
  obtain ⟨payloadTy, clockRate, ssrc⟩ := rtp.setExtensions_fields elements
  have extension := rtp.extension_setExtensions elements
  generalize rtp.setExtensions elements = self at payloadTy clockRate ssrc extension
  have wellFormed := self.packet_wellFormed ts marker (payloadHeader ++ payload)
  have bytes : [self.headerBytes ts marker, payloadHeader, payload].flatten =
      (self.packet ts marker (payloadHeader ++ payload)).bytes := by
    rw [self.bytes_packet]
    simp only [List.flatten_cons, List.flatten_nil, List.append_nil]
  have fed := RtpReceiver.feed_packet handleIncoming rtcp _ wellFormed
  have second : (self.packet ts marker (payloadHeader ++ payload)).second &&& 0x7F =
      rtp.payloadTy := by
    rw [← payloadTy] at type ⊢
    exact payloadTy_second self.payloadTy type marker
  have sent : ∃ rtp', self.sendPacket (fun bufs => (bufs.flatten, ret)) ts marker payloadHeader
      payload monotonicUs = .ok (rtp', (self.packet ts marker (payloadHeader ++ payload)).bytes,
        ret) := by
    rw [RtpTransport.sendPacket, self.serialize_header, ok_bind, bytes]
    dsimp only
    split
    · exact ⟨_, rfl⟩
    · exact ⟨_, rfl⟩
  obtain ⟨rtp', sent⟩ := sent
  refine ⟨rtp', _, sent, ?_, _, _, RtpPacket.deserialize_bytes _ wellFormed, ?_⟩
  · rw [fed, second, RtpTransport.packet, clockRate, ssrc]
  · intro last ends
    have bytes := extension last ends
    have nonempty : self.extension ≠ [] := by
      rw [bytes]
      exact List.cons_ne_nil _ _
    have extended : (self.packet ts marker (payloadHeader ++ payload)).extension =
        some (0xBEDE, self.extension) := if_neg nonempty
    obtain ⟨count, read⟩ := last.read_bytes
    rw [← bytes] at read
    dsimp only [RtpPacket.header]
    rw [extended]
    exact ⟨rfl, rfl, count, read⟩

def audioLevel : ExtensionElement := ⟨1, [0x2A], by decide, by decide⟩

def frameMarking : ExtensionElement := ⟨5, [1, 2, 3, 4, 5, 6, 7, 8], by decide, by decide⟩

/-- The long element leaves nothing behind the short one. -/
theorem audioLevel_received :
    ∃ rtp' packet, ((RtpTransport.new (0, 0) 0 8 8000).setExtensions
        [frameMarking, audioLevel]).sendPacket (fun bufs => (bufs.flatten, 0)) (.raw 160) true []
        [0xD5, 0x55] 0 = .ok (rtp', packet, 0) ∧
      RtpReceiver.feed (fun (_ : Unit) _ => ((), 0)) ⟨none, true⟩ channelRtp packet =
        .ok (⟨none, true⟩, [⟨8, 160, 0, [0xD5, 0x55]⟩], 0) ∧
      ∃ header size, RtpHeader.deserialize packet = .ok (some (header, size)) ∧
        ∀ last, [frameMarking, audioLevel].getLast? = some last → header.extension = true ∧
          header.extensionProfile = htons 0xBEDE ∧ ∃ count,
            readExtension header.extensionPayload =
              .ok (.element last.id.toNat last.value :: List.replicate count .padding) :=
  sent_received _ none (RtpTransport.new (0, 0) 0 8 8000) (by decide) [frameMarking, audioLevel] 0
    (.raw 160) true [] [0xD5, 0x55] 0

end Compy.Rtp
