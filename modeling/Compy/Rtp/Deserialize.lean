import Compy.Rtp.Header

/-!
# Reading an RTP header

`Compy_RtpHeader_deserialize` takes the words as they lie in memory, the extension length
too.  On every packet of version 2 whose CSRC list and extension are there in full it finds
the parts and the length of the header.
-/

set_option autoImplicit false

namespace Compy.Rtp

open BigEndian CheckedBytes

/-- The words behind the pointer `csrc`. -/
def loadWords : List UInt8 → List UInt32
  | a :: b :: c :: d :: rest => load32 [a, b, c, d] :: loadWords rest
  | _ => []

def RtpHeader.deserialize (data : List UInt8) : Access (Option (RtpHeader × Nat)) := do
  if data.length < 12 then return none
  let first ← byteAt data 0
  if first >>> 6 &&& 0x03 ≠ 2 then return none
  let second ← byteAt data 1
  let sequenceNumber ← readBytes data 2 2
  let timestamp ← readBytes data 4 4
  let ssrc ← readBytes data 8 4
  let csrcBytes := (first &&& 0x0F).toNat * 4
  if data.length < 12 + csrcBytes then return none
  let csrc ← readBytes data 12 csrcBytes
  let p := 12 + csrcBytes
  let header : RtpHeader := {
    version := first >>> 6 &&& 0x03
    padding := first >>> 5 &&& 0x01 != 0
    extension := first >>> 4 &&& 0x01 != 0
    csrcCount := first &&& 0x0F
    marker := second >>> 7 &&& 0x01 != 0
    payloadTy := second &&& 0x7F
    sequenceNumber := load16 sequenceNumber
    timestamp := load32 timestamp
    ssrc := load32 ssrc
    csrc := loadWords csrc
    extensionProfile := 0
    extensionPayloadLen := 0
    extensionPayload := [] }
  if header.extension then
    if data.length < p + 4 then return none
    let extensionProfile ← readBytes data p 2
    let extensionPayloadLen ← readBytes data (p + 2) 2
    let extBytes := (htons (load16 extensionPayloadLen)).toNat * 4
    if data.length < p + 4 + extBytes then return none
    let extensionPayload ← readBytes data (p + 4) extBytes
    return some ({ header with
      extensionProfile := load16 extensionProfile
      extensionPayloadLen := load16 extensionPayloadLen
      extensionPayload }, p + 4 + extBytes)
  else return some (header, p)

/-! ## Packets with all their parts -/

/-- A packet, part by part; the extension is its profile and its bytes. -/
structure RtpPacket where
  first : UInt8
  second : UInt8
  sequenceNumber : UInt16
  timestamp : UInt32
  ssrc : UInt32
  csrc : List UInt8
  extension : Option (UInt16 × List UInt8)
  payload : List UInt8

namespace RtpPacket

def extensionBytes (self : RtpPacket) : List UInt8 :=
  match self.extension with
  | none => []
  | some (profile, bytes) => be16 profile ++ (be16 (UInt16.ofNat (bytes.length / 4)) ++ bytes)

def bytes (self : RtpPacket) : List UInt8 :=
  [self.first, self.second] ++ (be16 self.sequenceNumber ++ (be32 self.timestamp ++
    (be32 self.ssrc ++ (self.csrc ++ (self.extensionBytes ++ self.payload)))))

/-- The first byte tells the version and which parts there are. -/
structure WellFormed (packet : RtpPacket) : Prop where
  version : packet.first >>> 6 &&& 0x03 = 2
  csrc : packet.csrc.length = (packet.first &&& 0x0F).toNat * 4
  extension : (packet.first >>> 4 &&& 0x01 != 0) = packet.extension.isSome
  words : ∀ element ∈ packet.extension, element.2.length % 4 = 0 ∧
    element.2.length / 4 < 2 ^ 16

def headerSize (self : RtpPacket) : Nat := 12 + self.csrc.length + self.extensionBytes.length

def header (self : RtpPacket) : RtpHeader where
  version := 2
  padding := self.first >>> 5 &&& 0x01 != 0
  extension := self.extension.isSome
  csrcCount := self.first &&& 0x0F
  marker := self.second >>> 7 &&& 0x01 != 0
  payloadTy := self.second &&& 0x7F
  sequenceNumber := htons self.sequenceNumber
  timestamp := htonl self.timestamp
  ssrc := htonl self.ssrc
  csrc := loadWords self.csrc
  extensionProfile := (self.extension.map fun element => htons element.1).getD 0
  extensionPayloadLen := (self.extension.map fun element =>
    htons (UInt16.ofNat (element.2.length / 4))).getD 0
  extensionPayload := (self.extension.map Prod.snd).getD []

theorem length_bytes (self : RtpPacket) :
    self.bytes.length = self.headerSize + self.payload.length := by
  simp only [bytes, headerSize, List.length_append, length_be32, List.length_cons, List.length_nil]
  rw [show (be16 self.sequenceNumber).length = 2 from rfl]
  omega

theorem drop_headerSize (self : RtpPacket) : self.bytes.drop self.headerSize = self.payload := by
  have cut : self.bytes = ([self.first, self.second] ++ be16 self.sequenceNumber ++
      be32 self.timestamp ++ be32 self.ssrc ++ self.csrc ++ self.extensionBytes) ++
      self.payload := by
    simp only [bytes, List.append_assoc]
  rw [cut, List.drop_left']
  simp only [headerSize, List.length_append, length_be32, List.length_cons, List.length_nil]
  rw [show (be16 self.sequenceNumber).length = 2 from rfl]

theorem holds (self : RtpPacket) :
    Holds self.bytes 0 [self.first] ∧ Holds self.bytes 1 [self.second] ∧
      Holds self.bytes 2 (be16 self.sequenceNumber) ∧ Holds self.bytes 4 (be32 self.timestamp) ∧
      Holds self.bytes 8 (be32 self.ssrc) ∧ Holds self.bytes 12 self.csrc ∧
      Holds self.bytes (12 + self.csrc.length) self.extensionBytes := by
  have whole : Holds self.bytes 0 self.bytes := List.prefix_rfl
  obtain ⟨bits, whole⟩ := holds_append.mp whole
  obtain ⟨sequenceNumber, whole⟩ := holds_append.mp whole
  obtain ⟨timestamp, whole⟩ := holds_append.mp whole
  obtain ⟨ssrc, whole⟩ := holds_append.mp whole
  obtain ⟨csrc, whole⟩ := holds_append.mp whole
  obtain ⟨extension, _⟩ := holds_append.mp whole
  obtain ⟨first, second⟩ := holds_cons.mp bits
  exact ⟨holds_singleton.mpr first, second, sequenceNumber, timestamp, ssrc, csrc, extension⟩

theorem deserialize_bytes (self : RtpPacket) (wellFormed : self.WellFormed) :
    RtpHeader.deserialize self.bytes = .ok (some (self.header, self.headerSize)) := by
  obtain ⟨first, second, sequenceNumber, timestamp, ssrc, csrc, extension⟩ := self.holds
  obtain ⟨version, count, flag, words⟩ := wellFormed
  have length := self.length_bytes
  rw [headerSize] at length
  have seqRead : readBytes self.bytes 2 2 = .ok (be16 self.sequenceNumber) :=
    sequenceNumber.readBytes rfl (by omega)
  have timestampRead : readBytes self.bytes 4 4 = .ok (be32 self.timestamp) :=
    timestamp.readBytes rfl (by omega)
  have ssrcRead : readBytes self.bytes 8 4 = .ok (be32 self.ssrc) :=
    ssrc.readBytes rfl (by omega)
  rw [RtpHeader.deserialize, if_neg (by omega), first.byteAt, ok_bind, version,
    if_neg (not_not_intro rfl), second.byteAt, ok_bind, seqRead, ok_bind, timestampRead, ok_bind,
    ssrcRead, ok_bind]
  dsimp only
  rw [← count, if_neg (by omega), csrc.readBytes rfl (by omega), ok_bind, flag]
  cases present : self.extension with
  | none =>
      have empty : self.extensionBytes = [] := by rw [extensionBytes, present]
      rw [header, headerSize, present, empty]
      rfl
  | some element =>
      obtain ⟨profile, bytes⟩ := element
      obtain ⟨whole, small⟩ := words _ present
      dsimp only at whole small
      have parts : self.extensionBytes =
          be16 profile ++ (be16 (UInt16.ofNat (bytes.length / 4)) ++ bytes) := by
        rw [extensionBytes, present]
      have size : self.extensionBytes.length = 4 + bytes.length := by
        rw [parts, List.length_append, List.length_append, ← Nat.add_assoc]
        rfl
      rw [parts, holds_append, holds_append] at extension
      obtain ⟨profileHolds, lengthHolds, bytesHold⟩ := extension
      change Holds _ (12 + self.csrc.length + 2) _ at lengthHolds
      change Holds _ (12 + self.csrc.length + 2 + 2) _ at bytesHold
      have swapped (x : UInt16) : htons (load16 (be16 x)) = x := htons_htons x
      have extBytes : (UInt16.ofNat (bytes.length / 4)).toNat * 4 = bytes.length := by
        rw [UInt16.toNat_ofNat', Nat.mod_eq_of_lt small]
        omega
      have profileRead : readBytes self.bytes (12 + self.csrc.length) 2 = .ok (be16 profile) :=
        profileHolds.readBytes rfl (by omega)
      have wordsRead : readBytes self.bytes (12 + self.csrc.length + 2) 2 =
          .ok (be16 (UInt16.ofNat (bytes.length / 4))) := lengthHolds.readBytes rfl (by omega)
      have bytesRead : readBytes self.bytes (12 + self.csrc.length + 4) bytes.length = .ok bytes :=
        bytesHold.readBytes rfl (by omega)
      rw [Option.isSome_some, if_pos rfl, if_neg (by omega), profileRead, ok_bind, wordsRead,
        ok_bind, swapped, extBytes, if_neg (by omega), bytesRead, ok_bind, header, headerSize,
        present, size, ← Nat.add_assoc]
      rfl

end RtpPacket

end Compy.Rtp
