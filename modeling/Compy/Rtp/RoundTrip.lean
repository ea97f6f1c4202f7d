import Compy.Rtp.Deserialize

/-!
# From a header to its bytes and back

What `Compy_RtpHeader_deserialize` makes of the bytes of `Compy_RtpHeader_serialize`.  The
serializer swaps the extension length and the parser does not swap it back.
-/

set_option autoImplicit false

namespace Compy.Rtp

open BigEndian CheckedBytes

namespace RtpHeader

/-- The headers that have a place on the wire. -/
structure Valid (header : RtpHeader) : Prop where
  version : header.version = 2
  few : header.csrcCount.toNat < 16
  csrc : header.csrc.length = header.csrcCount.toNat
  type : header.payloadTy.toNat < 128
  words : header.extension = true → header.extensionPayloadLen.toNat < 16384 ∧
    header.extensionPayload.length = header.extensionPayloadLen.toNat * 4

theorem Valid.filled {header : RtpHeader} (valid : header.Valid) : header.Filled :=
  ⟨Nat.le_of_eq valid.csrc.symm, fun extended => Nat.le_of_eq (valid.words extended).2.symm⟩

/-! ## The two bytes of flags -/

private theorem flags_first : ∀ (count : Fin 16) (padding extension : Bool),
    let byte : UInt8 := (((2 : UInt8) <<< 6) ||| UInt8.ofNat count) |||
      (if padding then (1 : UInt8) <<< 5 else 0) ||| (if extension then (1 : UInt8) <<< 4 else 0)
    byte >>> 6 &&& 0x03 = 2 ∧ (byte >>> 5 &&& 0x01 != 0) = padding ∧
      (byte >>> 4 &&& 0x01 != 0) = extension ∧ byte &&& 0x0F = UInt8.ofNat count := by
  decide

private theorem flags_second : ∀ (type : Fin 128) (marker : Bool),
    let byte : UInt8 := UInt8.ofNat type ||| (if marker then (1 : UInt8) <<< 7 else 0)
    (byte >>> 7 &&& 0x01 != 0) = marker ∧ byte &&& 0x7F = UInt8.ofNat type := by
  decide

theorem firstByte_flags (self : RtpHeader) (valid : self.Valid) :
    self.firstByte >>> 6 &&& 0x03 = 2 ∧ (self.firstByte >>> 5 &&& 0x01 != 0) = self.padding ∧
      (self.firstByte >>> 4 &&& 0x01 != 0) = self.extension ∧
      self.firstByte &&& 0x0F = self.csrcCount := by
  have flags := flags_first ⟨self.csrcCount.toNat, valid.few⟩ self.padding self.extension
  simp only [UInt8.ofNat_toNat] at flags
  rw [firstByte, valid.version]
  exact flags

theorem secondByte_flags (self : RtpHeader) (valid : self.Valid) :
    (self.secondByte >>> 7 &&& 0x01 != 0) = self.marker ∧
      self.secondByte &&& 0x7F = self.payloadTy := by
  have flags := flags_second ⟨self.payloadTy.toNat, valid.type⟩ self.marker
  simp only [UInt8.ofNat_toNat] at flags
  exact flags

/-! ## The packet of a header -/

theorem loadWords_flatMap (words : List UInt32) : loadWords (words.flatMap store32) = words := by
  induction words with
  | nil => rfl
  | cons word words ih =>
      have first := load32_store32 word []
      rw [List.append_nil] at first
      simp only [store32] at first
      simp only [List.flatMap_cons, store32, List.cons_append, List.nil_append, loadWords] at ih ⊢
      rw [first, ih]

/-- The header with `rest` behind it, part by part. -/
def packet (self : RtpHeader) (rest : List UInt8) : RtpPacket where
  first := self.firstByte
  second := self.secondByte
  sequenceNumber := htons self.sequenceNumber
  timestamp := htonl self.timestamp
  ssrc := htonl self.ssrc
  csrc := self.csrc.flatMap store32
  extension := if self.extension then
    some (htons self.extensionProfile, self.extensionPayload) else none
  payload := rest

theorem words_payload (self : RtpHeader) (valid : self.Valid) (extended : self.extension = true) :
    UInt16.ofNat (self.extensionPayload.length / 4) = self.extensionPayloadLen := by
  rw [(valid.words extended).2, Nat.mul_div_cancel _ (by decide), UInt16.ofNat_toNat]

theorem packet_wellFormed (self : RtpHeader) (valid : self.Valid) (rest : List UInt8) :
    (self.packet rest).WellFormed := by
  obtain ⟨version, _, extension, count⟩ := self.firstByte_flags valid
  constructor
  · exact version
  · change (self.csrc.flatMap store32).length = (self.firstByte &&& 0x0F).toNat * 4
    rw [count, length_words, valid.csrc]
  · simp only [packet]
    rw [extension]
    cases self.extension <;> rfl
  · intro element member
    cases extended : self.extension with
    | false => simp [packet, extended] at member
    | true =>
        obtain ⟨short, words⟩ := valid.words extended
        simp [packet, extended] at member
        subst member
        dsimp only
        omega

theorem bytes_packet (self : RtpHeader) (valid : self.Valid) (rest : List UInt8) :
    (self.packet rest).bytes = self.bytes ++ rest := by
  have csrc : self.csrc.take self.csrcCount.toNat = self.csrc := by
    rw [← valid.csrc, List.take_length]
  rw [RtpPacket.bytes, RtpPacket.extensionBytes, bytes, fixedBytes, csrc]
  cases extended : self.extension with
  | false => simp [packet, extended, be16_htons, be32_htonl]
  | true =>
      have words := self.words_payload valid extended
      have whole : self.extensionPayload.take (self.extensionPayloadLen.toNat * 4) =
          self.extensionPayload := by
        rw [← (valid.words extended).2, List.take_length]
      simp [packet, extended, be16_htons, be32_htonl, words, whole, store16_htons]

/-- What the parser knows of the extension. -/
def parsed (self : RtpHeader) : RtpHeader :=
  if self.extension then { self with extensionPayloadLen := htons self.extensionPayloadLen }
  else { self with extensionProfile := 0, extensionPayloadLen := 0, extensionPayload := [] }

theorem header_packet (self : RtpHeader) (valid : self.Valid) (rest : List UInt8) :
    (self.packet rest).header = self.parsed := by
  obtain ⟨_, padding, _, count⟩ := self.firstByte_flags valid
  obtain ⟨marker, type⟩ := self.secondByte_flags valid
  have version := valid.version
  unfold RtpPacket.header parsed
  cases extended : self.extension with
  | false =>
      simp [packet, padding, count, marker, type, htons_htons, htonl_htonl, loadWords_flatMap,
        extended, version]
  | true =>
      have words := self.words_payload valid extended
      simp [packet, padding, count, marker, type, htons_htons, htonl_htonl, loadWords_flatMap,
        extended, version, words]

theorem deserialize_bytes (self : RtpHeader) (valid : self.Valid) (rest : List UInt8) :
    deserialize (self.bytes ++ rest) = .ok (some (self.parsed, self.size)) := by
  have length := (self.packet rest).length_bytes
  have size : (self.packet rest).headerSize = self.size := by
    rw [self.bytes_packet valid, List.length_append, self.length_bytes valid.filled] at length
    exact Nat.add_right_cancel length.symm
  rw [← self.bytes_packet valid,
    RtpPacket.deserialize_bytes _ (self.packet_wellFormed valid rest), self.header_packet valid,
    size]

/-! ## Headers that come back -/

/-- The parser finds the header in front of `rest`, as it was and as long as it was. -/
def RoundTrips (self : RtpHeader) (rest : List UInt8) : Prop :=
  ∃ buffer, self.serialize = .ok buffer ∧
    deserialize (buffer ++ rest) = .ok (some (self, self.size))

theorem roundTrips_parsed (self : RtpHeader) (valid : self.Valid) (rest : List UInt8) :
    self.RoundTrips rest ↔ self.parsed = self := by
  have written := self.serialize_ok valid.filled fun extended => (valid.words extended).1
  have read := self.deserialize_bytes valid rest
  constructor
  · rintro ⟨buffer, same, found⟩
    rw [written] at same
    cases same
    rw [read] at found
    simpa using found
  · intro same
    rw [same] at read
    exact ⟨self.bytes, written, read⟩

/-- A header with an extension comes back if the two bytes of the length are the same, one
without if its extension fields are not set. -/
theorem roundTrips_iff (self : RtpHeader) (valid : self.Valid) (rest : List UInt8) :
    self.RoundTrips rest ↔
      if self.extension then
        self.extensionPayloadLen.toNat / 256 = self.extensionPayloadLen.toNat % 256
      else self.extensionProfile = 0 ∧ self.extensionPayloadLen = 0 ∧
        self.extensionPayload = [] := by
  rw [self.roundTrips_parsed valid rest, ← htons_eq_self_iff, parsed]
  obtain ⟨version, padding, extension, csrcCount, marker, payloadTy, sequenceNumber, timestamp,
    ssrc, csrc, profile, length, payload⟩ := self
  cases extension with
  | true => simp
  | false =>
      simp only [Bool.false_eq_true, if_false, mk.injEq, true_and]
      constructor
      · rintro ⟨rfl, rfl, rfl⟩
        exact ⟨rfl, rfl, rfl⟩
      · rintro ⟨rfl, rfl, rfl⟩
        exact ⟨rfl, rfl, rfl⟩

theorem extended_valid (words : UInt16) (few : words.toNat < 16384) : (extended words).Valid := by
  constructor <;> simp [extended, few]

/-- An extension of 257 words. -/
theorem extended_back : (extended 257).RoundTrips [1, 2, 3] :=
  (roundTrips_iff (extended 257) (extended_valid 257 (by decide)) [1, 2, 3]).mpr (by decide)

/-- An extension of one word comes back with a length of 256. -/
theorem extended_swapped : (extended 1).Valid ∧ ¬ (extended 1).RoundTrips [] ∧
    (extended 1).parsed.extensionPayloadLen = 256 := by
  refine ⟨extended_valid 1 (by decide), ?_, by decide⟩
  rw [roundTrips_parsed (extended 1) (extended_valid 1 (by decide))]
  intro same
  exact absurd (congrArg extensionPayloadLen same) (by decide)

end RtpHeader

end Compy.Rtp
