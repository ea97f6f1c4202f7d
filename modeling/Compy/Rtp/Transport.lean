import Compy.Rtp.Header

/-!
# The RTP transport

`rtp_transport.c` on top of any `Compy_Transport`.  The transport below is the
function `transmit`, from the I/O vectors to whatever it keeps and its return
value; the clock readings are arguments.  What the machine makes of the double
product in `compute_timestamp` is a function that comes with the timestamp.
-/

set_option autoImplicit false

namespace Compy.Rtp

open BigEndian CheckedBytes

/-- The contents of the I/O vectors of one transmit. -/
abbrev IoVecSlice := List (List UInt8)

def IoVecSlice.len (self : IoVecSlice) : Nat :=
  self.foldl (fun result iov => result + iov.length) 0

theorem IoVecSlice.len_eq (self : IoVecSlice) : self.len = self.flatten.length := by
  have shifted : ∀ (iovs : IoVecSlice) (start : Nat),
      iovs.foldl (fun result iov => result + iov.length) start = start + iovs.flatten.length := by
    intro iovs
    induction iovs with
    | nil => intro start; rfl
    | cons iov rest ih =>
        intro start
        rw [List.foldl_cons, ih, List.flatten_cons, List.length_append, Nat.add_assoc]
  rw [IoVecSlice.len, shifted, Nat.zero_add]

inductive RtpTimestamp where
  | raw (ts : UInt32)
  | sysClockUs (timeUs : UInt64) (product : UInt64 → UInt32 → UInt32)

def computeTimestamp (ts : RtpTimestamp) (clockRate : UInt32) : UInt32 :=
  match ts with
  | .raw ts => ts
  | .sysClockUs timeUs product =>
      let usRem := timeUs % 1000
      let ms := (timeUs - usRem) / 1000
      let clockRateKHz := clockRate / 1000
      (ms * clockRateKHz.toUInt64 + (product usRem clockRateKHz).toUInt64).toUInt32

/-- `ext_len` is zero or the padded length of an element: `set_extension` is the
only writer. -/
structure RtpTransport where
  seqNum : UInt16
  ssrc : UInt32
  payloadTy : UInt8
  clockRate : UInt32
  packetCount : UInt32
  octetCount : UInt32
  lastRtpTimestamp : UInt32
  lastSendTimeUs : UInt64
  extData : Vector UInt8 12
  extLen : UInt16
  extLen_words : extLen.toNat ≤ 12 ∧ extLen.toNat % 4 = 0

/-- `malloc` leaves `last_send_time_us` as it finds it. -/
def RtpTransport.new (rng : UInt32 × UInt32) (mallocedLastSendTimeUs : UInt64)
    (payloadTy : UInt8) (clockRate : UInt32) : RtpTransport where
  seqNum := rng.2.toUInt16
  ssrc := rng.1
  payloadTy := payloadTy
  clockRate := clockRate
  packetCount := 0
  octetCount := 0
  lastRtpTimestamp := 0
  lastSendTimeUs := mallocedLastSendTimeUs
  extData := Vector.replicate 12 0
  extLen := 0
  extLen_words := ⟨by decide, by decide⟩

def RtpTransport.header (self : RtpTransport) (ts : RtpTimestamp) (marker : Bool) :
    RtpHeader where
  version := 2
  padding := false
  extension := decide (0 < self.extLen)
  csrcCount := 0
  marker := marker
  payloadTy := self.payloadTy
  sequenceNumber := htons self.seqNum
  timestamp := htonl (computeTimestamp ts self.clockRate)
  ssrc := htonl self.ssrc
  csrc := []
  extensionProfile := htons 0xBEDE
  extensionPayloadLen := if 0 < self.extLen then (self.extLen + 3) / 4 else 0
  extensionPayload := if 0 < self.extLen then self.extData.toList else []

def RtpTransport.sendPacket {τ : Type} (self : RtpTransport)
    (transmit : IoVecSlice → τ × Int) (ts : RtpTimestamp) (marker : Bool)
    (payloadHeader payload : List UInt8) (monotonicUs : UInt64) :
    Access (RtpTransport × τ × Int) := do
  let rtpHeader ← (self.header ts marker).serialize
  let (transport, ret) := transmit [rtpHeader, payloadHeader, payload]
  if ret ≠ -1 then
    return ({ self with
      seqNum := self.seqNum + 1
      packetCount := self.packetCount + 1
      octetCount := self.octetCount + UInt32.ofNat (payloadHeader.length + payload.length)
      lastRtpTimestamp := computeTimestamp ts self.clockRate
      lastSendTimeUs := monotonicUs }, transport, ret)
  else
    return (self, transport, ret)

/-- A reading of 0 stands for "no packet yet". -/
def RtpTransport.getRtpTimestampNow (self : RtpTransport) (nowUs : UInt64) : UInt32 :=
  if self.lastSendTimeUs = 0 then self.lastRtpTimestamp
  else
    let elapsedUs := nowUs - self.lastSendTimeUs
    self.lastRtpTimestamp + (elapsedUs * self.clockRate.toUInt64 / 1000000).toUInt32

def RtpTransport.getSsrc (self : RtpTransport) : UInt32 := self.ssrc

def RtpTransport.setSsrc (self : RtpTransport) (ssrc : UInt32) : RtpTransport := { self with ssrc }

def RtpTransport.getSeq (self : RtpTransport) : UInt16 := self.seqNum

def RtpTransport.getPacketCount (self : RtpTransport) : UInt32 := self.packetCount

def RtpTransport.getOctetCount (self : RtpTransport) : UInt32 := self.octetCount

def RtpTransport.getLastRtpTimestamp (self : RtpTransport) : UInt32 := self.lastRtpTimestamp

/-! ## The header extension -/

/-- The arguments `set_extension` asserts. -/
structure ExtensionElement where
  id : UInt8
  value : List UInt8
  id_range : 1 ≤ id.toNat ∧ id.toNat ≤ 14
  len_range : 1 ≤ value.length ∧ value.length ≤ 8

/-- The element and the zeros up to the next multiple of four. -/
def ExtensionElement.bytes (element : ExtensionElement) : List UInt8 :=
  let len := element.value.length
  [(element.id <<< 4) ||| UInt8.ofNat (len - 1)] ++ element.value ++
    List.replicate ((4 - (1 + len) % 4) % 4) 0

theorem ExtensionElement.length_bytes (element : ExtensionElement) :
    element.bytes.length ≤ 12 ∧ element.bytes.length % 4 = 0 := by
  have range := element.len_range
  simp only [ExtensionElement.bytes, List.length_append, List.length_replicate,
    List.length_singleton]
  omega

def RtpTransport.setExtension (self : RtpTransport) (element : ExtensionElement) :
    RtpTransport :=
  have size := element.length_bytes
  { self with
    extData := ⟨(element.bytes ++ self.extData.toList.drop element.bytes.length).toArray, by
      rw [List.size_toArray, List.length_append, List.length_drop, Vector.length_toList]
      omega⟩
    extLen := UInt16.ofNat element.bytes.length
    extLen_words := by
      rw [UInt16.toNat_ofNat', Nat.mod_eq_of_lt (by omega)]
      exact size }

/-! ## What one send puts on the wire -/

/-- The extension bytes in force, none before the first `set_extension`. -/
def RtpTransport.extension (self : RtpTransport) : List UInt8 :=
  self.extData.toList.take self.extLen.toNat

theorem RtpTransport.length_extension (self : RtpTransport) :
    self.extension.length = self.extLen.toNat := by
  have words := self.extLen_words
  rw [RtpTransport.extension, List.length_take, Vector.length_toList]
  omega

def RtpTransport.extensionHeader (self : RtpTransport) : List UInt8 :=
  if self.extension = [] then []
  else be16 0xBEDE ++ be16 (UInt16.ofNat (self.extension.length / 4)) ++ self.extension

def RtpTransport.headerBytes (self : RtpTransport) (ts : RtpTimestamp) (marker : Bool) :
    List UInt8 :=
  [if self.extension = [] then 0x80 else 0x90,
    self.payloadTy ||| (if marker then 0x80 else 0)] ++ be16 self.seqNum ++
    be32 (computeTimestamp ts self.clockRate) ++ be32 self.ssrc ++ self.extensionHeader

theorem RtpTransport.extension_eq_nil (self : RtpTransport) :
    self.extension = [] ↔ ¬ 0 < self.extLen := by
  rw [← List.length_eq_zero_iff, self.length_extension, UInt16.lt_iff_toNat_lt]
  simp

private theorem shifted_flags : (2 : UInt8) <<< 6 = 0x80 ∧
    (0x80 : UInt8) ||| (1 : UInt8) <<< 4 = 0x90 ∧ (1 : UInt8) <<< 7 = 0x80 := by decide

theorem RtpTransport.toNat_words (self : RtpTransport) :
    ((self.extLen + 3) / 4).toNat = self.extLen.toNat / 4 := by
  have words := self.extLen_words
  rw [UInt16.toNat_div, UInt16.toNat_add]
  simp only [UInt16.reduceToNat]
  omega

theorem RtpTransport.header_filled (self : RtpTransport) (ts : RtpTimestamp) (marker : Bool) :
    (self.header ts marker).Filled ∧ (self.header ts marker).extensionPayloadLen.toNat < 16384 := by
  have words := self.extLen_words
  have count := self.toNat_words
  by_cases present : 0 < self.extLen
  · refine ⟨⟨Nat.le_refl 0, fun _ => ?_⟩, ?_⟩
    · simp only [RtpTransport.header, if_pos present, Vector.length_toList, count]
      omega
    · simp only [RtpTransport.header, if_pos present, count]
      omega
  · refine ⟨⟨Nat.le_refl 0, fun _ => ?_⟩, ?_⟩
    · simp [RtpTransport.header, present]
    · simp [RtpTransport.header, present]

theorem RtpTransport.serialize_header (self : RtpTransport) (ts : RtpTimestamp)
    (marker : Bool) :
    (self.header ts marker).serialize = .ok (self.headerBytes ts marker) := by
  obtain ⟨filled, short⟩ := self.header_filled ts marker
  rw [RtpHeader.serialize_ok _ filled fun _ => short, RtpHeader.bytes, RtpHeader.fixedBytes,
    RtpTransport.headerBytes, RtpTransport.extensionHeader]
  have words := self.extLen_words
  by_cases present : 0 < self.extLen
  · have nonempty : self.extension ≠ [] := by
      rw [Ne, self.extension_eq_nil]
      exact not_not_intro present
    have bound : ((self.extLen + 3) / 4).toNat * 4 = self.extLen.toNat := by
      rw [self.toNat_words]
      omega
    have word : (self.extLen + 3) / 4 = UInt16.ofNat (self.extension.length / 4) := by
      apply UInt16.toNat_inj.mp
      rw [self.toNat_words, self.length_extension, UInt16.toNat_ofNat', Nat.mod_eq_of_lt (by omega)]
    simp only [RtpTransport.header, present, if_true, decide_true, if_neg nonempty, bound,
      store16_htons, store32_htonl, ← word]
    cases marker <;>
      simp [RtpHeader.firstByte, RtpHeader.secondByte, RtpTransport.extension, shifted_flags]
  · have empty := self.extension_eq_nil.mpr present
    simp only [RtpTransport.header, present, if_false, decide_false, if_pos empty,
      store16_htons, store32_htonl]
    cases marker <;> simp [RtpHeader.firstByte, RtpHeader.secondByte, shifted_flags]

/-- The transport behind a packet of `octets` that the transport below has taken. -/
def RtpTransport.counting (self : RtpTransport) (ts : RtpTimestamp) (octets : Nat)
    (monotonicUs : UInt64) : RtpTransport :=
  { self with
    seqNum := self.seqNum + 1
    packetCount := self.packetCount + 1
    octetCount := self.octetCount + UInt32.ofNat octets
    lastRtpTimestamp := computeTimestamp ts self.clockRate
    lastSendTimeUs := monotonicUs }

theorem RtpTransport.sendPacket_eq {τ : Type} (self : RtpTransport)
    (transmit : IoVecSlice → τ × Int) (ts : RtpTimestamp) (marker : Bool)
    (payloadHeader payload : List UInt8) (monotonicUs : UInt64) (transport : τ) (ret : Int)
    (sent : transmit [self.headerBytes ts marker, payloadHeader, payload] = (transport, ret)) :
    self.sendPacket transmit ts marker payloadHeader payload monotonicUs =
      .ok (if ret = -1 then self
        else self.counting ts (payloadHeader.length + payload.length) monotonicUs,
          transport, ret) := by
  rw [RtpTransport.sendPacket, self.serialize_header, ok_bind, sent]
  by_cases failed : ret = -1
  · simp [failed]
  · simp [failed, RtpTransport.counting]

end Compy.Rtp
