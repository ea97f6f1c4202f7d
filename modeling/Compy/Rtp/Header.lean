import Compy.Library.BigEndian
import Compy.Library.CheckedBytes

/-!
# The RTP header and its serializer

`Compy_RtpHeader` keeps its multi-byte fields in network order, except the
extension length.  The serializer stores them as they lie in memory on a
little-endian host and swaps the extension length itself.
-/

set_option autoImplicit false

namespace Compy.Rtp

open BigEndian CheckedBytes

structure RtpHeader where
  version : UInt8
  padding : Bool
  extension : Bool
  csrcCount : UInt8
  marker : Bool
  payloadTy : UInt8
  sequenceNumber : UInt16
  timestamp : UInt32
  ssrc : UInt32
  csrc : List UInt32
  extensionProfile : UInt16
  extensionPayloadLen : UInt16
  extensionPayload : List UInt8

def RtpHeader.size (self : RtpHeader) : Nat :=
  (2 + 1 + 1 + 4 + 1 + 7 + 16 + 32 + 32) / 8 + self.csrcCount.toNat * 4 +
    (if self.extension then 2 + 2 + self.extensionPayloadLen.toNat * 4 else 0)

/-- The loop over the extension bytes.  Its counter is 16 bits wide, so it runs
through at most `2 ^ 16` values before it repeats itself. -/
def appendExtension (payload : List UInt8) (bound : Nat) :
    Nat → UInt16 → List UInt8 → Access (List UInt8)
  | 0, _, _ => .error .diverges
  | fuel + 1, i, buffer =>
      if i.toNat < bound then do
        let byte ← readBytes payload i.toNat 1
        appendExtension payload bound fuel (i + 1) (buffer ++ byte)
      else .ok buffer

def RtpHeader.firstByte (self : RtpHeader) : UInt8 :=
  ((self.version <<< 6) ||| self.csrcCount) ||| (if self.padding then (1 : UInt8) <<< 5 else 0) |||
    (if self.extension then (1 : UInt8) <<< 4 else 0)

def RtpHeader.secondByte (self : RtpHeader) : UInt8 :=
  self.payloadTy ||| (if self.marker then (1 : UInt8) <<< 7 else 0)

def RtpHeader.serialize (self : RtpHeader) : Access (List UInt8) :=
  if self.csrc.length < self.csrcCount.toNat then .error .outOfBounds
  else
    let fixed := [self.firstByte, self.secondByte] ++ store16 self.sequenceNumber ++
      store32 self.timestamp ++ store32 self.ssrc ++
      (self.csrc.take self.csrcCount.toNat).flatMap store32
    if self.extension then
      appendExtension self.extensionPayload (self.extensionPayloadLen.toNat * 4) (2 ^ 16 + 1) 0
        (fixed ++ store16 self.extensionProfile ++ store16 (htons self.extensionPayloadLen))
    else .ok fixed

/-! ## The loop over the extension -/

/-- Below `2 ^ 16` bytes the loop copies the extension and ends. -/
theorem appendExtension_ok (payload : List UInt8) (bound : Nat) (small : bound < 2 ^ 16)
    (inside : bound ≤ payload.length) (remaining fuel : Nat) (i : UInt16) (buffer : List UInt8)
    (left : i.toNat + remaining = bound) (enough : remaining < fuel) :
    appendExtension payload bound fuel i buffer =
      .ok (buffer ++ (payload.drop i.toNat).take remaining) := by
  induction remaining generalizing fuel i buffer with
  | zero =>
      obtain ⟨fuel, rfl⟩ : ∃ k, fuel = k + 1 := ⟨fuel - 1, by omega⟩
      simp [appendExtension, show ¬ i.toNat < bound by omega]
  | succ remaining ih =>
      obtain ⟨fuel, rfl⟩ : ∃ k, fuel = k + 1 := ⟨fuel - 1, by omega⟩
      have next : (i + 1).toNat = i.toNat + 1 := by
        rw [UInt16.toNat_add, UInt16.toNat_one]
        omega
      rw [appendExtension, if_pos (by omega), readBytes_ok _ _ _ (by omega)]
      change appendExtension payload bound fuel (i + 1) _ = _
      rw [ih fuel (i + 1) _ (by omega) (by omega), next, List.append_assoc]
      congr 2
      rw [Nat.add_comm remaining 1, ← List.drop_drop, List.take_add]

/-- From `2 ^ 16` bytes on the counter wraps around below its bound, whatever the fuel. -/
theorem appendExtension_diverges (payload : List UInt8) (bound : Nat) (large : 2 ^ 16 ≤ bound)
    (inside : bound ≤ payload.length) (fuel : Nat) (i : UInt16) (buffer : List UInt8) :
    appendExtension payload bound fuel i buffer = .error .diverges := by
  induction fuel generalizing i buffer with
  | zero => rfl
  | succ fuel ih =>
      have below : i.toNat < bound := Nat.lt_of_lt_of_le i.toNat_lt large
      rw [appendExtension, if_pos below, readBytes_ok _ _ _ (by omega)]
      exact ih (i + 1) _

/-! ## The bytes of a header -/

namespace RtpHeader

def fixedBytes (self : RtpHeader) : List UInt8 :=
  [self.firstByte, self.secondByte] ++ store16 self.sequenceNumber ++ store32 self.timestamp ++
    store32 self.ssrc ++ (self.csrc.take self.csrcCount.toNat).flatMap store32

def bytes (self : RtpHeader) : List UInt8 :=
  self.fixedBytes ++ if self.extension then
    store16 self.extensionProfile ++ store16 (htons self.extensionPayloadLen) ++
      self.extensionPayload.take (self.extensionPayloadLen.toNat * 4)
  else []

/-- The arrays hold what the counts say. -/
structure Filled (header : RtpHeader) : Prop where
  csrc : header.csrcCount.toNat ≤ header.csrc.length
  words : header.extension = true →
    header.extensionPayloadLen.toNat * 4 ≤ header.extensionPayload.length

theorem length_words (words : List UInt32) : (words.flatMap store32).length = words.length * 4 := by
  induction words with
  | nil => simp
  | cons word words ih =>
      rw [List.flatMap_cons, List.length_append, ih, List.length_cons, Nat.succ_mul, Nat.add_comm]
      simp [store32]

theorem length_bytes (self : RtpHeader) (filled : self.Filled) : self.bytes.length = self.size := by
  have fixed : self.fixedBytes.length = 12 + self.csrcCount.toNat * 4 := by
    have csrc := length_words (self.csrc.take self.csrcCount.toNat)
    rw [List.length_take, Nat.min_eq_left filled.csrc] at csrc
    simp [fixedBytes, store16, store32, csrc]
    omega
  rw [bytes, List.length_append, fixed, size]
  cases extended : self.extension with
  | false => simp
  | true =>
      have words := filled.words extended
      simp [store16, Nat.min_eq_left words]
      omega

theorem serialize_ok (self : RtpHeader) (filled : self.Filled)
    (short : self.extension = true → self.extensionPayloadLen.toNat < 16384) :
    self.serialize = .ok self.bytes := by
  have csrc := filled.csrc
  rw [serialize, if_neg (by omega), bytes, fixedBytes]
  cases extended : self.extension with
  | false => simp
  | true =>
      have below := short extended
      have loop := appendExtension_ok self.extensionPayload (self.extensionPayloadLen.toNat * 4)
        (by omega) (filled.words extended) (self.extensionPayloadLen.toNat * 4) (2 ^ 16 + 1) 0
      simp only [if_true]
      rw [loop _ (by simp) (by omega)]
      simp

theorem serialize_diverges (self : RtpHeader) (filled : self.Filled)
    (extended : self.extension = true) (long : 16384 ≤ self.extensionPayloadLen.toNat) :
    self.serialize = .error .diverges := by
  have csrc := filled.csrc
  rw [serialize, if_neg (by omega), if_pos extended]
  exact appendExtension_diverges _ _ (by omega) (filled.words extended) _ _ _

/-- The serializer returns, with as many bytes as the size says, for an extension of less
than 16384 words and for none. -/
theorem serialized_whole_iff (self : RtpHeader) (filled : self.Filled) :
    (∃ buffer, self.serialize = .ok buffer ∧ buffer.length = self.size) ↔
      (self.extension = true → self.extensionPayloadLen.toNat < 16384) := by
  constructor
  · rintro ⟨buffer, written, _⟩ extended
    by_contra long
    rw [self.serialize_diverges filled extended (Nat.le_of_not_lt long)] at written
    contradiction
  · intro short
    exact ⟨self.bytes, self.serialize_ok filled short, self.length_bytes filled⟩

/-- A header with an extension of `words` words and nothing else. -/
def extended (words : UInt16) : RtpHeader where
  version := 2
  padding := false
  extension := true
  csrcCount := 0
  marker := false
  payloadTy := 0
  sequenceNumber := 0
  timestamp := 0
  ssrc := 0
  csrc := []
  extensionProfile := 0
  extensionPayloadLen := words
  extensionPayload := List.replicate (words.toNat * 4) 0

theorem extended_filled (words : UInt16) : (extended words).Filled :=
  ⟨Nat.le_refl 0, fun _ => by simp [extended]⟩

theorem extended_written : ∃ buffer, (extended 16383).serialize = .ok buffer ∧
    buffer.length = (extended 16383).size :=
  (serialized_whole_iff (extended 16383) (extended_filled 16383)).mpr fun _ => by decide

theorem extended_endless : (extended 16384).Filled ∧ ¬ ∃ buffer,
    (extended 16384).serialize = .ok buffer ∧ buffer.length = (extended 16384).size := by
  refine ⟨extended_filled 16384, ?_⟩
  rintro ⟨buffer, written, _⟩
  rw [serialize_diverges (extended 16384) (extended_filled 16384) rfl (by decide)] at written
  contradiction

end RtpHeader

end Compy.Rtp
