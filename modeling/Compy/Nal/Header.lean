import Compy.Library.BigEndian
import Compy.Library.BitFields

/-!
# NAL headers

`nal.c`, `nal/h264.c` and `nal/h265.c`: the headers of both codecs, as they stand in
front of a whole unit and as they are taken apart for fragmentation units.
-/

set_option autoImplicit false

namespace Compy.Nal

open BigEndian BitFields

structure H264NalHeader where
  forbiddenZeroBit : Bool
  refIdc : UInt8
  unitType : UInt8
  deriving DecidableEq, Repr

structure H265NalHeader where
  forbiddenZeroBit : Bool
  unitType : UInt8
  nuhLayerId : UInt8
  nuhTemporalIdPlus1 : UInt8
  deriving DecidableEq, Repr

inductive NalHeader where
  | H264 (h : H264NalHeader)
  | H265 (h : H265NalHeader)
  deriving DecidableEq, Repr

structure NalUnit where
  header : NalHeader
  payload : List UInt8
  deriving DecidableEq, Repr

def H264NalHeader.parse (byteHeader : UInt8) : H264NalHeader where
  forbiddenZeroBit := (byteHeader &&& 0b10000000) >>> 7 == 1
  refIdc := (byteHeader &&& 0b01100000) >>> 5
  unitType := byteHeader &&& 0b00011111

def H264NalHeader.serialize (self : H264NalHeader) : UInt8 :=
  ((if self.forbiddenZeroBit then (0b10000000 : UInt8) else 0b00000000) ||| self.refIdc <<< 5) |||
    self.unitType

def H265NalHeader.parse (byte0 byte1 : UInt8) : H265NalHeader where
  forbiddenZeroBit := (byte0 &&& 0b10000000) >>> 7 != 0
  unitType := (byte0 &&& 0b01111110) >>> 1
  nuhLayerId := ((byte0 &&& 0b00000001) <<< 5) ||| ((byte1 &&& 0b11111000) >>> 3)
  nuhTemporalIdPlus1 := byte1 &&& 0b00000111

/-- The two bytes as they are stored before `memcpy` makes a `uint16_t` of them. -/
def H265NalHeader.byte0 (self : H265NalHeader) : UInt8 :=
  (((self.forbiddenZeroBit.toUInt8 &&& 0b00000001) <<< 7) |||
    ((self.unitType &&& 0b00111111) <<< 1)) ||| ((self.nuhLayerId &&& 0b00100000) >>> 5)

def H265NalHeader.byte1 (self : H265NalHeader) : UInt8 :=
  ((self.nuhLayerId &&& 0b00011111) <<< 3) ||| (self.nuhTemporalIdPlus1 &&& 0b00000111)

def H265NalHeader.serialize (self : H265NalHeader) : UInt16 := load16 [self.byte0, self.byte1]

namespace NalHeader

def size : NalHeader → Nat
  | .H264 _ => 1
  | .H265 _ => 2

def fuSize : NalHeader → Nat
  | .H264 _ => 1 + 1
  | .H265 _ => 2 + 1

def isCodedSliceIdr : NalHeader → Bool
  | .H264 h => h.unitType == 5
  | .H265 h => h.unitType == 19

def isCodedSliceNonIdr : NalHeader → Bool
  | .H264 h => h.unitType == 1
  | .H265 h => h.unitType == 20 || h.unitType == 1

def serialize : NalHeader → List UInt8
  | .H264 h => [h.serialize]
  | .H265 h => store16 h.serialize

end NalHeader

def nalFuHeader (isFirstFragment isLastFragment : Bool) (unitType : UInt8) : UInt8 :=
  let fuHeader : UInt8 := 0b00000000
  let fuHeader := if isFirstFragment then fuHeader ||| 0b10000000 else fuHeader
  let fuHeader := if isLastFragment then fuHeader ||| 0b01000000 else fuHeader
  fuHeader + unitType

def fuIdentifier (refIdc : UInt8) : UInt8 :=
  let fuIdentifier : UInt8 := 0b01111100
  let fuIdentifier := if refIdc &&& 0b00000010 = 0 then fuIdentifier &&& 0b00111111
    else fuIdentifier
  if refIdc &&& 0b00000001 = 0 then fuIdentifier &&& 0b01011111 else fuIdentifier

def H264NalHeader.writeFuHeader (self : H264NalHeader) (isFirstFragment isLastFragment : Bool) :
    List UInt8 :=
  [fuIdentifier self.refIdc, nalFuHeader isFirstFragment isLastFragment self.unitType]

def H265NalHeader.writeFuHeader (self : H265NalHeader) (isFirstFragment isLastFragment : Bool) :
    List UInt8 :=
  store16 ({ self with unitType := 49 } : H265NalHeader).serialize ++
    [nalFuHeader isFirstFragment isLastFragment self.unitType]

def NalHeader.writeFuHeader (self : NalHeader) (isFirstFragment isLastFragment : Bool) :
    List UInt8 :=
  match self with
  | .H264 h => h.writeFuHeader isFirstFragment isLastFragment
  | .H265 h => h.writeFuHeader isFirstFragment isLastFragment

/-! ## The numbers in the headers -/

/-- Fields of the widths they have in a header, the forbidden bit clear, and a type that RTP
leaves to the codec. -/
def NalHeader.Valid : NalHeader → Prop
  | .H264 h => h.forbiddenZeroBit = false ∧ h.refIdc.toNat < 4 ∧ 1 ≤ h.unitType.toNat ∧
      h.unitType.toNat ≤ 23
  | .H265 h => h.forbiddenZeroBit = false ∧ h.unitType.toNat ≤ 47 ∧ h.nuhLayerId.toNat < 64 ∧
      h.nuhTemporalIdPlus1.toNat < 8

theorem store16_load16 (a b : UInt8) : store16 (load16 [a, b]) = [a, b] := by
  have swapped := be16_word16 b a
  rw [be16, List.cons.injEq, List.cons.injEq] at swapped
  obtain ⟨high, low, _⟩ := swapped
  rw [load16, store16, show ([a, b].take 2).reverse = [b, a] from rfl, high, low]

theorem H265NalHeader.store_serialize (self : H265NalHeader) :
    store16 self.serialize = [self.byte0, self.byte1] :=
  store16_load16 self.byte0 self.byte1

theorem NalHeader.length_serialize (self : NalHeader) : self.serialize.length = self.size := by
  cases self <;> rfl

theorem NalHeader.length_writeFuHeader (self : NalHeader) (isFirst isLast : Bool) :
    (self.writeFuHeader isFirst isLast).length = self.fuSize := by
  cases self <;> rfl

theorem H264NalHeader.toNat_serialize (self : H264NalHeader)
    (clear : self.forbiddenZeroBit = false) (idc : self.refIdc.toNat < 4)
    (type : self.unitType.toNat < 32) :
    self.serialize.toNat = 32 * self.refIdc.toNat + self.unitType.toNat := by
  have shifted := toNat_shiftLeft self.refIdc 5 (by decide) (Nat.lt_trans idc (by decide))
  rw [serialize, clear, if_neg Bool.false_ne_true, UInt8.zero_or,
    toNat_or _ _ 5 (by rw [shifted]; exact Nat.dvd_mul_left _ _) type, shifted, Nat.mul_comm]
  rfl

/-- `nal_ref_idc` and the type of an FU-A, 28. -/
theorem toNat_fuIdentifier (refIdc : UInt8) (idc : refIdc.toNat < 4) :
    (fuIdentifier refIdc).toNat = 32 * refIdc.toNat + 28 := by
  have cases : refIdc = 0 ∨ refIdc = 1 ∨ refIdc = 2 ∨ refIdc = 3 := by
    simp only [← UInt8.toNat_inj, UInt8.reduceToNat]
    omega
  rcases cases with rfl | rfl | rfl | rfl <;> rfl

theorem toNat_nalFuHeader (isFirst isLast : Bool) (unitType : UInt8)
    (type : unitType.toNat < 64) :
    (nalFuHeader isFirst isLast unitType).toNat =
      128 * isFirst.toNat + 64 * isLast.toNat + unitType.toNat := by
  have flags : ∀ first last : Bool, (nalFuHeader first last 0).toNat =
      128 * first.toNat + 64 * last.toNat := by decide
  have split_ : nalFuHeader isFirst isLast unitType = nalFuHeader isFirst isLast 0 + unitType := by
    rw [nalFuHeader, nalFuHeader, UInt8.add_zero]
  have bits := flags isFirst isLast
  have one := Bool.toNat_le isFirst
  have two := Bool.toNat_le isLast
  rw [split_, UInt8.toNat_add, bits, Nat.mod_eq_of_lt (by omega)]

theorem H265NalHeader.toNat_byte0 (self : H265NalHeader) (clear : self.forbiddenZeroBit = false)
    (type : self.unitType.toNat < 64) :
    self.byte0.toNat = 2 * self.unitType.toNat + self.nuhLayerId.toNat / 32 % 2 := by
  have low := toNat_and_low self.unitType 0b00111111 6 rfl
  rw [Nat.mod_eq_of_lt (show _ < 2 ^ 6 from type)] at low
  have shifted := toNat_shiftLeft (self.unitType &&& 0b00111111) 1 (by decide) (by
    rw [low]
    exact Nat.lt_trans type (by decide))
  have layer := toNat_and_shiftRight self.nuhLayerId 0b00100000 5 1 (by decide) rfl
  rw [byte0, clear, show (false.toUInt8 &&& 0b00000001) <<< 7 = 0 from rfl, UInt8.zero_or,
    toNat_or _ _ 1 (by rw [shifted]; exact Nat.dvd_mul_left _ _)
      (by rw [layer]; exact Nat.mod_lt _ (by decide)), shifted, low, layer, Nat.mul_comm]
  rfl

theorem H265NalHeader.toNat_byte1 (self : H265NalHeader)
    (temporal : self.nuhTemporalIdPlus1.toNat < 8) :
    self.byte1.toNat = 8 * (self.nuhLayerId.toNat % 32) + self.nuhTemporalIdPlus1.toNat := by
  have low := toNat_and_low self.nuhLayerId 0b00011111 5 rfl
  have shifted := toNat_shiftLeft (self.nuhLayerId &&& 0b00011111) 3 (by decide) (by
    rw [low]
    exact Nat.mod_lt _ (by decide))
  have id := toNat_and_low self.nuhTemporalIdPlus1 0b00000111 3 rfl
  rw [Nat.mod_eq_of_lt (show _ < 2 ^ 3 from temporal)] at id
  rw [byte1, toNat_or _ _ 3 (by rw [shifted]; exact Nat.dvd_mul_left _ _)
    (by rw [id]; exact temporal), shifted, low, id, Nat.mul_comm]
  rfl

end Compy.Nal
