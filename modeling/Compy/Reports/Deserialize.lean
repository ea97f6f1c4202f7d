import Compy.Library.BigEndian
import Compy.Library.CheckedBytes

/-!
# Reading RTCP packets

`Compy_RtcpHeader_deserialize` and `Compy_RtcpReportBlock_deserialize`.  Neither looks behind
the bytes it names; `none` is the return value -1.
-/

set_option autoImplicit false

namespace Compy.Reports

open BigEndian CheckedBytes

structure RtcpHeader where
  version : UInt8
  padding : UInt8
  count : UInt8
  packetType : UInt8
  length : UInt16
  deriving DecidableEq, Repr

structure RtcpReportBlock where
  ssrc : UInt32
  fractionLost : UInt8
  cumulativeLost : UInt32
  extendedHighestSeq : UInt32
  interarrivalJitter : UInt32
  lastSr : UInt32
  delaySinceLastSr : UInt32
  deriving DecidableEq, Repr

def readU16 (data : List UInt8) (offset : Nat) : Access UInt16 := do
  let val ← readBytes data offset 2
  return htons (load16 val)

def readU32 (data : List UInt8) (offset : Nat) : Access UInt32 := do
  let val ← readBytes data offset 4
  return htonl (load32 val)

def RtcpHeader.deserialize (data : List UInt8) : Access (Option RtcpHeader) := do
  if data.length < 4 then return none
  let first ← byteAt data 0
  if first >>> 6 &&& 0x03 ≠ 2 then return none
  let packetType ← byteAt data 1
  let length ← readU16 data 2
  return some {
    version := first >>> 6 &&& 0x03
    padding := first >>> 5 &&& 0x01
    count := first &&& 0x1F
    packetType
    length }

def RtcpReportBlock.deserialize (data : List UInt8) : Access (Option RtcpReportBlock) := do
  if data.length < 24 then return none
  let ssrc ← readU32 data 0
  let fractionLost ← byteAt data 4
  let high ← byteAt data 5
  let middle ← byteAt data 6
  let low ← byteAt data 7
  let extendedHighestSeq ← readU32 data 8
  let interarrivalJitter ← readU32 data 12
  let lastSr ← readU32 data 16
  let delaySinceLastSr ← readU32 data 20
  return some {
    ssrc
    fractionLost
    cumulativeLost := high.toUInt32 <<< 16 ||| middle.toUInt32 <<< 8 ||| low.toUInt32
    extendedHighestSeq
    interarrivalJitter
    lastSr
    delaySinceLastSr }

/-! ## What they read -/

theorem byteAt_getD (data : List UInt8) (offset : Nat) (inside : offset < data.length) :
    byteAt data offset = .ok (data.getD offset 0) := by
  rw [byteAt_ok data offset inside, List.getD_eq_getElem?_getD, List.getElem?_eq_getElem inside,
    Option.getD_some]

theorem readU16_ok (data : List UInt8) (offset : Nat) (inside : offset + 2 ≤ data.length) :
    readU16 data offset = .ok (word16 (data.drop offset)) := by
  have room : 2 ≤ (data.drop offset).length := by
    rw [List.length_drop]
    omega
  rw [readU16, readBytes_ok data offset 2 inside, ok_bind]
  generalize data.drop offset = rest at *
  match rest, room with
  | a :: b :: rest, _ => exact congrArg Except.ok (htons_load16 a b)

theorem readU32_ok (data : List UInt8) (offset : Nat) (inside : offset + 4 ≤ data.length) :
    readU32 data offset = .ok (word32 (data.drop offset)) := by
  have room : 4 ≤ (data.drop offset).length := by
    rw [List.length_drop]
    omega
  rw [readU32, readBytes_ok data offset 4 inside, ok_bind]
  generalize data.drop offset = rest at *
  match rest, room with
  | a :: b :: c :: d :: rest, _ => exact congrArg Except.ok (htonl_load32 a b c d)

def headerOf (data : List UInt8) : RtcpHeader where
  version := data.getD 0 0 >>> 6 &&& 0x03
  padding := data.getD 0 0 >>> 5 &&& 0x01
  count := data.getD 0 0 &&& 0x1F
  packetType := data.getD 1 0
  length := word16 (data.drop 2)

def blockOf (data : List UInt8) : RtcpReportBlock where
  ssrc := word32 data
  fractionLost := data.getD 4 0
  cumulativeLost := (data.getD 5 0).toUInt32 <<< 16 ||| (data.getD 6 0).toUInt32 <<< 8 |||
    (data.getD 7 0).toUInt32
  extendedHighestSeq := word32 (data.drop 8)
  interarrivalJitter := word32 (data.drop 12)
  lastSr := word32 (data.drop 16)
  delaySinceLastSr := word32 (data.drop 20)

theorem RtcpHeader.deserialize_eq (data : List UInt8) :
    RtcpHeader.deserialize data =
      .ok (if 4 ≤ data.length ∧ (headerOf data).version = 2 then some (headerOf data)
        else none) := by
  rw [RtcpHeader.deserialize]
  by_cases short : data.length < 4
  · rw [if_pos short, if_neg (by omega)]
    rfl
  · rw [if_neg short, byteAt_getD data 0 (by omega)]
    simp only [pure_eq_ok, ok_bind]
    change (if (headerOf data).version ≠ 2 then _ else _) = _
    by_cases version : (headerOf data).version = 2
    · rw [if_neg (not_not.mpr version), if_pos ⟨by omega, version⟩,
        byteAt_getD data 1 (by omega), readU16_ok data 2 (by omega)]
      rfl
    · rw [if_pos version, if_neg (fun both => version both.2)]

theorem RtcpReportBlock.deserialize_eq (data : List UInt8) :
    RtcpReportBlock.deserialize data =
      .ok (if 24 ≤ data.length then some (blockOf data) else none) := by
  rw [RtcpReportBlock.deserialize]
  by_cases short : data.length < 24
  · rw [if_pos short, if_neg (by omega)]
    rfl
  · rw [if_neg short, if_pos (by omega), readU32_ok data 0 (by omega),
      byteAt_getD data 4 (by omega), byteAt_getD data 5 (by omega), byteAt_getD data 6 (by omega),
      byteAt_getD data 7 (by omega), readU32_ok data 8 (by omega), readU32_ok data 12 (by omega),
      readU32_ok data 16 (by omega), readU32_ok data 20 (by omega)]
    rfl

end Compy.Reports
