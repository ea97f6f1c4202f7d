import Compy.Library.BigEndian
import Compy.Library.CheckedBytes
import Compy.Rtsp.Scan

/-!
# The sender report

`types/rtcp.c` as far as a sender report needs it: one SR without report blocks and one
SDES chunk with the CNAME behind it.  The buffer is what has been written to it, so the
position is its length; a write beyond the size of the array is a fault.
-/

set_option autoImplicit false

namespace Compy.Reports

open BigEndian CheckedBytes Compy.Rtsp

def rtcpVersion : UInt8 := 2

def rtcpSr : UInt8 := 200

def rtcpSdes : UInt8 := 202

def rtcpSdesCname : UInt8 := 1

def rtcpHeaderSize : Nat := 4

def srSenderInfoSize : Nat := 24

def rtcpMaxPacketSize : Nat := 512

structure RtcpSenderInfo where
  ssrc : UInt32
  ntpTimestampMsw : UInt32
  ntpTimestampLsw : UInt32
  rtpTimestamp : UInt32
  senderPacketCount : UInt32
  senderOctetCount : UInt32

def writeU32 (val : UInt32) : List UInt8 := store32 (htonl val)

def writeU16 (val : UInt16) : List UInt8 := store16 (htons val)

/-- The writes through `p`, one after the other. -/
def writeAll (size : Nat) : List (List UInt8) → List UInt8 → Access (List UInt8)
  | [], buffer => .ok buffer
  | bytes :: rest, buffer =>
      if buffer.length + bytes.length ≤ size then writeAll size rest (buffer ++ bytes)
      else .error .outOfBounds

/-- `strlen` stops at the first NUL of `cname`. -/
def RtcpSenderReport.serialize (info : RtcpSenderInfo) (cname : List UInt8) (size : Nat) :
    Access (List UInt8) :=
  let cname := cStr cname
  let sdesChunkSize := 4 + 2 + cname.length + 1
  let sdesChunkPadded := (sdesChunkSize + 3) / 4 * 4
  let sdesTotal := rtcpHeaderSize + sdesChunkPadded
  let pad := sdesChunkPadded - sdesChunkSize
  writeAll size [
    [rtcpVersion <<< 6],
    [rtcpSr],
    writeU16 (UInt16.ofNat ((srSenderInfoSize + 4) / 4 - 1)),
    writeU32 info.ssrc,
    writeU32 info.ntpTimestampMsw,
    writeU32 info.ntpTimestampLsw,
    writeU32 info.rtpTimestamp,
    writeU32 info.senderPacketCount,
    writeU32 info.senderOctetCount,
    [(rtcpVersion <<< 6) ||| 1],
    [rtcpSdes],
    writeU16 (UInt16.ofNat (sdesTotal / 4 - 1)),
    writeU32 info.ssrc,
    [rtcpSdesCname],
    [UInt8.ofNat cname.length],
    cname,
    List.replicate (pad + 1) 0] []

theorem writeAll_ok (size : Nat) (chunks : List (List UInt8)) (buffer : List UInt8)
    (fits : (buffer ++ chunks.flatten).length ≤ size) :
    writeAll size chunks buffer = .ok (buffer ++ chunks.flatten) := by
  induction chunks generalizing buffer with
  | nil => simp [writeAll]
  | cons bytes rest ih =>
      rw [List.flatten_cons, ← List.append_assoc] at fits ⊢
      have room : buffer.length + bytes.length ≤ size := by
        simp only [List.length_append] at fits
        omega
      rw [writeAll, if_pos room]
      exact ih (buffer ++ bytes) fits

/-! ## The bytes of a report -/

def RtcpSenderInfo.bytes (info : RtcpSenderInfo) : List UInt8 :=
  [0x80, 200] ++ be16 6 ++ be32 info.ssrc ++ be32 info.ntpTimestampMsw ++
    be32 info.ntpTimestampLsw ++ be32 info.rtpTimestamp ++ be32 info.senderPacketCount ++
    be32 info.senderOctetCount

def sdesBytes (ssrc : UInt32) (cname : List UInt8) : List UInt8 :=
  [0x81, 202] ++ be16 (UInt16.ofNat ((4 + (4 + 2 + cname.length + 1 + 3) / 4 * 4) / 4 - 1)) ++
    be32 ssrc ++ [1, UInt8.ofNat cname.length] ++ cname ++
    List.replicate ((4 + 2 + cname.length + 1 + 3) / 4 * 4 - (4 + 2 + cname.length + 1) + 1) 0

theorem length_sdesBytes (ssrc : UInt32) (cname : List UInt8) :
    (sdesBytes ssrc cname).length = 4 + (4 + 2 + cname.length + 1 + 3) / 4 * 4 := by
  simp only [sdesBytes, List.length_append, List.length_replicate, length_be32]
  simp [be16]
  omega

theorem RtcpSenderReport.serialize_ok (info : RtcpSenderInfo) (cname : List UInt8)
    (short : (cStr cname).length ≤ 255) :
    RtcpSenderReport.serialize info cname rtcpMaxPacketSize =
      .ok (info.bytes ++ sdesBytes info.ssrc (cStr cname)) := by
  have size := length_sdesBytes info.ssrc (cStr cname)
  have bytes : ∀ chunks : List (List UInt8),
      chunks.flatten = info.bytes ++ sdesBytes info.ssrc (cStr cname) →
      writeAll rtcpMaxPacketSize chunks [] =
        .ok (info.bytes ++ sdesBytes info.ssrc (cStr cname)) := by
    intro chunks flat
    rw [writeAll_ok, List.nil_append, flat]
    rw [List.nil_append, flat, List.length_append, size, rtcpMaxPacketSize]
    simp [RtcpSenderInfo.bytes, be16]
    omega
  apply bytes
  simp [RtcpSenderInfo.bytes, sdesBytes, writeU32, writeU16, store32_htonl, store16_htons,
    rtcpVersion, rtcpSr, rtcpSdes, rtcpSdesCname, rtcpHeaderSize, srSenderInfoSize]
  decide

/-! ## Reading a report -/

def reportSsrc (report : List UInt8) : UInt32 := word32 (report.drop 4)

def reportRtpTimestamp (report : List UInt8) : UInt32 := word32 (report.drop 16)

def reportPacketCount (report : List UInt8) : UInt32 := word32 (report.drop 20)

def reportOctetCount (report : List UInt8) : UInt32 := word32 (report.drop 24)

theorem RtcpSenderInfo.timestamp_bytes (info : RtcpSenderInfo) (behind : List UInt8) :
    reportRtpTimestamp (info.bytes ++ behind) = info.rtpTimestamp :=
  word32_be32 info.rtpTimestamp _

theorem RtcpSenderInfo.read_bytes (info : RtcpSenderInfo) (behind : List UInt8) :
    reportSsrc (info.bytes ++ behind) = info.ssrc ∧
      reportPacketCount (info.bytes ++ behind) = info.senderPacketCount ∧
      reportOctetCount (info.bytes ++ behind) = info.senderOctetCount :=
  ⟨word32_be32 info.ssrc _, word32_be32 info.senderPacketCount _,
    word32_be32 info.senderOctetCount _⟩

end Compy.Reports
