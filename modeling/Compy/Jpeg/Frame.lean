import Compy.Library.CheckedBytes

/-!
# The JPEG frame parser

`parse_jpeg_frame`, `parse_dqt` and `parse_sof0` of `jpeg_transport.c`.  Pointers into the
frame are offsets, and every byte that is looked at is a checked read.
-/

set_option autoImplicit false

namespace Compy.Jpeg

open CheckedBytes

def jpegSoi : UInt8 := 0xD8

def jpegEoi : UInt8 := 0xD9

def jpegSof0 : UInt8 := 0xC0

def jpegDqt : UInt8 := 0xDB

def jpegDri : UInt8 := 0xDD

def jpegSos : UInt8 := 0xDA

def maxQtData : Nat := 512

/-- The filled part of `qt_data`; `qt_len` is its length. -/
abbrev QtData := { tables : List UInt8 // tables.length ≤ maxQtData }

/-- `memcpy` to the end of the filled part. -/
def QtData.append (self : QtData) (table : List UInt8) : Access QtData :=
  if inside : (self.val ++ table).length ≤ maxQtData then .ok ⟨self.val ++ table, inside⟩
  else .error .outOfBounds

structure JpegFrameInfo where
  type : UInt8
  width8 : UInt8
  height8 : UInt8
  restartInterval : UInt16
  qtData : QtData
  qtPrecision : UInt8
  scanOffset : Nat
  scanLen : Nat

def JpegFrameInfo.qtLen (self : JpegFrameInfo) : Nat := self.qtData.val.length

def JpegFrameInfo.zero : JpegFrameInfo where
  type := 0
  width8 := 0
  height8 := 0
  restartInterval := 0
  qtData := ⟨[], Nat.zero_le _⟩
  qtPrecision := 0
  scanOffset := 0
  scanLen := 0

def JpegFrameInfo.setScan (self : JpegFrameInfo) (scanOffset scanLen : Nat) : JpegFrameInfo :=
  { self with scanOffset, scanLen }

/-- Two bytes as the shift and the disjunction of the source make a word of them. -/
def readWord (data : List UInt8) (p : Nat) : Access UInt16 := do
  let high ← byteAt data p
  let low ← byteAt data (p + 1)
  return high.toUInt16 <<< 8 ||| low.toUInt16

def parseDqtLoop (data : List UInt8) :
    (fuel p : Nat) → JpegFrameInfo → Access (Option JpegFrameInfo)
  | 0, _, _ => .error .diverges
  | fuel + 1, p, info =>
      if p < data.length then do
        let byte ← byteAt data p
        let pq := byte >>> 4 &&& 0x0F
        let tq := byte &&& 0x0F
        let p := p + 1
        let tableSize := if pq = 0 then 64 else 128
        if data.length - p < tableSize then return none
        if maxQtData < info.qtLen + tableSize then return none
        let table ← readBytes data p tableSize
        let qtData ← info.qtData.append table
        let qtPrecision := if pq ≠ 0 ∧ tq < 8 then info.qtPrecision ||| 1 <<< tq
          else info.qtPrecision
        parseDqtLoop data fuel (p + tableSize) { info with qtData, qtPrecision }
      else return some info

def parseDqt (data : List UInt8) (info : JpegFrameInfo) : Access (Option JpegFrameInfo) :=
  parseDqtLoop data (data.length + 1) 0 info

def eighths (size : UInt16) : UInt8 := if 2040 < size then 0 else (size / 8).toUInt8

def parseSof0 (data : List UInt8) (info : JpegFrameInfo) : Access (Option JpegFrameInfo) := do
  if data.length < 6 then return none
  let height ← readWord data 1
  let width ← readWord data 3
  let nf ← byteAt data 5
  if nf < 1 ∨ 4 < nf ∨ data.length < 6 + nf.toNat * 3 then return none
  let info := { info with width8 := eighths width, height8 := eighths height }
  if 3 ≤ nf then
    let yH := (← byteAt data 7) >>> 4 &&& 0x0F
    let yV := (← byteAt data 7) &&& 0x0F
    return some { info with type := if yH = 2 ∧ yV = 2 then 1 else 0 }
  else return some { info with type := 0 }

/-- The bytes `0xFF` before a marker code. -/
def skipFill (frame : List UInt8) : (fuel p : Nat) → Access Nat
  | 0, _ => .error .diverges
  | fuel + 1, p =>
      if p < frame.length then do
        let byte ← byteAt frame p
        if byte = 0xFF then skipFill frame fuel (p + 1) else return p
      else return p

def readMarker (frame : List UInt8) (p : Nat) : Access (Option (UInt8 × Nat)) := do
  if (← byteAt frame p) ≠ 0xFF then return none
  let p ← skipFill frame (frame.length + 1) (p + 1)
  if frame.length ≤ p then return none
  let marker ← byteAt frame p
  return some (marker, p + 1)

/-- Markers that the parser steps over without a length. -/
def standalone (marker : UInt8) : Bool :=
  marker == jpegEoi || marker == 0x00 || marker == 0x01 || (0xD0 ≤ marker && marker ≤ 0xD7)

def readSegment (frame : List UInt8) (p : Nat) : Access (Option (List UInt8 × Nat)) := do
  if frame.length - p < 2 then return none
  let segLen ← readWord frame p
  if segLen < 2 ∨ frame.length < p + segLen.toNat then return none
  let segData ← readBytes frame (p + 2) (segLen.toNat - 2)
  return some (segData, p + segLen.toNat)

/-- What is known between two segments: `found_sof` and the frame info. -/
abbrev Known := Bool × JpegFrameInfo

def useSegment (marker : UInt8) (segData : List UInt8) (known : Known) :
    Access (Option Known) := do
  let (foundSof, info) := known
  if marker = jpegDqt then
    return (← parseDqt segData info).map (Prod.mk foundSof)
  else if marker = jpegSof0 then
    return (← parseSof0 segData info).map (Prod.mk true)
  else if marker = jpegDri then
    if segData.length < 2 then return none
    return some (foundSof, { info with restartInterval := ← readWord segData 0 })
  else return some known

/-- What the parser makes of the SOS segment, whose end is `scanStart`. -/
def useSos (frame : List UInt8) (scanStart : Nat) (info : JpegFrameInfo) :
    Access (Option JpegFrameInfo) := do
  if frame.length - 1 ≤ scanStart then return none
  if (← byteAt frame (frame.length - 2)) ≠ 0xFF then return none
  if (← byteAt frame (frame.length - 1)) ≠ jpegEoi then return none
  return some (info.setScan scanStart (frame.length - 2 - scanStart))

/-- The loop over the segments; the second component is `found_sos`. -/
def segmentLoop (frame : List UInt8) :
    (fuel p : Nat) → Known → Access (Option (Known × Bool))
  | 0, _, _ => .error .diverges
  | fuel + 1, p, known =>
      if p < frame.length - 1 then do
        match ← readMarker frame p with
        | none => return none
        | some (marker, p) =>
          if standalone marker then segmentLoop frame fuel p known
          else
            match ← readSegment frame p with
            | none => return none
            | some (segData, p) =>
              if marker = jpegSos then
                return (← useSos frame p known.2).map fun info => ((known.1, info), true)
              else
                match ← useSegment marker segData known with
                | none => return none
                | some known => segmentLoop frame fuel p known
      else return some (known, false)

def parseJpegFrame (frame : List UInt8) : Access (Option JpegFrameInfo) := do
  if frame.length < 4 then return none
  if (← byteAt frame 0) ≠ 0xFF then return none
  if (← byteAt frame 1) ≠ jpegSoi then return none
  match ← segmentLoop frame (frame.length + 1) 2 (false, .zero) with
  | none => return none
  | some ((foundSof, info), foundSos) =>
    if ¬ foundSof ∨ ¬ foundSos ∨ info.qtLen = 0 then return none
    if 0 < info.restartInterval then return some { info with type := info.type + 64 }
    return some info

end Compy.Jpeg
