import Compy.Rtsp.Message

/-!
# Interleaved frames in front of a message

`compy_interleaved_header` of `util.c` and the frames it begins.  Whatever number of
frames lies in front of the input, the parsers answer as without them, at an offset moved
by the bytes of the frames.
-/

set_option autoImplicit false

namespace Compy.Rtsp

open IncrementalParsing BigEndian

/-- The bytes of `compy_interleaved_header` as they lie in memory; the length is copied
as its caller stores it. -/
def interleavedHeader (channelId : UInt8) (payloadLen : UInt16) : List UInt8 :=
  ['$'.toUInt8, channelId] ++ store16 payloadLen

/-- A payload whose length the header can hold. -/
structure InterleavedFrame where
  channelId : UInt8
  payload : List UInt8
  fits : payload.length < 2 ^ 16

namespace InterleavedFrame

def bytes (self : InterleavedFrame) : List UInt8 :=
  ['$'.toUInt8, self.channelId] ++ be16 (UInt16.ofNat self.payload.length) ++ self.payload

theorem bytes_eq (self : InterleavedFrame) :
    self.bytes = interleavedHeader self.channelId (htons (UInt16.ofNat self.payload.length)) ++
      self.payload := by
  rw [bytes, interleavedHeader, store16_htons]

theorem interleavedPayloadLen_bytes (self : InterleavedFrame) (rest : List UInt8) :
    interleavedPayloadLen (self.bytes ++ rest) = self.payload.length := by
  have length : interleavedPayloadLen (self.bytes ++ rest) =
      (word16 (be16 (UInt16.ofNat self.payload.length) ++ (self.payload ++ rest))).toNat := by
    rw [← List.append_assoc]
    rfl
  rw [length, word16_be16, UInt16.toNat_ofNat', Nat.mod_eq_of_lt self.fits]

theorem length_bytes (self : InterleavedFrame) :
    self.bytes.length = interleavedHeaderSize + self.payload.length := by
  rw [bytes, List.length_append]
  rfl

theorem head?_bytes (self : InterleavedFrame) : self.bytes.head? = some '$'.toUInt8 := rfl

end InterleavedFrame

def framesBytes (frames : List InterleavedFrame) : List UInt8 :=
  (frames.map InterleavedFrame.bytes).flatten

theorem framesBytes_cons (frame : InterleavedFrame) (frames : List InterleavedFrame) :
    framesBytes (frame :: frames) = frame.bytes ++ framesBytes frames := rfl

theorem skipInterleaved_frames (past : Option UInt8) (frames : List InterleavedFrame)
    (rest : List UInt8) :
    skipInterleaved past (framesBytes frames ++ rest) =
      (skipInterleaved past rest).shift (framesBytes frames).length := by
  induction frames with
  | nil => exact (shift_zero _).symm
  | cons frame frames ih =>
      have own := frame.interleavedPayloadLen_bytes []
      rw [List.append_nil] at own
      rw [framesBytes_cons, List.append_assoc, skipInterleaved_append past frame.bytes _
        frame.head?_bytes (by rw [own, frame.length_bytes]), ih, shift_shift, List.length_append]

theorem parse_behind_frames (past : Option UInt8) (frames : List InterleavedFrame)
    (rest : List UInt8) :
    Request.parse past (framesBytes frames ++ rest) =
        (Request.parse past rest).shift (framesBytes frames).length ∧
      Response.parse past (framesBytes frames ++ rest) =
        (Response.parse past rest).shift (framesBytes frames).length :=
  have skip := skipInterleaved_frames past frames rest
  ⟨bind_shifted skipInterleaved _ past _ rest skip, bind_shifted skipInterleaved _ past _ rest skip⟩

end Compy.Rtsp
